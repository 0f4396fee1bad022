import WidgetShorthand.Proofs.Filling
import WidgetShorthand.Proofs.TableLookup
import WidgetShorthand.Registry.Mining
import WidgetShorthand.Registry.Stock

/-!
# Registries only grow

Whatever is asked of a registry, it either stays as it is or gets patterns at its end, each of them
with an id and a fingerprint that were free. `Grows` says this once; that no id and no fingerprint
occurs twice, and that an id never changes its meaning, both follow from it alone.

A call that has no number for an id adds nothing, like one that is refused. So it is enough to look
at the calls that have an answer.
-/

namespace WidgetShorthand

/-- What is asked of a registry while it is used. -/
inductive Registration where
  | register (w : Widget)
  | registerAs (id : String) (w : Widget) (about : Description)
  | commit (b : Buffer)

namespace Registry

/-- The registry behind a call. A call that is refused leaves it as it is, and so does one that has
no number for an id. -/
def perform (r : Registry) : Registration → Registry
  | .register w => ((r.register w).map (·.2)).getD r
  | .registerAs id w about =>
    match r.registerAs id w about with
    | .ok r' => r'
    | .error _ => r
  | .commit b => ((r.commit b).map (·.2)).getD r

/-- The registries that can occur: one to start from, and what calls make of it. -/
inductive Reachable : Registry → Prop
  | empty : Reachable .empty
  | stock : Reachable .stock
  | loaded {entries : List Entry} {r : Registry} (h : ofEntries entries = .ok r) : Reachable r
  | next {r : Registry} (call : Registration) (h : Reachable r) : Reachable (r.perform call)

/-- No id and no fingerprint occurs twice, and all patterns are as registering makes them. -/
structure Sound (r : Registry) : Prop where
  entries : ∀ entry ∈ r.entries, entry.Sound
  ids : r.ids.Nodup
  fingerprints : (r.entries.map (·.fingerprint)).Nodup

/-- Patterns are added at the end, with free ids and free fingerprints. -/
inductive Grows : Registry → Registry → Prop
  | refl (r : Registry) : Grows r r
  | push {r r' : Registry} {entry : Entry} (h : Grows r r') (he : entry.Sound)
      (hid : r'.contains entry.id = false) (hf : r'.lookup? entry.fingerprint = none) :
      Grows r (r'.push entry)

variable {r r' r'' : Registry} {entry : Entry} {id : String}

/-! ## Looking up -/

theorem entries_push (r : Registry) (entry : Entry) :
    (r.push entry).entries = r.entries ++ [entry] := by
  simp [entries, push]

theorem contains_iff : r.contains id = true ↔ id ∈ r.ids := by
  rw [contains, get?, List.find?_isSome, ids, List.mem_map]
  simp only [beq_iff_eq]

theorem lookup?_eq_none {fingerprint : String} :
    r.lookup? fingerprint = none ↔ fingerprint ∉ r.entries.map (·.fingerprint) := by
  rw [lookup?, List.find?_eq_none, List.mem_map]
  simp only [beq_iff_eq]
  exact ⟨fun h ⟨entry, hmem, heq⟩ => h entry hmem heq, fun h entry hmem heq => h ⟨entry, hmem, heq⟩⟩

theorem mem_of_lookup? {fingerprint : String} (h : r.lookup? fingerprint = some entry) :
    entry ∈ r.entries ∧ entry.fingerprint = fingerprint := by
  refine ⟨List.mem_of_find?_eq_some h, ?_⟩
  simpa using List.find?_some h

theorem Sound.get?_of_mem (hr : r.Sound) (h : entry ∈ r.entries) : r.get? entry.id = some entry :=
  find?_key_of_mem hr.ids h

theorem Sound.lookup?_of_mem (hr : r.Sound) (h : entry ∈ r.entries) :
    r.lookup? entry.fingerprint = some entry :=
  find?_key_of_mem hr.fingerprints h

/-! ## What growing keeps -/

theorem sound_push_iff : (r.push entry).Sound ↔ r.Sound ∧ entry.Sound ∧
    r.contains entry.id = false ∧ r.lookup? entry.fingerprint = none := by
  have hentries : (∀ x ∈ (r.push entry).entries, x.Sound) ↔
      (∀ x ∈ r.entries, x.Sound) ∧ entry.Sound := by
    rw [entries_push, List.forall_mem_append, List.forall_mem_singleton]
  have hids : (r.push entry).ids.Nodup ↔ r.contains entry.id = false ∧ r.ids.Nodup := by
    rw [← Bool.not_eq_true, contains_iff, ids, entries_push, List.map_append, List.map_singleton,
      ← List.concat_eq_append, List.nodup_concat, ids]
  have hfingerprints : ((r.push entry).entries.map (·.fingerprint)).Nodup ↔
      r.lookup? entry.fingerprint = none ∧ (r.entries.map (·.fingerprint)).Nodup := by
    rw [lookup?_eq_none, entries_push, List.map_append, List.map_singleton,
      ← List.concat_eq_append, List.nodup_concat]
  constructor
  · intro h
    obtain ⟨hold, he⟩ := hentries.mp h.entries
    obtain ⟨hid, hidsOld⟩ := hids.mp h.ids
    obtain ⟨hf, hfingerprintsOld⟩ := hfingerprints.mp h.fingerprints
    exact ⟨⟨hold, hidsOld, hfingerprintsOld⟩, he, hid, hf⟩
  · rintro ⟨hr, he, hid, hf⟩
    exact ⟨hentries.mpr ⟨hr.entries, he⟩, hids.mpr ⟨hid, hr.ids⟩,
      hfingerprints.mpr ⟨hf, hr.fingerprints⟩⟩

theorem Sound.push (hr : r.Sound) (he : entry.Sound) (hid : r.contains entry.id = false)
    (hf : r.lookup? entry.fingerprint = none) : (r.push entry).Sound :=
  sound_push_iff.mpr ⟨hr, he, hid, hf⟩

theorem Grows.sound (h : Grows r r') (hr : r.Sound) : r'.Sound := by
  induction h with
  | refl => exact hr
  | push _ he hid hf ih => exact ih.push he hid hf

theorem Grows.trans (h : Grows r r') (h' : Grows r' r'') : Grows r r'' := by
  induction h' with
  | refl => exact h
  | push _ he hid hf ih => exact ih.push he hid hf

theorem Grows.entries (h : Grows r r') : r.entries <+: r'.entries := by
  induction h with
  | refl => exact List.prefix_refl _
  | push _ _ _ _ ih =>
      rw [entries_push]
      exact ih.trans (List.prefix_append _ _)

/-- An id keeps its meaning. -/
theorem Grows.get? (h : Grows r r') (hget : r.get? id = some entry) : r'.get? id = some entry := by
  obtain ⟨added, hadded⟩ := h.entries
  rw [Registry.get?, ← hadded, List.find?_append]
  rw [Registry.get?] at hget
  rw [hget, Option.some_or]

/-! ## Minted ids are free -/

theorem toList_mintedId (n : Nat) : (mintedId n).toList = 'w' :: Nat.toDigits 10 n := by
  show ("w" ++ n.repr).toList = _
  rw [String.toList_append, Nat.toList_repr]
  rfl

theorem mintedId_injective : Function.Injective mintedId := by
  intro m n h
  have hdigits := congrArg String.toList h
  rw [toList_mintedId, toList_mintedId, List.cons.injEq] at hdigits
  rw [← Nat.ofDigitChars_ten_toDigits (n := m), hdigits.2, Nat.ofDigitChars_ten_toDigits]

theorem isReferenceId_mintedId (n : Nat) : Text.isReferenceId (mintedId n) = true := by
  rw [Text.isReferenceId, toList_mintedId, List.all_cons, List.isEmpty_cons]
  have hdigits : (Nat.toDigits 10 n).all Text.isReferenceChar = true := by
    rw [List.all_eq_true]
    intro c hc
    have hdigit := Nat.isDigit_of_mem_toDigits (by decide) (by decide) hc
    simp [Text.isReferenceChar, Char.isAlphanum, hdigit]
  rw [hdigits]
  rfl

/-- A search that finds an id has gone up to a free one, without leaving the words. -/
theorem mintFrom_eq_some {tries n : Nat} (h : r.mintFrom tries n = some id) :
    ∃ m, n ≤ m ∧ (n < UInt64.size → m < UInt64.size) ∧ id = mintedId m ∧
      r.contains id = false := by
  induction tries generalizing n with
  | zero => cases h
  | succ tries ih =>
      rw [mintFrom] at h
      split at h
      · next hfree =>
          cases h
          exact ⟨n, Nat.le_refl n, fun h => h, rfl, by simpa using hfree⟩
      · split at h
        · next hword =>
            obtain ⟨m, hle, hm, hid, hfree⟩ := ih h
            exact ⟨m, Nat.le_of_succ_le hle, fun _ => hm hword, hid, hfree⟩
        · cases h

theorem contains_of_mint? (h : r.mint? = some id) : r.contains id = false := by
  obtain ⟨_, _, _, _, hfree⟩ := mintFrom_eq_some h
  exact hfree

theorem isReferenceId_of_mint? (h : r.mint? = some id) : Text.isReferenceId id = true := by
  obtain ⟨m, _, _, rfl, _⟩ := mintFrom_eq_some h
  exact isReferenceId_mintedId m

/-! ## What calls do -/

/-- A widget that is registered has a pattern already, or gets one under a minted id. -/
theorem register_eq_some {w : Widget} : r.register w = some (id, r') ↔
    (∃ e, r.lookup? w.fingerprint = some e ∧ e.id = id ∧ r = r') ∨
    (r.lookup? w.fingerprint = none ∧ r.mint? = some id ∧
      r.push (.ofWidget id w .default) = r') := by
  unfold register
  cases r.lookup? w.fingerprint with
  | some e => simp
  | none => simp

theorem register_eq_none {w : Widget} :
    r.register w = none ↔ r.lookup? w.fingerprint = none ∧ r.mint? = none := by
  unfold register
  cases r.lookup? w.fingerprint with
  | some e => simp
  | none => simp

theorem grows_register {w : Widget} (h : r.register w = some (id, r')) : Grows r r' := by
  rcases register_eq_some.mp h with ⟨_, _, _, rfl⟩ | ⟨hnew, hmint, rfl⟩
  · exact .refl r
  · exact .push (.refl r) (Entry.sound_ofWidget w .default (isReferenceId_of_mint? hmint))
      (contains_of_mint? hmint) hnew

theorem grows_registerAs {id : String} {w : Widget} {about : Description}
    (h : r.registerAs id w about = .ok r') : Grows r r' := by
  unfold registerAs at h
  split at h
  · cases h
  · next hid =>
      split at h
      · cases h
      · next hfree =>
          split at h
          · cases h
          · next hnew =>
              cases h
              have hsound := Entry.sound_ofWidget w about (by simpa using hid)
              exact .push (.refl r) hsound (Bool.not_eq_true _ ▸ hfree) hnew

/-- A step of a commit is the registration of one widget. -/
theorem commitOne_eq (ids : List String) (r : Registry) (w : Widget) :
    commitOne (ids, r) w = (r.register w).map fun (id, r') => (ids ++ [id], r') := by
  unfold commitOne register
  dsimp only
  cases r.lookup? w.fingerprint with
  | some e => rfl
  | none => rw [Option.map_map]; rfl

/-- What registering keeps is kept by a commit. -/
theorem commit_induction {P : Registry → Prop} {b : Buffer} {ids : List String}
    (hstep : ∀ w ∈ b.widgets, ∀ r id r', P r → r.register w = some (id, r') → P r')
    (h : r.commit b = some (ids, r')) (hr : P r) : P r' := by
  unfold commit at h
  generalize ([] : List String) = start at h
  generalize b.widgets = ws at h hstep
  induction ws generalizing start r with
  | nil => cases h; exact hr
  | cons w ws ih =>
      rw [List.forall_mem_cons] at hstep
      rw [List.foldlM_cons, commitOne_eq] at h
      obtain ⟨_, hfirst, hrest⟩ := Option.bind_eq_some_iff.mp h
      obtain ⟨⟨id, r₁⟩, hregister, rfl⟩ := Option.map_eq_some_iff.mp hfirst
      exact ih (hstep.1 r id r₁ hr hregister) _ hrest hstep.2

theorem grows_commit {b : Buffer} {ids : List String} (h : r.commit b = some (ids, r')) :
    Grows r r' :=
  commit_induction (fun _ _ _ _ _ hgrows hregister => hgrows.trans (grows_register hregister)) h
    (.refl r)

/-- A call that registers nothing leaves the registry as it is. -/
theorem perform_cases (r : Registry) (call : Registration) :
    r.perform call = r ∨ (∃ w id, call = .register w ∧ r.register w = some (id, r.perform call)) ∨
      (∃ id w about, call = .registerAs id w about ∧
        r.registerAs id w about = .ok (r.perform call)) ∨
      ∃ b ids, call = .commit b ∧ r.commit b = some (ids, r.perform call) := by
  cases call with
  | register w =>
      cases h : r.register w with
      | none => exact .inl (by rw [perform, h]; rfl)
      | some found => exact .inr (.inl ⟨w, found.1, rfl, by rw [perform, h]; rfl⟩)
  | registerAs id w about =>
      cases h : r.registerAs id w about with
      | error => exact .inl (by rw [perform, h])
      | ok r' => exact .inr (.inr (.inl ⟨id, w, about, rfl, by rw [perform, h]⟩))
  | commit b =>
      cases h : r.commit b with
      | none => exact .inl (by rw [perform, h]; rfl)
      | some found => exact .inr (.inr (.inr ⟨b, found.1, rfl, by rw [perform, h]; rfl⟩))

theorem grows_perform (r : Registry) (call : Registration) : Grows r (r.perform call) := by
  rcases r.perform_cases call with h | ⟨_, _, _, h⟩ | ⟨_, _, _, _, h⟩ | ⟨_, _, _, h⟩
  · rw [h]
    exact .refl r
  · exact grows_register h
  · exact grows_registerAs h
  · exact grows_commit h

/-- The first widget of an empty registry. -/
theorem entries_perform_empty (w : Widget) :
    (empty.perform (.register w)).entries = [.ofWidget "w1" w .default] := by
  have hmint : empty.mint? = some "w1" := by decide +kernel
  have hregister : empty.register w = some ("w1", empty.push (.ofWidget "w1" w .default)) :=
    register_eq_some.mpr (.inr ⟨rfl, hmint, rfl⟩)
  rw [perform, hregister]
  rfl

/-! ## Where registries start -/

theorem sound_empty : empty.Sound :=
  ⟨nofun, List.nodup_nil, List.nodup_nil⟩

theorem sound_of_check (h : entry.check = .ok ()) : entry.Sound := by
  unfold Entry.check at h
  split at h
  · cases h
  · next hid =>
      split at h
      · cases h
      · next hslots =>
          split at h
          · cases h
          · next hfingerprint =>
              exact ⟨by simpa using hid, by simpa using hslots,
                (by simpa using hfingerprint : entry.sample.fingerprint = entry.fingerprint).symm⟩

theorem grows_accept (h : r.accept entry = .ok r') : Grows r r' := by
  unfold accept at h
  obtain ⟨_, hcheck, h⟩ := bind_eq_ok.mp h
  cases hid : r.contains entry.id with
  | true => rw [hid] at h; cases h
  | false =>
      rw [hid] at h
      cases hnew : r.lookup? entry.fingerprint with
      | some first => rw [hnew] at h; cases h
      | none =>
          rw [hnew] at h
          cases h
          exact .push (.refl r) (sound_of_check hcheck) hid hnew

theorem sound_of_ofEntries {entries : List Entry} (h : ofEntries entries = .ok r) : r.Sound :=
  foldlM_induction (fun _ _ _ hr h => (grows_accept h).sound hr) sound_empty h

theorem entries_stock : stock.entries = Stock.patterns := rfl

/-- That the three shapes have different fingerprints is checked by computing them. -/
theorem sound_stock : stock.Sound where
  entries := by
    rw [entries_stock]
    intro entry hentry
    simp only [Stock.patterns, List.mem_cons, List.not_mem_nil, or_false] at hentry
    rcases hentry with rfl | rfl | rfl <;> exact Entry.sound_ofWidget _ _ (by decide)
  ids := by
    rw [ids, entries_stock]
    decide
  fingerprints := by
    rw [entries_stock]
    decide +kernel

theorem Reachable.sound (h : Reachable r) : r.Sound := by
  induction h with
  | empty => exact sound_empty
  | stock => exact sound_stock
  | loaded h => exact sound_of_ofEntries h
  | next call _ ih => exact (grows_perform _ call).sound ih

/-! ## What adding patterns keeps -/

theorem Grows.of_push {P : Registry → Prop} (h : Grows r r') (hr : P r)
    (hpush : ∀ r entry, P r → P (r.push entry)) : P r' := by
  induction h with
  | refl => exact hr
  | push _ _ _ _ ih => exact hpush _ _ ih

/-- Whatever holds of the empty registry and outlives every pattern that is added holds of all
registries that can occur. -/
theorem Reachable.of_push {P : Registry → Prop} (h : Reachable r) (hempty : P .empty)
    (hpush : ∀ r entry, P r → P (r.push entry)) : P r := by
  induction h with
  | empty => exact hempty
  | stock => exact hpush _ _ (hpush _ _ (hpush _ _ hempty))
  | loaded h =>
      exact foldlM_induction (fun _ _ _ hr h => (grows_accept h).of_push hr hpush) hempty h
  | next call _ ih => exact (grows_perform _ call).of_push ih hpush

end Registry

end WidgetShorthand
