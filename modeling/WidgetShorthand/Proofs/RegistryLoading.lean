import Mathlib.Order.Bounds.Basic
import WidgetShorthand.Proofs.Minting
import WidgetShorthand.Proofs.RegistryFiles

/-!
# What registries can be loaded from

Patterns that come from outside are taken in one by one. Each is compared with its own sample and
with the patterns before it, so what is accepted can be said of the list as a whole: every pattern
is as registering would have made it, and no id and no fingerprint stands in the list twice. A list
that is refused has a first pattern that does not fit behind those before it, and that pattern is
the reason.

The number of the next id is found on the way. An id spells a number when it is a `w` and decimal
digits, with any zeros in front; the next number is one more than the largest of these, as long as
it is a word.
-/

namespace WidgetShorthand

namespace Registry

variable {r r' : Registry} {entries before : List Entry} {entry : Entry} {error : LoadError}

/-! ## Accepting -/

/-- Patterns that can be loaded. -/
structure Acceptable (entries : List Entry) : Prop where
  sound : ∀ entry ∈ entries, entry.Sound
  ids : (entries.map (·.id)).Nodup
  fingerprints : (entries.map (·.fingerprint)).Nodup

/-- Why a pattern is not accepted behind others. What it says of its own sample is looked at
first. -/
inductive Offends (before : List Entry) (entry : Entry) : LoadError → Prop where
  | id (h : Text.isReferenceId entry.id = false) :
    Offends before entry (.invalidReferenceId entry.id)
  | slots (hid : Text.isReferenceId entry.id = true) (h : entry.slots ≠ entry.sample.slots) :
      Offends before entry (.slotMismatch entry.id)
  | fingerprint (hid : Text.isReferenceId entry.id = true)
      (hslots : entry.slots = entry.sample.slots)
      (h : entry.fingerprint ≠ entry.sample.fingerprint) :
      Offends before entry
        (.fingerprintMismatch entry.id entry.fingerprint entry.sample.fingerprint)
  | idTaken (hentry : entry.Sound) (h : entry.id ∈ before.map (·.id)) :
      Offends before entry (.duplicateReferenceId entry.id)
  | shapeTaken (hentry : entry.Sound) (hid : entry.id ∉ before.map (·.id)) {first : Entry}
      (hfirst : first ∈ before) (h : first.fingerprint = entry.fingerprint) :
      Offends before entry (.duplicateFingerprint entry.fingerprint first.id entry.id)

theorem sound_iff_acceptable : r.Sound ↔ Acceptable r.entries :=
  ⟨fun h => ⟨h.entries, h.ids, h.fingerprints⟩, fun h => ⟨h.sound, h.ids, h.fingerprints⟩⟩

/-- A pattern is checked, then compared with the ids and then with the fingerprints that are
there. -/
theorem accept_eq (r : Registry) (entry : Entry) : r.accept entry =
    match entry.check with
    | .error error => .error error
    | .ok _ =>
      if entry.id ∈ r.ids then .error (.duplicateReferenceId entry.id)
      else match r.lookup? entry.fingerprint with
        | some first => .error (.duplicateFingerprint entry.fingerprint first.id entry.id)
        | none => .ok (r.push entry) := by
  simp only [accept, ← contains_iff]
  cases entry.check with
  | error error => rfl
  | ok _ =>
      cases r.contains entry.id with
      | true => rfl
      | false => cases r.lookup? entry.fingerprint <;> rfl

theorem push_of_accept (h : r.accept entry = .ok r') : r' = r.push entry := by
  rw [accept_eq] at h
  split at h
  · cases h
  · split at h
    · cases h
    · split at h <;> cases h
      rfl

theorem offends_of_check (before : List Entry) (h : entry.check = .error error) :
    Offends before entry error := by
  unfold Entry.check at h
  split at h
  · next hid =>
      cases h
      exact .id (by simpa using hid)
  · next hid =>
      rw [Bool.not_eq_true', Bool.not_eq_false] at hid
      split at h
      · next hslots =>
          cases h
          exact .slots hid hslots
      · next hslots =>
          rw [not_not] at hslots
          split at h
          · next hfingerprint =>
              cases h
              exact .fingerprint hid hslots (Ne.symm hfingerprint)
          · cases h

/-- A pattern is refused behind others for a reason that it gives, and for no other one. -/
theorem Sound.accept_eq_error (hr : r.Sound) :
    r.accept entry = .error error ↔ Offends r.entries entry error := by
  rw [accept_eq]
  constructor
  · intro h
    split at h
    · next hcheck =>
        cases h
        exact offends_of_check _ hcheck
    · next hcheck =>
        have hsound := sound_of_check hcheck
        split at h
        · next hid =>
            cases h
            exact .idTaken hsound hid
        · next hid =>
            split at h
            · next first hfirst =>
                cases h
                obtain ⟨hmem, hsame⟩ := mem_of_lookup? hfirst
                exact .shapeTaken hsound hid hmem hsame
            · cases h
  · intro h
    cases h with
    | id hid => rw [Entry.check, hid]; rfl
    | slots hid hslots => rw [Entry.check, hid, if_pos hslots]; rfl
    | fingerprint hid hslots hfingerprint =>
        rw [Entry.check, hid, if_neg (not_not_intro hslots), if_pos (Ne.symm hfingerprint)]
        rfl
    | idTaken hentry hid => rw [hentry.check]; exact if_pos hid
    | @shapeTaken hentry hid first hmem hsame =>
        have hfirst : r.lookup? entry.fingerprint = some first := hsame ▸ hr.lookup?_of_mem hmem
        rw [hentry.check, hfirst]
        exact if_neg hid

/-! ## Loading -/

theorem eq_foldl_of_ofEntries (h : ofEntries entries = .ok r) : r = entries.foldl push empty := by
  induction entries using List.reverseRecOn generalizing r with
  | nil =>
      cases h
      rfl
  | append_singleton entries entry ih =>
      rw [ofEntries, List.foldlM_append] at h
      obtain ⟨r', hr', h⟩ := bind_eq_ok.mp h
      obtain ⟨r'', haccept, h⟩ := bind_eq_ok.mp h
      cases h
      rw [List.foldl_concat, ← ih hr']
      exact push_of_accept haccept

theorem entries_foldl_push (r : Registry) (entries : List Entry) :
    (entries.foldl push r).entries = r.entries ++ entries := by
  induction entries generalizing r with
  | nil => rw [List.foldl_nil, List.append_nil]
  | cons entry entries ih => rw [List.foldl_cons, ih, entries_push, List.append_assoc]; rfl

theorem entries_of_ofEntries (h : ofEntries entries = .ok r) : r.entries = entries := by
  rw [eq_foldl_of_ofEntries h, entries_foldl_push]
  rfl

theorem exists_ofEntries_eq_ok : (∃ r, ofEntries entries = .ok r) ↔ Acceptable entries := by
  constructor
  · rintro ⟨r, hr⟩
    rw [← entries_of_ofEntries hr]
    exact sound_iff_acceptable.mp (sound_of_ofEntries hr)
  · intro h
    refine ⟨_, ofEntries_of_sound (sound_iff_acceptable.mpr ?_)⟩
    rwa [entries_foldl_push]

/-- The first pattern that does not fit behind those before it is the reason for refusing all. -/
theorem ofEntries_eq_error : ofEntries entries = .error error ↔
    ∃ before entry after, entries = before ++ entry :: after ∧ Acceptable before ∧
      Offends before entry error := by
  refine foldlM_eq_error.trans ⟨?_, ?_⟩
  · rintro ⟨before, entry, after, r, hsplit, hr, haccept⟩
    have hoffends := (sound_of_ofEntries hr).accept_eq_error.mp haccept
    rw [entries_of_ofEntries hr] at hoffends
    exact ⟨before, entry, after, hsplit, exists_ofEntries_eq_ok.mp ⟨r, hr⟩, hoffends⟩
  · rintro ⟨before, entry, after, hsplit, hbefore, hoffends⟩
    obtain ⟨r, hr⟩ := exists_ofEntries_eq_ok.mpr hbefore
    rw [← entries_of_ofEntries hr] at hoffends
    exact ⟨before, entry, after, r, hsplit, hr,
      (sound_of_ofEntries hr).accept_eq_error.mpr hoffends⟩

/-! ## The next number -/

/-- The id is a `w` and the digits of a number. -/
def Spells (id : String) (n : Nat) : Prop :=
  ∃ digits, id.toList = 'w' :: digits ∧ digits ≠ [] ∧ (∀ c ∈ digits, c.isDigit = true) ∧
    Text.decimalValue digits = n

/-- The numbers that the ids of patterns spell. -/
def spelled (entries : List Entry) : Set Nat :=
  {n | ∃ entry ∈ entries, Spells entry.id n}

/-- One more than the largest number that is spelled, or one if none is. -/
def IsNext (entries : List Entry) (next : Nat) : Prop :=
  (∃ largest, IsGreatest (spelled entries) largest ∧ next = largest + 1) ∨
    spelled entries = ∅ ∧ next = 1

theorem spells_mintedId (n : Nat) : Spells (mintedId n) n :=
  ⟨Nat.toDigits 10 n, toList_mintedId n, Nat.toDigits_ne_nil,
    fun _ => Nat.isDigit_of_mem_toDigits (by decide) (by decide), Nat.ofDigitChars_ten_toDigits⟩

/-- Numbers that are no words are not counted. -/
theorem mintedNumber?_eq_some {id : String} {n : Nat} :
    mintedNumber? id = some n ↔ Spells id n ∧ n < UInt64.size := by
  unfold mintedNumber?
  constructor
  · intro h
    split at h
    · next digits hid =>
        split at h
        · next hdigits =>
            rw [Bool.and_eq_true, List.all_eq_true] at hdigits
            dsimp only at h
            split at h
            · next hword =>
                cases h
                exact ⟨⟨digits, hid, by simpa using hdigits.1, hdigits.2, rfl⟩, hword⟩
            · cases h
        · cases h
    · cases h
  · rintro ⟨⟨digits, hid, hne, hdigits, rfl⟩, hword⟩
    have hall : digits.all Char.isDigit = true := List.all_eq_true.mpr hdigits
    simp [hid, hne, hall, hword]

theorem spelled_concat (entries : List Entry) (entry : Entry) :
    spelled (entries ++ [entry]) = spelled entries ∪ {n | Spells entry.id n} := by
  ext n
  simp [spelled, or_and_right, exists_or]

theorem Spells.unique {id : String} {m n : Nat} (hm : Spells id m) (hn : Spells id n) : m = n := by
  obtain ⟨digits, hid, _, _, rfl⟩ := hm
  obtain ⟨digits', hid', _, _, rfl⟩ := hn
  rw [hid] at hid'
  cases hid'
  rfl

/-- Behind an id that spells a number, the next number is above that one too. -/
theorem IsNext.concat_spells {next n : Nat} (h : IsNext entries next) (hn : Spells entry.id n) :
    IsNext (entries ++ [entry]) (max next (n + 1)) := by
  have hset : {m | Spells entry.id m} = {n} :=
    Set.ext fun m => ⟨fun hm => hm.unique hn, fun hm => hm ▸ hn⟩
  rw [IsNext, spelled_concat, hset]
  rcases h with ⟨largest, hlargest, rfl⟩ | ⟨hnone, rfl⟩
  · exact .inl ⟨max largest n, hlargest.union isGreatest_singleton, by omega⟩
  · rw [hnone, Set.empty_union]
    exact .inl ⟨n, isGreatest_singleton, by omega⟩

theorem IsNext.concat {next : Nat} (h : IsNext entries next) (hn : ∀ n, ¬ Spells entry.id n) :
    IsNext (entries ++ [entry]) next := by
  have hset : {m | Spells entry.id m} = ∅ := Set.eq_empty_iff_forall_notMem.mpr hn
  rwa [IsNext, spelled_concat, hset, Set.union_empty]

/-- As long as all numbers that are spelled have a successor among words, the count is exact. -/
theorem isNext_foldl_push (h : ∀ entry ∈ entries, ∀ n, Spells entry.id n → n < lastNumber) :
    IsNext entries (entries.foldl push empty).nextNumber := by
  induction entries using List.reverseRecOn with
  | nil => exact .inr ⟨by simp [spelled], rfl⟩
  | append_singleton entries entry ih =>
      rw [List.forall_mem_append, List.forall_mem_singleton] at h
      obtain ⟨hbefore, hentry⟩ := h
      rw [List.foldl_concat]
      unfold push
      dsimp only
      split
      · next n hn =>
          obtain ⟨hspells, _⟩ := mintedNumber?_eq_some.mp hn
          have hlt := hentry n hspells
          have hmin : min (n + 1) (UInt64.size - 1) = n + 1 := Nat.min_eq_left hlt
          rw [hmin]
          exact (ih hbefore).concat_spells hspells
      · next hn =>
          refine (ih hbefore).concat fun n hspells => ?_
          have hword : n < UInt64.size := le_lastNumber_iff.mp (Nat.le_of_lt (hentry n hspells))
          rw [mintedNumber?_eq_some.mpr ⟨hspells, hword⟩] at hn
          cases hn

theorem IsNext.notMem {next : Nat} (h : IsNext entries next) : next ∉ spelled entries := by
  rcases h with ⟨largest, hlargest, rfl⟩ | ⟨hnone, rfl⟩
  · exact fun hmem => absurd (hlargest.2 hmem) (Nat.not_succ_le_self _)
  · rw [hnone]
    exact Set.notMem_empty _

theorem isNext_of_ofEntries (h : ofEntries entries = .ok r)
    (hnumbers : ∀ entry ∈ entries, ∀ n, Spells entry.id n → n < lastNumber) :
    ∃ next, r.mint? = some (mintedId next) ∧ IsNext entries next := by
  have hnext := isNext_foldl_push hnumbers
  rw [← eq_foldl_of_ofEntries h] at hnext
  refine ⟨r.nextNumber, mint?_of_free ?_, hnext⟩
  rw [← Bool.not_eq_true, contains_iff, ids, entries_of_ofEntries h, List.mem_map]
  rintro ⟨entry, hmem, hid⟩
  exact hnext.notMem ⟨entry, hmem, hid ▸ spells_mintedId _⟩

/-- Exactly the acceptable lists are loaded. The registry has their patterns in the same order, and
goes on counting behind the largest number that an id spells, if there is a word for it. A list that
is refused is refused for its first pattern that does not fit behind those before it. -/
theorem ofEntries_accepts_exactly (entries : List Entry) :
    ((∃ r, ofEntries entries = .ok r) ↔ Acceptable entries) ∧
    (∀ r, ofEntries entries = .ok r → r.entries = entries ∧
      ((∀ entry ∈ entries, ∀ n, Spells entry.id n → n < UInt64.size - 1) →
        ∃ next, r.mint? = some (mintedId next) ∧ IsNext entries next)) ∧
    ∀ error, ofEntries entries = .error error ↔
      ∃ before entry after, entries = before ++ entry :: after ∧ Acceptable before ∧
        Offends before entry error :=
  ⟨exists_ofEntries_eq_ok,
    fun _ hr => ⟨entries_of_ofEntries hr, isNext_of_ofEntries hr⟩,
    fun _ => ofEntries_eq_error⟩

/-- The id `w007` is none that could have been minted, and counts all the same. A pattern that has a
wrong slot and the id of another one is refused for its slot. -/
theorem ofEntries_accepts_zeros :
    let entries : List Entry :=
      [.ofWidget "w007" (Stock.leaf "Spacer" []) .default,
        .ofWidget "rule" (Stock.leaf "Divider" []) .default]
    let wrong : Entry := ⟨"", "rule", [[.child 0]], Stock.leaf "Divider" [], .default⟩
    Acceptable entries ∧
      (∃ r, ofEntries entries = .ok r ∧ r.entries = entries ∧ r.mint? = some "w8") ∧
      ofEntries (entries ++ [wrong]) = .error (.slotMismatch "rule") := by
  intro entries wrong
  have hspells : ∀ n, Spells "w007" n ↔ n = 7 := by
    have hseven : Spells "w007" 7 := ⟨['0', '0', '7'], rfl, by decide, by simp, rfl⟩
    exact fun n => ⟨fun h => h.unique hseven, fun h => h ▸ hseven⟩
  have hnone : ∀ n, ¬ Spells "rule" n := by
    rintro n ⟨digits, hid, _⟩
    cases hid
  have hacceptable : Acceptable entries := by
    constructor
    · simp only [entries, List.forall_mem_cons]
      exact ⟨Entry.sound_ofWidget _ _ (by decide), Entry.sound_ofWidget _ _ (by decide), nofun⟩
    · decide
    · decide +kernel
  obtain ⟨haccepted, hloaded, _⟩ := ofEntries_accepts_exactly entries
  obtain ⟨_, _, hrefused⟩ := ofEntries_accepts_exactly (entries ++ [wrong])
  obtain ⟨r, hr⟩ := haccepted.mpr hacceptable
  obtain ⟨hentries, hcounts⟩ := hloaded r hr
  refine ⟨hacceptable, ⟨r, hr, hentries, ?_⟩, ?_⟩
  · obtain ⟨next, hmint, hnext⟩ := hcounts (by simp [entries, Entry.ofWidget, hspells, hnone])
    have hset : spelled entries = {7} := by
      ext n
      simp [spelled, entries, Entry.ofWidget, hspells, hnone]
    rw [IsNext, hset] at hnext
    rcases hnext with ⟨largest, hlargest, rfl⟩ | ⟨hempty, _⟩
    · obtain rfl := hlargest.1
      exact hmint
    · exact absurd hempty (Set.singleton_ne_empty 7)
  · exact (hrefused _).mpr ⟨entries, wrong, [], rfl, hacceptable, .slots (by decide) (by decide)⟩

end Registry

end WidgetShorthand
