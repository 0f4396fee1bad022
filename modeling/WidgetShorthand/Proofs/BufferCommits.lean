import Mathlib.Data.Finset.Card
import WidgetShorthand.Proofs.Minting

/-!
# Committing a buffer

A buffer is committed in one go: its widgets are taken to a private copy of the registry, which is
published when all are in. Each widget finds there what those in front of it have left, as it would
if it were registered by itself; so the ids and the registry are those of registering one by one,
whatever was registered since the buffer was filled.

The two ways part where there are no more ids to mint. A commit that stops there publishes nothing,
while of the widgets that are registered one by one those in front of the stop stay registered. How
many new shapes there is room for can be read off the number of the next id.

That each id names a pattern of the right shape is shown for one registration. Registries only grow,
so the later ones do not change it.
-/

namespace WidgetShorthand.Registry

/-- How many ids can still be minted. -/
def room (r : Registry) : Nat :=
  if r.contains (mintedId lastNumber) then 0 else UInt64.size - r.nextNumber

/-- The fingerprints of the widgets that no pattern has. -/
def missing (r : Registry) (ws : List Widget) : Finset String :=
  (ws.map (·.fingerprint)).toFinset.filter (r.lookup? · = none)

variable {r r' : Registry} {id : String} {w : Widget} {ws : List Widget}

/-! ## One after the other -/

theorem foldlM_commitOne (ids : List String) (r : Registry) (ws : List Widget) :
    ws.foldlM commitOne (ids, r) =
      (r.registerAll ws).1.map fun added => (ids ++ added, (r.registerAll ws).2) := by
  induction ws generalizing ids r with
  | nil => simp [registerAll]
  | cons w ws ih =>
      rw [List.foldlM_cons, commitOne_eq, registerAll]
      cases r.register w with
      | none => rfl
      | some found =>
          refine (ih _ _).trans ?_
          rw [Option.map_map]
          simp only [List.append_assoc, List.singleton_append]
          rfl

theorem commit_eq_registerAll (r : Registry) (b : Buffer) :
    r.commit b = (r.registerAll b.widgets).1.map fun ids => (ids, (r.registerAll b.widgets).2) := by
  rw [commit, foldlM_commitOne]
  simp only [List.nil_append]

theorem grows_registerAll (r : Registry) (ws : List Widget) : Grows r (r.registerAll ws).2 := by
  induction ws generalizing r with
  | nil => exact .refl r
  | cons w ws ih =>
      rw [registerAll]
      cases h : r.register w with
      | none => exact .refl r
      | some found => exact (grows_register h).trans (ih found.2)

/-! ## What the ids name -/

/-- The id names a pattern of the widget's shape. -/
def Names (r : Registry) (id : String) (w : Widget) : Prop :=
  ∃ entry, r.get? id = some entry ∧ entry.fingerprint = w.fingerprint

theorem Grows.names (h : Grows r r') (hn : r.Names id w) : r'.Names id w := by
  obtain ⟨entry, hget, hfingerprint⟩ := hn
  exact ⟨entry, h.get? hget, hfingerprint⟩

theorem Sound.names_register (hr : r.Sound) (h : r.register w = some (id, r')) :
    r'.Names id w := by
  have hsound := (grows_register h).sound hr
  rcases register_eq_some.mp h with ⟨entry, hfound, rfl, rfl⟩ | ⟨_, _, rfl⟩
  · obtain ⟨hmem, hfingerprint⟩ := mem_of_lookup? hfound
    exact ⟨entry, hr.get?_of_mem hmem, hfingerprint⟩
  · have hmem : Entry.ofWidget id w .default ∈ (r.push (.ofWidget id w .default)).entries := by
      rw [entries_push]
      exact List.mem_append_right _ (List.mem_singleton_self _)
    exact ⟨_, hsound.get?_of_mem hmem, rfl⟩

theorem Sound.names_registerAll (hr : r.Sound) {ids : List String}
    (h : (r.registerAll ws).1 = some ids) :
    List.Forall₂ (r.registerAll ws).2.Names ids ws := by
  induction ws generalizing r ids with
  | nil => cases h; exact .nil
  | cons w ws ih =>
      rw [registerAll] at h ⊢
      cases hw : r.register w with
      | none => rw [hw] at h; cases h
      | some found =>
          rw [hw] at h
          obtain ⟨rest, hrest, rfl⟩ := Option.map_eq_some_iff.mp h
          have hnames := (grows_registerAll found.2 ws).names (hr.names_register hw)
          exact .cons hnames (ih ((grows_register hw).sound hr) hrest)

/-! ## Room for new shapes -/

theorem lookup?_push_eq_none {entry : Entry} {fingerprint : String} :
    (r.push entry).lookup? fingerprint = none ↔
      entry.fingerprint ≠ fingerprint ∧ r.lookup? fingerprint = none := by
  rw [lookup?_eq_none, lookup?_eq_none, entries_push, List.map_append, List.mem_append, not_or]
  simp [and_comm, eq_comm]

theorem size_push (r : Registry) (entry : Entry) : (r.push entry).size = r.size + 1 := by
  simp [size, push]

theorem missing_cons_of_known (h : r.lookup? w.fingerprint ≠ none) :
    r.missing (w :: ws) = r.missing ws := by
  rw [missing, List.map_cons, List.toFinset_cons, Finset.filter_insert, if_neg h, missing]

/-- A shape that is registered is missing no more. -/
theorem card_missing_cons (h : r.lookup? w.fingerprint = none) (id : String) (ws : List Widget) :
    (r.missing (w :: ws)).card = ((r.push (.ofWidget id w .default)).missing ws).card + 1 := by
  have hmem : w.fingerprint ∈ r.missing (w :: ws) := by
    simp [missing, h]
  have herase : (r.push (.ofWidget id w .default)).missing ws =
      (r.missing (w :: ws)).erase w.fingerprint := by
    ext f
    simp only [missing, List.map_cons, Finset.mem_filter, Finset.mem_erase, List.mem_toFinset,
      List.mem_cons, lookup?_push_eq_none, Entry.ofWidget]
    tauto
  rw [herase, Finset.card_erase_add_one hmem]

/-- A minted id takes up one place. -/
theorem Counted.room_push (h : r.Counted) (hmint : r.mint? = some id) :
    r.room = (r.push (.ofWidget id w .default)).room + 1 := by
  have hlast : r.contains (mintedId lastNumber) = false :=
    h.isSome_mint?_iff.mp (hmint ▸ rfl)
  rw [mint?_of_free (h.next_free hlast), Option.some.injEq] at hmint
  subst hmint
  have hword := h.word
  have hnumber := mintedNumber?_mintedId (le_lastNumber_iff.mp hword)
  have hnext : (r.push (.ofWidget (mintedId r.nextNumber) w .default)).nextNumber =
      max r.nextNumber (min (r.nextNumber + 1) lastNumber) := by
    simp [Registry.push, Entry.ofWidget, hnumber, lastNumber]
  have hcontains : (r.push (.ofWidget (mintedId r.nextNumber) w .default)).contains
      (mintedId lastNumber) = decide (r.nextNumber = lastNumber) := by
    rw [Bool.eq_iff_iff, contains_iff, ids, entries_push, List.map_append, List.mem_append,
      ← ids, ← contains_iff, hlast, decide_eq_true_iff]
    simp [Entry.ofWidget, mintedId_injective.eq_iff, eq_comm]
  rw [room, room, hlast, if_neg (by decide), hcontains, hnext]
  have hsize : UInt64.size = lastNumber + 1 := rfl
  split
  · next heq =>
      rw [decide_eq_true_iff] at heq
      omega
  · next hne =>
      rw [decide_eq_true_iff] at hne
      omega

theorem Counted.room_eq_zero_iff (h : r.Counted) : r.room = 0 ↔ r.mint? = none := by
  have hword := le_lastNumber_iff.mp h.word
  rw [h.mint?_eq_none_iff_last, room]
  split
  · next hlast => simp [hlast]
  · next hlast =>
      rw [iff_false_right hlast]
      omega

/-- Registering widgets one by one has room for their new shapes or stops when it is used up. -/
theorem Counted.registerAll_room (h : r.Counted) (ws : List Widget) :
    ((r.registerAll ws).1.isSome = true ↔ (r.missing ws).card ≤ r.room) ∧
    ((r.registerAll ws).1 = none → (r.registerAll ws).2.size = r.size + r.room) := by
  induction ws generalizing r with
  | nil => simp [registerAll, missing]
  | cons w ws ih =>
      rw [registerAll]
      cases hw : r.register w with
      | none =>
          obtain ⟨hnew, hmint⟩ := register_eq_none.mp hw
          rw [h.room_eq_zero_iff.mpr hmint, card_missing_cons hnew "" ws]
          simp
      | some found =>
          obtain ⟨id, r'⟩ := found
          dsimp only
          rw [Option.isSome_map, Option.map_eq_none_iff]
          rcases register_eq_some.mp hw with ⟨entry, hfound, _, rfl⟩ | ⟨hnew, hmint, rfl⟩
          · rw [missing_cons_of_known (by rw [hfound]; exact Option.some_ne_none _)]
            exact ih h
          · obtain ⟨hsome, hnone⟩ := ih (h.push (.ofWidget id w .default))
            rw [card_missing_cons hnew id ws, h.room_push hmint]
            refine ⟨hsome.trans Nat.succ_le_succ_iff.symm, fun hstop => ?_⟩
            rw [hnone hstop, size_push]
            omega

theorem Grows.size_le (h : Grows r r') : r.size ≤ r'.size := by
  have hentries := h.entries.length_le
  rwa [Registry.entries, Registry.entries, List.length_map, List.length_map] at hentries

theorem Grows.eq_of_size (h : Grows r r') (hsize : r'.size = r.size) : r' = r := by
  cases h with
  | refl => rfl
  | push h _ _ _ =>
      have hle := h.size_le
      rw [size_push] at hsize
      omega

/-- Committing a buffer answers as registering its widgets one after the other does. Where there is
room for all new shapes it also leaves the same registry, with the number of the next id; there is
one id to each widget, and it names a pattern of the widget's shape. Where there is not, both stop,
the commit leaves the registry as it was, and what is registered one by one takes up the room there
is. -/
theorem commit_in_order (hr : r.Reachable) (b : Buffer) :
    (r.commit b).map (·.1) = (r.registerAll b.widgets).1 ∧
    ((r.commit b).isSome = true ↔ (r.missing b.widgets).card ≤ r.room) ∧
    (∀ ids r', r.commit b = some (ids, r') → r' = (r.registerAll b.widgets).2 ∧
      ids.length = b.widgets.length ∧ List.Forall₂ r'.Names ids b.widgets) ∧
    (r.commit b = none → r.perform (.commit b) = r ∧
      (r.registerAll b.widgets).2.size = r.size + r.room) ∧
    (r.perform (.commit b) = (r.registerAll b.widgets).2 ↔
      (r.missing b.widgets).card ≤ r.room ∨ r.room = 0) := by
  obtain ⟨hsome, hstop⟩ := hr.counted.registerAll_room b.widgets
  have hgrows := grows_registerAll r b.widgets
  rw [← hsome, perform, commit_eq_registerAll]
  cases h : (r.registerAll b.widgets).1 with
  | some ids =>
      refine ⟨rfl, by simp, ?_, fun hnone => (Option.some_ne_none _ hnone).elim, by simp⟩
      rintro _ _ ⟨⟩
      have hnames := hr.sound.names_registerAll h
      exact ⟨rfl, hnames.length_eq, hnames⟩
  | none =>
      have hsize := hstop h
      refine ⟨rfl, by simp, fun _ _ hsome => (Option.some_ne_none _ hsome.symm).elim,
        fun _ => ⟨rfl, hsize⟩, ?_⟩
      simp only [Option.map_none, Option.getD_none, Option.isSome_none, Bool.false_eq_true,
        false_or]
      constructor
      · intro heq
        rw [← heq] at hsize
        omega
      · intro hroom
        exact (hgrows.eq_of_size (by omega)).symm

/-- One id is left to mint, and of the two shapes that wait one is registered in the meantime. A
commit of both goes through as long as one of them is known, and registers neither when both are
new. -/
theorem commit_in_order_full :
    let b : Buffer := ⟨[Stock.leaf "Divider" [], Stock.leaf "Spacer" []].map fun w =>
      ⟨w.fingerprint, w⟩⟩
    let r := empty.perform (.registerAs "w18446744073709551614" (Stock.icon "Icons.add") .default)
    let stale :=
      empty.perform (.registerAs "w18446744073709551614" (Stock.leaf "Spacer" []) .default)
    Reachable r ∧ r.commit b = none ∧ r.perform (.commit b) = r ∧
      (r.registerAll b.widgets).2.size = 2 ∧
      Reachable stale ∧ (stale.commit b).map (·.1) =
        some ["w18446744073709551615", "w18446744073709551614"] ∧
      stale.perform (.commit b) = (stale.registerAll b.widgets).2 := by
  intro b r stale
  have hr : Reachable r := .next _ .empty
  have hstale : Reachable stale := .next _ .empty
  have hroom : r.room = 1 := by decide +kernel
  have hstop : r.commit b = none := by decide +kernel
  have hids : (stale.commit b).map (·.1) =
      some ["w18446744073709551615", "w18446744073709551614"] := by decide +kernel
  have hcommitted : (stale.commit b).isSome = true := by
    rw [← Option.isSome_map, hids, Option.isSome_some]
  obtain ⟨_, _, _, hnone, _⟩ := commit_in_order hr b
  obtain ⟨_, hsome, _, _, hsame⟩ := commit_in_order hstale b
  obtain ⟨hkept, hsize⟩ := hnone hstop
  rw [hroom] at hsize
  exact ⟨hr, hstop, hkept, hsize, hstale, hids, hsame.mpr (.inl (hsome.mp hcommitted))⟩

end WidgetShorthand.Registry
