import Mathlib.Algebra.BigOperators.Group.List.Lemmas
import Mathlib.Data.List.Dedup
import WidgetShorthand.Proofs.RegistryGrowth
import WidgetShorthand.Registry.Search

/-!
# Runs of registrations

A registry answers a reference from its list of patterns, a table from ids to positions and a table
from fingerprints to positions; for searches and summaries it keeps the shape of every pattern too.
Adding a pattern checks none of these against the others. They agree after every run of calls all
the same: each call checks for itself that id and fingerprint are free, and adds at the end only.

A table is modelled by what insertions one after the other leave in it, where a later one replaces
an earlier one with the same key. That no insertion ever replaces another is part of what is shown.
-/

namespace WidgetShorthand

/-- Where keys stand that were inserted one after the other, each with its position. -/
def position? (keys : List String) (key : String) : Option Nat :=
  keys.zipIdx.foldl (fun found (k, i) => if k = key then some i else found) none

section Positions

variable {α : Type} {keys : List String} {k key : String} {i : Nat}

/-- One more insertion. -/
theorem position?_concat :
    position? (keys ++ [k]) key = if k = key then some keys.length else position? keys key := by
  rw [position?, List.zipIdx_append, List.foldl_append]
  simp only [List.zipIdx_cons, List.zipIdx_nil, List.foldl_cons, List.foldl_nil, Nat.zero_add]
  rfl

theorem position?_eq_some (hn : keys.Nodup) :
    position? keys key = some i ↔ keys[i]? = some key := by
  induction keys using List.reverseRecOn with
  | nil => simp [position?]
  | append_singleton keys k ih =>
      rw [← List.concat_eq_append, List.nodup_concat] at hn
      obtain ⟨hk, hkeys⟩ := hn
      rw [position?_concat]
      split
      · next heq =>
          subst heq
          rw [Option.some.injEq]
          constructor
          · rintro rfl
            exact List.getElem?_concat_length
          · intro h
            -- An earlier position would hold the same key.
            rcases Nat.lt_or_ge i keys.length with hi | hi
            · rw [List.getElem?_append_left hi] at h
              exact absurd (List.mem_of_getElem? h) hk
            · have hlt := (List.getElem?_eq_some_iff.mp h).1
              rw [List.length_append, List.length_singleton] at hlt
              omega
      · next hne =>
          rw [ih hkeys]
          rcases Nat.lt_or_ge i keys.length with hi | hi
          · rw [List.getElem?_append_left hi]
          · rw [List.getElem?_eq_none hi, List.getElem?_append_right hi]
            constructor
            · intro h
              cases h
            · intro h
              exact absurd (List.mem_singleton.mp (List.mem_of_getElem? h)).symm hne

/-- Searching a list for a key answers as its table does. -/
theorem find?_eq_position? {f : α → String} {xs : List α} (hn : (xs.map f).Nodup) (key : String) :
    xs.find? (f · == key) = (position? (xs.map f) key).bind (xs[·]?) := by
  cases hfind : xs.find? (f · == key) with
  | some x =>
      have hx := List.mem_of_find?_eq_some hfind
      have hkey : f x = key := by simpa using List.find?_some hfind
      obtain ⟨i, hi⟩ := List.getElem?_of_mem hx
      have hpos : position? (xs.map f) key = some i := by
        rw [position?_eq_some hn, List.getElem?_map, hi, Option.map_some, hkey]
      rw [hpos, Option.bind_some, hi]
  | none =>
      cases hpos : position? (xs.map f) key with
      | none => rfl
      | some i =>
          rw [position?_eq_some hn, List.getElem?_map] at hpos
          obtain ⟨x, hx, hkey⟩ := Option.map_eq_some_iff.mp hpos
          have hne := List.find?_eq_none.mp hfind x (List.mem_of_getElem? hx)
          rw [hkey, beq_self_eq_true] at hne
          exact absurd rfl hne

end Positions

/-! ## Counting names -/

section Counting

variable {names : List String}

theorem nodup_eraseDups : (names : List String) → names.eraseDups.Nodup
  | [] => List.nodup_nil
  | name :: names => by
      rw [List.eraseDups_cons, List.nodup_cons]
      refine ⟨fun hmem => ?_, nodup_eraseDups _⟩
      rw [List.mem_eraseDups, List.mem_filter] at hmem
      simp at hmem
termination_by names => names.length
decreasing_by exact Nat.lt_succ_of_le (List.length_filter_le _ _)

namespace Text

theorem nodup_tally (names : List String) : ((tally names).map (·.1)).Nodup := by
  rw [tally, List.map_map]
  show ((names.eraseDups.mergeSort _).map id).Nodup
  rw [List.map_id, (List.mergeSort_perm _ _).nodup_iff]
  exact nodup_eraseDups names

theorem mem_tally {name : String} {n : Nat} :
    (name, n) ∈ tally names ↔ n = names.count name ∧ 0 < n := by
  rw [tally, List.mem_map]
  simp only [List.mem_mergeSort, List.mem_eraseDups, Prod.mk.injEq]
  constructor
  · rintro ⟨_, hmem, rfl, rfl⟩
    exact ⟨rfl, List.count_pos_iff.mpr hmem⟩
  · rintro ⟨rfl, hpos⟩
    exact ⟨name, List.count_pos_iff.mp hpos, rfl, rfl⟩

/-- The counts of all names together count every occurrence. -/
theorem total_tally (names : List String) : total ((tally names).map (·.2)) = names.length := by
  rw [tally, List.map_map]
  show ((names.eraseDups.mergeSort _).map (names.count ·)).sum = _
  have hdedup : (names.eraseDups.mergeSort fun a b => decide (a ≤ b)).Perm names.dedup := by
    refine (List.mergeSort_perm _ _).trans ?_
    rw [List.perm_ext_iff_of_nodup (nodup_eraseDups names) (List.nodup_dedup names)]
    intro name
    rw [List.mem_eraseDups, List.mem_dedup]
  rw [(hdedup.map _).sum_eq]
  exact List.sum_map_count_dedup_eq_length names

end Text

end Counting

theorem Entry.Sound.check {entry : Entry} (h : entry.Sound) : entry.check = .ok () := by
  rw [Entry.check, h.id, if_neg (by decide), if_neg (not_not_intro h.slots),
    if_neg (not_not_intro h.fingerprint.symm)]

namespace Registry

variable {r r' : Registry}

/-- The registry behind a whole run of calls. -/
def run (r : Registry) (calls : List Registration) : Registry :=
  calls.foldl perform r

/-- What a call answers with: the ids of what was asked to be registered, or why it was refused. A
call that has no number for an id does not answer. -/
def answer? (r : Registry) : Registration → Option (Except LoadError (List String))
  | .register w => (r.register w).map fun (id, _) => .ok [id]
  | .registerAs id w about => some ((r.registerAs id w about).map fun _ => [id])
  | .commit b => (r.commit b).map fun (ids, _) => .ok ids

def fingerprints (r : Registry) : List String :=
  r.entries.map (·.fingerprint)

/-- The parts of a registry agree with each other. -/
structure Consistent (r : Registry) : Prop where
  idChars : ∀ id ∈ r.ids, id.toList ≠ [] ∧ ∀ c ∈ id.toList, c.isAlphanum = true ∨ c = '_'
  ids : r.ids.Nodup
  fingerprints : r.fingerprints.Nodup
  idTable : ∀ id i, position? r.ids id = some i ↔ ∃ e, r.entries[i]? = some e ∧ e.id = id
  fingerprintTable : ∀ fingerprint i, position? r.fingerprints fingerprint = some i ↔
    ∃ e, r.entries[i]? = some e ∧ e.fingerprint = fingerprint
  get : ∀ id, r.get? id = (position? r.ids id).bind (r.entries[·]?)
  lookup : ∀ fingerprint,
    r.lookup? fingerprint = (position? r.fingerprints fingerprint).bind (r.entries[·]?)
  checked : ∀ e ∈ r.entries, e.check = .ok ()
  shapes : ∀ item ∈ r.items, item.shape = item.entry.sample.shape
  total : r.summary.total = r.entries.length
  totalTokens : r.summary.totalTokens =
    WidgetShorthand.total (r.entries.map (·.sample.shape.length))
  categories : (r.summary.categories.map (·.1)).Nodup
  categoryCounts : ∀ category n, (category, n) ∈ r.summary.categories ↔
    n = (r.byCategory category).length ∧ 0 < n
  countsTotal : WidgetShorthand.total (r.summary.categories.map (·.2)) = r.summary.total

/-! ## Shapes and checks -/

/-- The stored shapes are the shapes of the samples. -/
def Shaped (r : Registry) : Prop :=
  ∀ item ∈ r.items, item.shape = item.entry.sample.shape

theorem Shaped.push (h : r.Shaped) (entry : Entry) : (r.push entry).Shaped := by
  intro item hitem
  rcases List.mem_append.mp hitem with hitem | hitem
  · exact h item hitem
  · cases List.mem_singleton.mp hitem
    rfl

theorem Grows.items (h : Grows r r') : r.items <+: r'.items := by
  induction h with
  | refl => exact List.prefix_refl _
  | push _ _ _ _ ih => exact ih.trans (List.prefix_append _ _)

theorem Reachable.shaped (h : Reachable r) : r.Shaped :=
  h.of_push nofun fun _ entry hr => hr.push entry

theorem Reachable.run (h : Reachable r) (calls : List Registration) : Reachable (r.run calls) := by
  induction calls generalizing r with
  | nil => exact h
  | cons call calls ih => exact ih (h.next call)

theorem grows_run (r : Registry) (calls : List Registration) : Grows r (r.run calls) := by
  induction calls generalizing r with
  | nil => exact .refl r
  | cons call calls ih => exact (grows_perform r call).trans (ih (r.perform call))

/-! ## Agreement -/

theorem Sound.idChars (hr : r.Sound) {id : String} (h : id ∈ r.ids) :
    id.toList ≠ [] ∧ ∀ c ∈ id.toList, c.isAlphanum = true ∨ c = '_' := by
  obtain ⟨e, he, rfl⟩ := List.mem_map.mp h
  have hid := (hr.entries e he).id
  rw [Text.isReferenceId, Bool.and_eq_true, List.all_eq_true] at hid
  refine ⟨by simpa using hid.1, fun c hc => ?_⟩
  have hchar := hid.2 c hc
  rwa [Text.isReferenceChar, Bool.or_eq_true, beq_iff_eq] at hchar

theorem Shaped.totalTokens (hs : r.Shaped) :
    r.summary.totalTokens = WidgetShorthand.total (r.entries.map (·.sample.shape.length)) := by
  have hlengths : r.items.map (·.shape.length) = r.entries.map (·.sample.shape.length) := by
    rw [Registry.entries, List.map_map]
    exact List.map_congr_left fun item hitem => congrArg List.length (hs item hitem)
  rw [← hlengths, WidgetShorthand.total, List.foldr_map]
  rfl

theorem mem_categories (r : Registry) {category : String} {n : Nat} :
    (category, n) ∈ r.summary.categories ↔ n = (r.byCategory category).length ∧ 0 < n := by
  have hcount : (r.entries.map (·.about.category)).count category =
      (r.byCategory category).length := by
    rw [List.count_eq_countP, List.countP_map, List.countP_eq_length_filter]
    rfl
  rw [← hcount]
  exact Text.mem_tally

theorem Sound.consistent (hr : r.Sound) (hs : r.Shaped) : r.Consistent where
  idChars _ h := hr.idChars h
  ids := hr.ids
  fingerprints := hr.fingerprints
  idTable id i := by
    rw [position?_eq_some hr.ids, Registry.ids, List.getElem?_map, Option.map_eq_some_iff]
  fingerprintTable fingerprint i := by
    rw [Registry.fingerprints, position?_eq_some hr.fingerprints, List.getElem?_map,
      Option.map_eq_some_iff]
  get := find?_eq_position? hr.ids
  lookup := find?_eq_position? hr.fingerprints
  checked e he := (hr.entries e he).check
  shapes := hs
  total := by
    rw [Registry.entries, List.length_map]
    rfl
  totalTokens := hs.totalTokens
  categories := Text.nodup_tally _
  categoryCounts _ _ := r.mem_categories
  countsTotal := by
    show WidgetShorthand.total ((Text.tally _).map (·.2)) = r.items.length
    rw [Text.total_tally, List.length_map, Registry.entries, List.length_map]

/-- Only a call that answers with ids changes anything. -/
theorem perform_of_not_ok {call : Registration} (h : ∀ ids, r.answer? call ≠ some (.ok ids)) :
    r.perform call = r := by
  rcases r.perform_cases call with hkept | ⟨w, id, rfl, hw⟩ | ⟨id, w, about, rfl, hw⟩ |
    ⟨b, ids, rfl, hb⟩
  · exact hkept
  · exact absurd (by rw [answer?, hw]; rfl) (h [id])
  · exact absurd (by rw [answer?, hw]; rfl) (h [id])
  · exact absurd (by rw [answer?, hb]; rfl) (h ids)

theorem perform_of_error {call : Registration} {error : LoadError}
    (h : r.answer? call = some (.error error)) : r.perform call = r :=
  perform_of_not_ok fun ids hids => by rw [h] at hids; cases hids

theorem perform_of_no_answer {call : Registration} (h : r.answer? call = none) :
    r.perform call = r :=
  perform_of_not_ok fun ids hids => by rw [h] at hids; cases hids

theorem answer?_of_contains {id : String} (w : Widget) (about : Description)
    (hid : Text.isReferenceId id = true) (h : r.contains id = true) :
    r.answer? (.registerAs id w about) = some (.error (.duplicateReferenceId id)) := by
  rw [answer?, registerAs, hid, if_neg (by decide), if_pos h]
  rfl

/-- A registry agrees with itself after any run of calls; the next call adds at its end at most, and
changes nothing at all when it is refused or has no number for an id. -/
theorem consistent_run (h : Reachable r) (calls : List Registration) :
    (r.run calls).Consistent ∧ ∀ call,
      (r.run calls).items <+: ((r.run calls).perform call).items ∧
      (∀ error, (r.run calls).answer? call = some (.error error) →
        (r.run calls).perform call = r.run calls) ∧
      ((r.run calls).answer? call = none → (r.run calls).perform call = r.run calls) :=
  have hrun := h.run calls
  ⟨hrun.sound.consistent hrun.shaped,
    fun call => ⟨(grows_perform _ call).items, fun _ => perform_of_error, perform_of_no_answer⟩⟩

/-- An id that was chosen by hand is not minted again, and a minted one is not given away. -/
theorem consistent_run_chosen :
    let calls := [.registerAs "w1" (Stock.leaf "Divider" []) .default,
      .register (Stock.icon "Icons.add")]
    let taken := .registerAs "w2" (Stock.leaf "Spacer" []) .default
    Reachable empty ∧ (empty.run calls).ids = ["w1", "w2"] ∧ (empty.run calls).Consistent ∧
      (empty.run calls).answer? taken = some (.error (.duplicateReferenceId "w2")) ∧
      (empty.run calls).perform taken = empty.run calls := by
  have hids : (empty.run [.registerAs "w1" (Stock.leaf "Divider" []) .default,
      .register (Stock.icon "Icons.add")]).ids = ["w1", "w2"] := by
    decide +kernel
  intro calls taken
  have hcontains : (empty.run calls).contains "w2" = true :=
    contains_iff.mpr (hids ▸ List.mem_cons_of_mem _ List.mem_cons_self)
  have htaken := answer?_of_contains (Stock.leaf "Spacer" []) .default (by decide) hcontains
  obtain ⟨hconsistent, hcall⟩ := consistent_run .empty calls
  exact ⟨.empty, hids, hconsistent, htaken, (hcall taken).2.1 _ htaken⟩

end Registry

end WidgetShorthand
