import Mathlib.Data.List.Nodup
import WidgetShorthand.Proofs.Success
import WidgetShorthand.Symbol.Table

/-!
# Looking up symbols

Loading refuses a long form or a short form that is there already, so in a loaded table every form
belongs to one pair. A name that was abbreviated is then found again from its abbreviation, and this
is all that reading back needs to know about tables.
-/

namespace WidgetShorthand

/-- In a list whose keys are distinct, an element is found by its key. -/
theorem find?_key_of_mem {α : Type} {key : α → String} {xs : List α} (hn : (xs.map key).Nodup)
    {x : α} (hx : x ∈ xs) : xs.find? (key · == key x) = some x := by
  induction xs with
  | nil => cases hx
  | cons y ys ih =>
      rw [List.map_cons, List.nodup_cons] at hn
      rcases List.mem_cons.mp hx with rfl | hmem
      · simp
      · have hne : key y ≠ key x := fun h => hn.1 (h ▸ List.mem_map_of_mem hmem)
        rw [List.find?_cons_of_neg (by simpa using hne)]
        exact ih hn.2 hmem

/-- What loading makes sure of. -/
structure Table.Sound (t : Table) : Prop where
  longs : (t.pairs.map (·.1)).Nodup
  shorts : (t.pairs.map (·.2)).Nodup
  identifiers : ∀ p ∈ t.pairs, Text.isIdentifier p.2 = true

namespace Table

variable {t t' : Table} {long short : String}

theorem mem_of_shortFor? (h : t.shortFor? long = some short) : (long, short) ∈ t.pairs := by
  obtain ⟨p, hp, rfl⟩ := Option.map_eq_some_iff.mp h
  have hlong : p.1 = long := by simpa using List.find?_some hp
  rw [← hlong]
  exact List.mem_of_find?_eq_some hp

theorem mem_of_longFor? (h : t.longFor? short = some long) : (long, short) ∈ t.pairs := by
  obtain ⟨p, hp, rfl⟩ := Option.map_eq_some_iff.mp h
  have hshort : p.2 = short := by simpa using List.find?_some hp
  rw [← hshort]
  exact List.mem_of_find?_eq_some hp

theorem shortFor?_eq_some (ht : t.Sound) :
    t.shortFor? long = some short ↔ (long, short) ∈ t.pairs := by
  refine ⟨mem_of_shortFor?, fun h => ?_⟩
  rw [shortFor?, find?_key_of_mem ht.longs h]
  rfl

theorem longFor?_eq_some (ht : t.Sound) :
    t.longFor? short = some long ↔ (long, short) ∈ t.pairs := by
  refine ⟨mem_of_longFor?, fun h => ?_⟩
  rw [longFor?, find?_key_of_mem ht.shorts h]
  rfl

theorem longFor?_of_shortFor? (ht : t.Sound) (h : t.shortFor? long = some short) :
    t.longFor? short = some long :=
  (longFor?_eq_some ht).mpr (mem_of_shortFor? h)

theorem isIdentifier_of_shortFor? (ht : t.Sound) (h : t.shortFor? long = some short) :
    Text.isIdentifier short = true :=
  ht.identifiers _ (mem_of_shortFor? h)

theorem shortFor?_eq_none : t.shortFor? long = none ↔ long ∉ t.pairs.map (·.1) := by
  simp only [shortFor?, Option.map_eq_none_iff, List.find?_eq_none, beq_iff_eq, List.mem_map,
    not_exists, not_and]

theorem longFor?_eq_none : t.longFor? short = none ↔ short ∉ t.pairs.map (·.2) := by
  simp only [longFor?, Option.map_eq_none_iff, List.find?_eq_none, beq_iff_eq, List.mem_map,
    not_exists, not_and]

/-- What is added is well formed and has neither form in common with what is there. -/
theorem insert_eq_ok : t.insert long short = .ok t' ↔
    (Text.isIdentifier short = true ∧ long ≠ "" ∧ short ∉ t.pairs.map (·.2) ∧
      long ∉ t.pairs.map (·.1)) ∧ ⟨t.category, t.pairs ++ [(long, short)]⟩ = t' := by
  rw [← longFor?_eq_none, ← shortFor?_eq_none]
  unfold insert
  cases Text.isIdentifier short with
  | false => simp
  | true =>
      by_cases hlong : long = ""
      · simp [hlong]
      · cases t.longFor? short with
        | some existing => simp [hlong]
        | none => cases hshort : t.shortFor? long <;> simp [hlong]

theorem sound_empty (category : Category) : (empty category).Sound where
  longs := List.nodup_nil
  shorts := List.nodup_nil
  identifiers := nofun

theorem Sound.insert (ht : t.Sound) (h : t.insert long short = .ok t') : t'.Sound := by
  obtain ⟨⟨hid, _, hshort, hlong⟩, rfl⟩ := insert_eq_ok.mp h
  constructor
  · rw [List.map_append, List.map_singleton, ← List.concat_eq_append]
    exact ht.longs.concat hlong
  · rw [List.map_append, List.map_singleton, ← List.concat_eq_append]
    exact ht.shorts.concat hshort
  · rw [List.forall_mem_append, List.forall_mem_singleton]
    exact ⟨ht.identifiers, hid⟩

end Table

/-- All four tables are sound. -/
def Symbols.Sound (s : Symbols) : Prop :=
  ∀ category, (s.table category).Sound

namespace Symbols

theorem Sound.types {s : Symbols} (h : s.Sound) : s.types.Sound := h .type

theorem Sound.properties {s : Symbols} (h : s.Sound) : s.properties.Sound := h .property

theorem Sound.keywords {s : Symbols} (h : s.Sound) : s.keywords.Sound := h .keyword

theorem Sound.literals {s : Symbols} (h : s.Sound) : s.literals.Sound := h .literal

theorem sound_empty : empty.Sound := by
  intro category
  cases category <;> exact Table.sound_empty _

theorem table_setTable_self (s : Symbols) (t : Table) (category : Category) :
    (s.setTable t category).table category = t := by
  cases category <;> rfl

theorem table_setTable_of_ne (s : Symbols) (t : Table) {category other : Category}
    (h : other ≠ category) : (s.setTable t category).table other = s.table other := by
  cases category <;> cases other <;> first | rfl | exact absurd rfl h

theorem Sound.insert {s s' : Symbols} (hs : s.Sound) {symbol : Symbol}
    (h : s.insert symbol = .ok s') : s'.Sound := by
  obtain ⟨t, ht, rfl⟩ := map_eq_ok.mp h
  intro category
  by_cases hc : category = symbol.category
  · rw [hc, table_setTable_self]
    exact (hs symbol.category).insert ht
  · rw [table_setTable_of_ne s t hc]
    exact hs category

theorem sound_of_ofList {symbols : List Symbol} {s : Symbols} (h : ofList symbols = .ok s) :
    s.Sound := by
  obtain ⟨t, ht, h⟩ := bind_eq_ok.mp h
  obtain ⟨_, _, h⟩ := bind_eq_ok.mp h
  cases h
  exact foldlM_induction (fun _ _ _ hs h => hs.insert h) sound_empty ht

end Symbols

end WidgetShorthand
