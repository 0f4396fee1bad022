import Mathlib.Data.List.Sort
import WidgetShorthand.Proofs.RecordReading
import WidgetShorthand.Proofs.TableLoading
import WidgetShorthand.Symbol.Json

/-!
# Saved tables

Tables are written as a list of all symbols, sorted by category and short form, and are loaded from
it again. The list has the symbols that the tables were loaded from, in another order; and since
loading does not depend on the order, nothing is refused and nothing is found elsewhere. No list of
symbols nests deeply, so the limit of the reader of JSON does not matter here.

In the sorted list each symbol stands strictly before the next, because short forms occur once in
their category. A list in a strict order is known from its elements, so what is written a second
time is the same list.
-/

namespace WidgetShorthand

open Json

/-! ## The order of symbols -/

/-- The place of a category in the order in which symbols are listed. -/
def Category.rank (category : Category) : Nat :=
  all.idxOf category

/-- The order by category and then by short form. -/
def Symbol.Before (s t : Symbol) : Prop :=
  s.category.rank < t.category.rank ∨ s.category = t.category ∧ s.short < t.short

theorem Symbol.Before.asymm {s t : Symbol} (h : s.Before t) : ¬ t.Before s := by
  rintro (hrank | ⟨hcategory, hshort⟩)
  · rcases h with hrank' | ⟨hcategory, _⟩
    · exact absurd hrank (Nat.not_lt_of_lt hrank')
    · rw [hcategory] at hrank
      exact absurd hrank (Nat.lt_irrefl _)
  · rcases h with hrank | ⟨_, hshort'⟩
    · rw [hcategory] at hrank
      exact absurd hrank (Nat.lt_irrefl _)
    · exact absurd hshort (String.lt_asymm hshort')

theorem Symbol.gives_ofJson? (symbol : Symbol) (levels : Nat) :
    Gives (Symbol.ofJson? levels symbol.toJson) (symbol.toJson.depth ≤ levels) symbol := by
  cases levels with
  | zero => exact gives_none not_depth_object_le
  | succ levels =>
      have hcategory : (name? levels (ofString symbol.category.name)).bind Category.ofName? =
          some symbol.category := by
        cases symbol.category <;> cases levels <;> rfl
      rw [ofJson?, toJson, fields?_record (by decide) rfl]
      simpa [hcategory] using gives_some symbol

namespace Table

variable {t : Table}

theorem mem_symbols {symbol : Symbol} : symbol ∈ t.symbols ↔
    symbol.category = t.category ∧ (symbol.long, symbol.short) ∈ t.pairs := by
  obtain ⟨category, long, short⟩ := symbol
  simp only [symbols, List.mem_map, List.mem_mergeSort, Prod.exists, Symbol.mk.injEq]
  constructor
  · rintro ⟨_, _, hmem, rfl, rfl, rfl⟩
    exact ⟨rfl, hmem⟩
  · rintro ⟨rfl, hmem⟩
    exact ⟨long, short, hmem, rfl, rfl, rfl⟩

/-- No short form occurs twice, so the sorted symbols are in strict order. -/
theorem Sound.pairwise_symbols (h : t.Sound) : t.symbols.Pairwise Symbol.Before := by
  let le (p q : String × String) : Bool := textLE p.2 q.2
  have hsorted : (t.pairs.mergeSort le).Pairwise fun p q => le p q = true :=
    List.pairwise_mergeSort (fun p q r => textLE_trans p.2 q.2 r.2)
      (fun p q => textLE_total p.2 q.2) _
  have hshorts : ((t.pairs.mergeSort le).map (·.2)).Nodup :=
    ((List.mergeSort_perm _ _).map _).nodup_iff.mpr h.shorts
  have hstrict := hsorted.imp₂ (T := fun p q : String × String => p.2 < q.2)
    (fun p q hle hne => String.not_le.mp fun hge => hne (eq_of_textLE hle (decide_eq_true hge)))
    (List.pairwise_map.mp hshorts)
  exact List.pairwise_map.mpr (hstrict.imp fun hlt => .inr ⟨rfl, hlt⟩)

end Table

/-! ## The list of all symbols -/

namespace Symbols

variable {s s' : Symbols} {symbols : List Symbol}

theorem Holds.mem_toList (h : s.Holds symbols) {symbol : Symbol} :
    symbol ∈ s.toList ↔ symbol ∈ symbols := by
  have htable : ∀ category,
      symbol ∈ (s.table category).symbols ↔ symbol.category = category ∧ symbol ∈ symbols := by
    intro category
    rw [Table.mem_symbols, h category]
    constructor
    · rintro ⟨rfl, hmem⟩
      exact ⟨rfl, mem_pairsOf.mp hmem⟩
    · rintro ⟨rfl, hmem⟩
      exact ⟨rfl, mem_pairsOf.mpr hmem⟩
  rw [toList, List.mem_flatMap]
  constructor
  · rintro ⟨category, _, hmem⟩
    exact ((htable category).mp hmem).2
  · intro hmem
    exact ⟨symbol.category, symbol.category.mem_all, (htable _).mpr ⟨rfl, hmem⟩⟩

theorem Holds.pairwise_toList (h : s.Holds symbols) (hs : s.Sound) :
    s.toList.Pairwise Symbol.Before := by
  rw [toList, List.pairwise_flatMap]
  refine ⟨fun category _ => (hs category).pairwise_symbols, ?_⟩
  have hcategories : Category.all.Pairwise fun a b => a.rank < b.rank := by decide
  refine hcategories.imp fun {a b} hrank x hx y hy => .inl ?_
  rw [(Table.mem_symbols.mp hx).1, (Table.mem_symbols.mp hy).1, h a, h b]
  exact hrank

theorem nodup_of_pairwise {xs : List Symbol} (h : xs.Pairwise Symbol.Before) : xs.Nodup := by
  refine h.imp fun hbefore heq => ?_
  rw [heq] at hbefore
  exact hbefore.asymm hbefore

/-- Lists in this order that have the same elements are equal. -/
theorem eq_of_mem_iff {xs ys : List Symbol} (hx : xs.Pairwise Symbol.Before)
    (hy : ys.Pairwise Symbol.Before) (h : ∀ symbol, symbol ∈ xs ↔ symbol ∈ ys) : xs = ys := by
  have hirrefl : Std.Irrefl Symbol.Before := ⟨fun _ h => h.asymm h⟩
  have hantisymm : Std.Antisymm Symbol.Before := ⟨fun _ _ h h' => absurd h' h.asymm⟩
  exact hx.eq_of_mem_iff hy h

theorem toList_perm (h : ofList symbols = .ok s) : s.toList.Perm symbols := by
  have hholds := holds_of_ofList h
  have hgiven : symbols.Nodup := by
    refine (exists_ofList_eq_ok.mp ⟨s, h⟩).distinct.imp fun hdistinct heq => ?_
    exact (hdistinct (congrArg Symbol.category heq)).1 (congrArg Symbol.short heq)
  have hlisted := nodup_of_pairwise (hholds.pairwise_toList (sound_of_ofList h))
  exact (List.perm_ext_iff_of_nodup hlisted hgiven).mpr fun _ => hholds.mem_toList

theorem Holds.size_table (h : s.Holds symbols) (category : Category) :
    (s.table category).size = symbols.countP (·.category = category) := by
  rw [h category, Table.size, pairsOf, List.length_map, List.countP_eq_length_filter]

/-! ## Files -/

theorem parse?_toText (s : Symbols) :
    (parse? s.toText).bind (listOfJson? nestingLimit) = some s.toList := by
  have hstorable : Storable s.toJson := by
    have hsymbol : ∀ symbol : Symbol, Storable symbol.toJson := by simp [Symbol.toJson]
    have hsymbols := storableItems_map hsymbol s.toList
    simp [toJson, hsymbols]
  have hdepth : (array (s.toList.map Symbol.toJson)).depth ≤ nestingLimit - 1 := by
    refine depth_array_le.mpr (itemsDepth_map_le.mpr fun symbol _ => ?_)
    simp [Symbol.toJson]
  have hsymbol : ∀ (symbol : Symbol) (levels : Nat),
      Gives (Symbol.ofJson? levels symbol.toJson) (True ∧ symbol.toJson.depth ≤ levels) symbol :=
    fun symbol levels => (symbol.gives_ofJson? levels).congr (and_iff_right trivial).symm
  have hread := (gives_list_map hsymbol s.toList (nestingLimit - 1)).eq_some
    ⟨fun _ _ => trivial, hdepth⟩
  rw [toText, parse?_prettyText hstorable]
  show listOfJson? (nestingLimit - 1 + 1) s.toJson = _
  rw [listOfJson?, toJson, fields?_record (by decide) rfl]
  simpa using hread

/-- The list of all symbols has every symbol once, in the order of categories and short forms. A
file with the tables can be loaded, and the loaded tables are of the same size, list the same
symbols and find the same forms. -/
theorem ofText_toText (h : ofList symbols = .ok s) :
    (s.toList.Perm symbols ∧ s.toList.Nodup ∧ s.toList.Pairwise Symbol.Before) ∧
    ∃ s', ofText s.toText = .ok s' ∧ s'.size = s.size ∧ s'.toList = s.toList ∧
      ∀ category, (s'.table category).size = (s.table category).size ∧
        (s'.table category).shortFor? = (s.table category).shortFor? ∧
        (s'.table category).longFor? = (s.table category).longFor? := by
  have hholds := holds_of_ofList h
  have hperm := toList_perm h
  have hsorted := hholds.pairwise_toList (sound_of_ofList h)
  -- Whatever was loaded once is loaded in any order.
  obtain ⟨s', hs'⟩ := exists_ofList_eq_ok.mpr ((exists_ofList_eq_ok.mp ⟨s, h⟩).perm hperm)
  have hholds' := holds_of_ofList hs'
  have hload : ofText s.toText = .ok s' := by
    rw [ofText, parse?_toText]
    exact hs'
  have hsize : ∀ category, (s'.table category).size = (s.table category).size := by
    intro category
    rw [hholds'.size_table, hholds.size_table, hperm.countP_eq]
  refine ⟨⟨hperm, nodup_of_pairwise hsorted, hsorted⟩, s', hload, ?_, ?_, fun category =>
    ⟨hsize category, lookups_of_perm h hs' hperm category⟩⟩
  · simp only [size, hsize]
  · exact eq_of_mem_iff (hholds'.pairwise_toList (sound_of_ofList hs')) hsorted fun _ =>
      hholds'.mem_toList

/-- The symbols come out by category and short form, and every character of a long form survives. -/
theorem ofText_toText_sorted :
    let symbols : List Symbol :=
      [⟨.literal, "\"\\\n\u0000é😀", "x"⟩, ⟨.type, "Text", "T"⟩, ⟨.property, "title", "T"⟩,
        ⟨.type, "Row", "R"⟩]
    ∃ s, ofList symbols = .ok s ∧
      s.toList = [⟨.type, "Row", "R"⟩, ⟨.type, "Text", "T"⟩, ⟨.property, "title", "T"⟩,
        ⟨.literal, "\"\\\n\u0000é😀", "x"⟩] ∧
      ∃ s', ofText s.toText = .ok s' ∧ s'.toList = s.toList ∧
        s'.literals.longFor? "x" = some "\"\\\n\u0000é😀" := by
  intro symbols
  have hloadable : Loadable symbols := by
    constructor
    · decide
    · decide
    · simp [symbols, Symbol.Distinct]
    · simp [symbols]
  obtain ⟨s, hs⟩ := exists_ofList_eq_ok.mpr hloadable
  obtain ⟨⟨hperm, _, hsorted⟩, s', hs', _, hlist, hlookups⟩ := ofText_toText hs
  refine ⟨s, hs, eq_of_mem_iff hsorted ?_ fun symbol => ?_, s', hs', hlist, ?_⟩
  · simp only [List.pairwise_cons, List.forall_mem_cons, List.not_mem_nil, false_imp_iff,
      implies_true, and_true, List.Pairwise.nil]
    exact ⟨⟨.inr ⟨rfl, by decide +kernel⟩, .inl (by decide), .inl (by decide)⟩,
      ⟨.inl (by decide), .inl (by decide)⟩, .inl (by decide)⟩
  · rw [hperm.mem_iff]
    simp only [symbols, List.mem_cons, List.not_mem_nil, or_false]
    grind
  · have hlong := (hlookups .literal).2.2
    show (s'.table .literal).longFor? "x" = _
    rw [hlong, longFor?_of_ofList hs]
    simp [symbols]

end Symbols

end WidgetShorthand
