import Mathlib.Data.List.Pairwise
import WidgetShorthand.Proofs.TableLookup

/-!
# What tables can be loaded from

Loading goes through the symbols one by one, compares each with those of its category that are there
already, and at the end looks at neighbours among the sorted short forms. What it accepts does not
depend on the order: each symbol is well formed, no two symbols of a category have a form in common,
and no short form begins with another one of its category.

That neighbours are enough is a fact about the order of texts. Between a text and a longer one that
begins with it there are only texts that begin with it, so if any short form begins with another
one, then the one right behind the shorter one does so too.
-/

namespace WidgetShorthand

/-! ## Neighbours in the order of texts -/

namespace Table

theorem textLE_trans (a b c : String) (h : textLE a b = true) (h' : textLE b c = true) :
    textLE a c = true :=
  decide_eq_true (String.le_trans (of_decide_eq_true h) (of_decide_eq_true h'))

theorem textLE_total (a b : String) : (textLE a b || textLE b a) = true := by
  rw [Bool.or_eq_true]
  exact (String.le_total a b).imp decide_eq_true decide_eq_true

theorem eq_of_textLE {a b : String} (h : textLE a b = true) (h' : textLE b a = true) : a = b :=
  String.le_antisymm (of_decide_eq_true h) (of_decide_eq_true h')

theorem textLE_of_isPrefix {a b : String} (h : a.toList <+: b.toList) : textLE a b = true :=
  decide_eq_true h.le

theorem not_textLE_nil (c : Char) (a : List Char) :
    textLE (String.ofList (c :: a)) (String.ofList []) = false := by
  refine decide_eq_false (not_not_intro ?_)
  show (String.ofList []).toList < (String.ofList (c :: a)).toList
  rw [String.toList_ofList, String.toList_ofList]
  exact List.nil_lt_cons c a

/-- The first characters decide, or they are equal and the others decide. -/
theorem textLE_cons {c d : Char} {a b : List Char}
    (h : textLE (String.ofList (c :: a)) (String.ofList (d :: b)) = true) :
    c.toNat < d.toNat ∨ c = d ∧ textLE (String.ofList a) (String.ofList b) = true := by
  have hle : ¬ (String.ofList (d :: b)).toList < (String.ofList (c :: a)).toList :=
    of_decide_eq_true h
  rw [String.toList_ofList, String.toList_ofList, List.cons_lt_cons_iff, not_or, not_and] at hle
  obtain ⟨hchar, hrest⟩ := hle
  rcases Nat.lt_trichotomy c.toNat d.toNat with hlt | heq | hgt
  · exact .inl hlt
  · have hcd : c = d := Char.toNat_inj.mp heq
    refine .inr ⟨hcd, decide_eq_true ?_⟩
    show ¬ (String.ofList b).toList < (String.ofList a).toList
    rw [String.toList_ofList, String.toList_ofList]
    exact hrest hcd.symm
  · exact absurd hgt hchar

theorem isPrefix_of_between_chars : ∀ {a b c : List Char},
    textLE (String.ofList a) (String.ofList b) = true →
      textLE (String.ofList b) (String.ofList c) = true → a <+: c → a <+: b
  | [], _, _, _, _, _ => List.nil_prefix
  | _ :: _, [], _, hab, _, _ => by
      rw [not_textLE_nil] at hab
      cases hab
  | _ :: _, _ :: _, [], _, hbc, _ => by
      rw [not_textLE_nil] at hbc
      cases hbc
  | x :: a, y :: b, z :: c, hab, hbc, h => by
      obtain ⟨hxz, h⟩ := List.cons_prefix_cons.mp h
      rcases textLE_cons hab with hxy | ⟨hxy, hab⟩
      · rcases textLE_cons hbc with hyz | ⟨hyz, _⟩
        · rw [hxz] at hxy
          omega
        · rw [hxz, hyz] at hxy
          omega
      · rcases textLE_cons hbc with hyz | ⟨_, hbc⟩
        · rw [← hxy, hxz] at hyz
          omega
        · exact List.cons_prefix_cons.mpr ⟨hxy, isPrefix_of_between_chars hab hbc h⟩

/-- What stands between a text and one that begins with it begins with it too. -/
theorem isPrefix_of_between {a b c : String} (hab : textLE a b = true) (hbc : textLE b c = true)
    (h : a.toList <+: c.toList) : a.toList <+: b.toList := by
  rw [← a.ofList_toList, ← b.ofList_toList] at hab
  rw [← b.ofList_toList, ← c.ofList_toList] at hbc
  exact isPrefix_of_between_chars hab hbc h

theorem findPrefix?_eq_none {shorts : List String}
    (hsorted : shorts.Pairwise fun a b => textLE a b = true) :
    findPrefix? shorts = none ↔ shorts.Pairwise fun a b => ¬ a.toList <+: b.toList := by
  induction shorts with
  | nil => simp [findPrefix?]
  | cons a rest ih =>
      cases rest with
      | nil => simp [findPrefix?]
      | cons b rest =>
          rw [List.pairwise_cons] at hsorted
          obtain ⟨hfirst, htail⟩ := hsorted
          have hrest := ih htail
          rw [findPrefix?]
          split
          · next hprefix =>
              rw [List.isPrefixOf_iff_prefix] at hprefix
              refine ⟨nofun, fun h => ?_⟩
              exact absurd hprefix ((List.pairwise_cons.mp h).1 b List.mem_cons_self)
          · next hprefix =>
              rw [List.isPrefixOf_iff_prefix] at hprefix
              rw [hrest, List.pairwise_cons (a := a)]
              refine ⟨fun h => ⟨fun c hc => ?_, h⟩, fun h => h.2⟩
              rcases List.mem_cons.mp hc with rfl | hc'
              · exact hprefix
              · have hbetween := (List.pairwise_cons.mp htail).1 c hc'
                exact mt (isPrefix_of_between (hfirst b List.mem_cons_self) hbetween) hprefix

variable {t t' : Table} {long short : String}

theorem mem_sortedShorts : short ∈ t.sortedShorts ↔ short ∈ t.pairs.map (·.2) :=
  List.mem_mergeSort

/-- Neighbours are looked at, and no two short forms begin with each other. -/
theorem checkPrefixes_eq_ok (h : (t.pairs.map (·.2)).Nodup) : t.checkPrefixes = .ok () ↔
    ∀ a ∈ t.pairs.map (·.2), ∀ b ∈ t.pairs.map (·.2), a ≠ b → ¬ a.toList <+: b.toList := by
  have hsorted : t.sortedShorts.Pairwise fun a b => textLE a b = true :=
    List.pairwise_mergeSort textLE_trans textLE_total _
  have hnodup : t.sortedShorts.Nodup := (List.mergeSort_perm _ _).nodup_iff.mpr h
  have hnone : t.checkPrefixes = .ok () ↔ findPrefix? t.sortedShorts = none := by
    unfold checkPrefixes
    cases findPrefix? t.sortedShorts with
    | none => exact ⟨fun _ => rfl, fun _ => rfl⟩
    | some found => exact ⟨nofun, nofun⟩
  rw [hnone, findPrefix?_eq_none hsorted]
  simp only [← mem_sortedShorts]
  constructor
  · intro hpairwise
    -- In sorted order the later one of two different forms is not the beginning of the earlier one.
    have hboth := (hpairwise.and (hsorted.and hnodup)).imp
      (S := fun a b => ¬ a.toList <+: b.toList ∧ ¬ b.toList <+: a.toList)
      fun ⟨hnot, hle, hne⟩ => ⟨hnot, fun h => hne (eq_of_textLE hle (textLE_of_isPrefix h))⟩
    have hsymm : Std.Symm fun a b : String => ¬ a.toList <+: b.toList ∧ ¬ b.toList <+: a.toList :=
      ⟨fun _ _ => And.symm⟩
    intro a ha b hb hne
    exact (hboth.forall ha hb hne).1
  · intro hall
    exact hnodup.imp_of_mem fun ha hb hne => hall _ ha _ hb hne

end Table

/-! ## Symbols one by one -/

theorem Category.mem_all (category : Category) : category ∈ Category.all := by
  cases category <;> simp [all]

/-- Two symbols of one category have no form in common. -/
def Symbol.Distinct (s t : Symbol) : Prop :=
  s.category = t.category → s.short ≠ t.short ∧ s.long ≠ t.long

theorem Symbol.Distinct.symm {s t : Symbol} (h : s.Distinct t) : t.Distinct s :=
  fun hcategory => (h hcategory.symm).imp Ne.symm Ne.symm

namespace Symbols

/-- The forms of the symbols of a category, in order. -/
def pairsOf (category : Category) (symbols : List Symbol) : List (String × String) :=
  (symbols.filter (·.category = category)).map fun symbol => (symbol.long, symbol.short)

/-- The tables hold these symbols. -/
def Holds (s : Symbols) (symbols : List Symbol) : Prop :=
  ∀ category, s.table category = ⟨category, pairsOf category symbols⟩

variable {s s' : Symbols} {symbol : Symbol} {symbols done : List Symbol} {category : Category}
  {long short : String}

theorem mem_pairsOf :
    (long, short) ∈ pairsOf category symbols ↔ ⟨category, long, short⟩ ∈ symbols := by
  simp only [pairsOf, List.mem_map, List.mem_filter, decide_eq_true_iff, Prod.mk.injEq]
  constructor
  · rintro ⟨symbol, ⟨hmem, rfl⟩, rfl, rfl⟩
    exact hmem
  · intro h
    exact ⟨_, ⟨h, rfl⟩, rfl, rfl⟩

theorem holds_empty : empty.Holds [] := by
  intro category
  cases category <;> rfl

/-- The forms in the table of a symbol's category are those of the symbols that are there. -/
theorem Holds.notMem_iff (h : s.Holds done) (symbol : Symbol) :
    (symbol.short ∉ (s.table symbol.category).pairs.map (·.2) ∧
      symbol.long ∉ (s.table symbol.category).pairs.map (·.1)) ↔
    ∀ t ∈ done, t.Distinct symbol := by
  simp only [h symbol.category, pairsOf, List.map_map, List.mem_map, List.mem_filter,
    decide_eq_true_iff, Function.comp_apply, not_exists, not_and, and_imp, Symbol.Distinct]
  constructor
  · rintro ⟨hshort, hlong⟩ t ht hcategory
    exact ⟨hshort t ht hcategory, hlong t ht hcategory⟩
  · intro hall
    exact ⟨fun t ht hcategory => (hall t ht hcategory).1, fun t ht hcategory =>
      (hall t ht hcategory).2⟩

/-- A symbol is taken in if it is well formed and has no form in common with those that are
there. -/
theorem Holds.insert_eq_ok (h : s.Holds done) : (∃ s', s.insert symbol = .ok s') ↔
    Text.isIdentifier symbol.short = true ∧ symbol.long ≠ "" ∧ ∀ t ∈ done, t.Distinct symbol := by
  rw [← h.notMem_iff symbol]
  constructor
  · rintro ⟨s', hs'⟩
    obtain ⟨t, ht, _⟩ := map_eq_ok.mp hs'
    exact (Table.insert_eq_ok.mp ht).1
  · intro hfits
    exact ⟨_, map_of_ok (Table.insert_eq_ok.mpr ⟨hfits, rfl⟩)⟩

theorem pairsOf_concat (symbols : List Symbol) (symbol : Symbol) :
    pairsOf symbol.category (symbols ++ [symbol]) =
      pairsOf symbol.category symbols ++ [(symbol.long, symbol.short)] := by
  simp [pairsOf]

theorem pairsOf_concat_of_ne (symbols : List Symbol) {symbol : Symbol}
    (h : category ≠ symbol.category) :
    pairsOf category (symbols ++ [symbol]) = pairsOf category symbols := by
  simp [pairsOf, Ne.symm h]

theorem Holds.insert (h : s.Holds done) (hs : s.insert symbol = .ok s') :
    s'.Holds (done ++ [symbol]) := by
  obtain ⟨t, ht, rfl⟩ := map_eq_ok.mp hs
  obtain ⟨_, rfl⟩ := Table.insert_eq_ok.mp ht
  intro category
  by_cases hc : category = symbol.category
  · rw [hc, table_setTable_self, pairsOf_concat, h symbol.category]
  · rw [table_setTable_of_ne _ _ hc, pairsOf_concat_of_ne _ hc]
    exact h category

theorem Holds.foldlM (h : s.Holds done) (hs : symbols.foldlM Symbols.insert s = .ok s') :
    s'.Holds (done ++ symbols) := by
  induction symbols generalizing s done with
  | nil =>
      cases hs
      rwa [List.append_nil]
  | cons symbol symbols ih =>
      obtain ⟨s₁, h₁, hrest⟩ := bind_eq_ok.mp hs
      rw [List.append_cons]
      exact ih (h.insert h₁) hrest

theorem Holds.foldlM_eq_ok (h : s.Holds done) : (∃ s', symbols.foldlM Symbols.insert s = .ok s') ↔
    (∀ t ∈ symbols, Text.isIdentifier t.short = true ∧ t.long ≠ "") ∧
      (∀ t ∈ done, ∀ u ∈ symbols, t.Distinct u) ∧ symbols.Pairwise Symbol.Distinct := by
  induction symbols generalizing s done with
  | nil => exact ⟨fun _ => ⟨nofun, fun _ _ => nofun, .nil⟩, fun _ => ⟨s, rfl⟩⟩
  | cons symbol symbols ih =>
      rw [List.foldlM_cons, List.forall_mem_cons, List.pairwise_cons]
      constructor
      · rintro ⟨s', hs'⟩
        obtain ⟨s₁, h₁, hrest⟩ := bind_eq_ok.mp hs'
        obtain ⟨hshort, hlong, hdone⟩ := h.insert_eq_ok.mp ⟨s₁, h₁⟩
        obtain ⟨hforms, hafter, hpairwise⟩ := (ih (h.insert h₁)).mp ⟨s', hrest⟩
        rw [List.forall_mem_append, List.forall_mem_singleton] at hafter
        refine ⟨⟨⟨hshort, hlong⟩, hforms⟩, fun t ht => ?_, hafter.2, hpairwise⟩
        exact List.forall_mem_cons.mpr ⟨hdone t ht, hafter.1 t ht⟩
      · rintro ⟨⟨⟨hshort, hlong⟩, hforms⟩, hdone, hfirst, hpairwise⟩
        have hdone' := fun t ht => List.forall_mem_cons.mp (hdone t ht)
        obtain ⟨s₁, h₁⟩ := h.insert_eq_ok.mpr ⟨hshort, hlong, fun t ht => (hdone' t ht).1⟩
        have hafter : ∀ t ∈ done ++ [symbol], ∀ u ∈ symbols, t.Distinct u := by
          rw [List.forall_mem_append, List.forall_mem_singleton]
          exact ⟨fun t ht => (hdone' t ht).2, hfirst⟩
        obtain ⟨s', hs'⟩ := (ih (h.insert h₁)).mpr ⟨hforms, hafter, hpairwise⟩
        exact ⟨s', (bind_of_ok h₁).trans hs'⟩

/-! ## All symbols -/

/-- What can be loaded. The order of the symbols does not matter. -/
structure Loadable (symbols : List Symbol) : Prop where
  shorts : ∀ s ∈ symbols, Text.isIdentifier s.short = true
  longs : ∀ s ∈ symbols, s.long ≠ ""
  distinct : symbols.Pairwise Symbol.Distinct
  prefixFree : ∀ s ∈ symbols, ∀ t ∈ symbols, s.category = t.category → s.short ≠ t.short →
    ¬ s.short.toList <+: t.short.toList

theorem Loadable.perm {reordered : List Symbol} (h : Loadable symbols)
    (hp : reordered.Perm symbols) : Loadable reordered where
  shorts s hs := h.shorts s (hp.subset hs)
  longs s hs := h.longs s (hp.subset hs)
  distinct := h.distinct.perm hp.symm Symbol.Distinct.symm
  prefixFree s hs t ht := h.prefixFree s (hp.subset hs) t (hp.subset ht)

theorem Holds.mem_shorts (h : s.Holds symbols) :
    short ∈ (s.table category).pairs.map (·.2) ↔
      ∃ t ∈ symbols, t.category = category ∧ t.short = short := by
  simp only [h category, pairsOf, List.map_map, List.mem_map, List.mem_filter, decide_eq_true_iff,
    Function.comp_apply, and_assoc]

theorem Holds.checkPrefixes_eq_ok (h : s.Holds symbols) (hs : s.Sound) :
    (∀ category, (s.table category).checkPrefixes = .ok ()) ↔
      ∀ t ∈ symbols, ∀ u ∈ symbols, t.category = u.category → t.short ≠ u.short →
        ¬ t.short.toList <+: u.short.toList := by
  simp only [Table.checkPrefixes_eq_ok (hs _).shorts, h.mem_shorts]
  constructor
  · intro hall t ht u hu hcategory
    exact hall u.category _ ⟨t, ht, hcategory, rfl⟩ _ ⟨u, hu, rfl, rfl⟩
  · rintro hall category _ ⟨t, ht, hcategory, rfl⟩ _ ⟨u, hu, rfl, rfl⟩
    exact hall t ht u hu hcategory

theorem ofList_eq_ok : ofList symbols = .ok s ↔
    symbols.foldlM Symbols.insert empty = .ok s ∧
      ∀ category, (s.table category).checkPrefixes = .ok () := by
  have hall : ∀ s : Symbols, (Category.all.forM fun category => (s.table category).checkPrefixes) =
      .ok () ↔ ∀ category, (s.table category).checkPrefixes = .ok () := by
    intro s
    rw [forM_eq_ok]
    exact ⟨fun h category => h category category.mem_all, fun h category _ => h category⟩
  constructor
  · intro h
    obtain ⟨s', hfold, hrest⟩ := bind_eq_ok.mp h
    obtain ⟨_, hchecks, hs⟩ := bind_eq_ok.mp hrest
    cases hs
    exact ⟨hfold, (hall s).mp hchecks⟩
  · rintro ⟨hfold, hchecks⟩
    exact (bind_of_ok hfold).trans (bind_of_ok ((hall s).mpr hchecks))

theorem holds_of_ofList (h : ofList symbols = .ok s) : s.Holds symbols :=
  holds_empty.foldlM (ofList_eq_ok.mp h).1

theorem exists_ofList_eq_ok : (∃ s, ofList symbols = .ok s) ↔ Loadable symbols := by
  constructor
  · rintro ⟨s, hs⟩
    obtain ⟨hfold, hchecks⟩ := ofList_eq_ok.mp hs
    obtain ⟨hforms, _, hdistinct⟩ := holds_empty.foldlM_eq_ok.mp ⟨s, hfold⟩
    have hfree := ((holds_of_ofList hs).checkPrefixes_eq_ok (sound_of_ofList hs)).mp hchecks
    exact ⟨fun t ht => (hforms t ht).1, fun t ht => (hforms t ht).2, hdistinct, hfree⟩
  · intro h
    have hforms := fun t ht => And.intro (h.shorts t ht) (h.longs t ht)
    obtain ⟨s, hfold⟩ := holds_empty.foldlM_eq_ok.mpr ⟨hforms, fun _ => nofun, h.distinct⟩
    have hsound : s.Sound := foldlM_induction (fun _ _ _ hs h => hs.insert h) sound_empty hfold
    have hchecks := ((holds_empty.foldlM hfold).checkPrefixes_eq_ok hsound).mpr h.prefixFree
    exact ⟨s, ofList_eq_ok.mpr ⟨hfold, hchecks⟩⟩

theorem shortFor?_of_ofList (h : ofList symbols = .ok s) :
    (s.table category).shortFor? long = some short ↔ ⟨category, long, short⟩ ∈ symbols := by
  rw [Table.shortFor?_eq_some (sound_of_ofList h category), holds_of_ofList h category, mem_pairsOf]

theorem longFor?_of_ofList (h : ofList symbols = .ok s) :
    (s.table category).longFor? short = some long ↔ ⟨category, long, short⟩ ∈ symbols := by
  rw [Table.longFor?_eq_some (sound_of_ofList h category), holds_of_ofList h category, mem_pairsOf]

/-- The order of the symbols makes no difference to what is found. -/
theorem lookups_of_perm {reordered : List Symbol} (h : ofList symbols = .ok s)
    (h' : ofList reordered = .ok s') (hp : reordered.Perm symbols) (category : Category) :
    (s'.table category).shortFor? = (s.table category).shortFor? ∧
      (s'.table category).longFor? = (s.table category).longFor? := by
  refine ⟨funext fun long => ?_, funext fun short => ?_⟩
  · ext short
    rw [shortFor?_of_ofList h', shortFor?_of_ofList h, hp.mem_iff]
  · ext long
    rw [longFor?_of_ofList h', longFor?_of_ofList h, hp.mem_iff]

/-- Exactly the loadable lists are loaded. Looking up a long form and looking up a short form are
inverse to each other, what is found is what is listed, and with the symbols in another order
loading succeeds as well and the same is found. -/
theorem ofList_accepts_exactly (symbols : List Symbol) :
    ((∃ s, ofList symbols = .ok s) ↔ Loadable symbols) ∧
    ∀ s, ofList symbols = .ok s →
      (∀ category long short,
        ((s.table category).shortFor? long = some short ↔
          (s.table category).longFor? short = some long) ∧
        ((s.table category).shortFor? long = some short ↔ ⟨category, long, short⟩ ∈ symbols)) ∧
      ∀ reordered : List Symbol, reordered.Perm symbols →
        ∃ s', ofList reordered = .ok s' ∧ ∀ category,
          (s'.table category).shortFor? = (s.table category).shortFor? ∧
          (s'.table category).longFor? = (s.table category).longFor? := by
  refine ⟨exists_ofList_eq_ok, fun s hs => ⟨fun category long short => ?_, fun reordered hp => ?_⟩⟩
  · rw [shortFor?_of_ofList hs, longFor?_of_ofList hs]
    exact ⟨Iff.rfl, Iff.rfl⟩
  · have hloadable : Loadable reordered := (exists_ofList_eq_ok.mp ⟨s, hs⟩).perm hp
    obtain ⟨s', hs'⟩ := exists_ofList_eq_ok.mpr hloadable
    exact ⟨s', hs', lookups_of_perm hs hs' hp⟩

/-- A type and a property may have the same short form. -/
theorem ofList_accepts_same_letter :
    let symbols : List Symbol :=
      [⟨.type, "Text", "T"⟩, ⟨.property, "title", "T"⟩, ⟨.type, "Row", "R"⟩]
    Loadable symbols ∧ ∃ s, ofList symbols = .ok s ∧
      s.types.shortFor? "Text" = some "T" ∧ s.types.longFor? "T" = some "Text" ∧
      s.properties.longFor? "T" = some "title" ∧
      ∃ s', ofList symbols.reverse = .ok s' ∧ s'.types.longFor? "T" = some "Text" := by
  intro symbols
  obtain ⟨haccepted, hfound⟩ := ofList_accepts_exactly symbols
  have hloadable : Loadable symbols := by
    constructor
    · decide
    · decide
    · simp [symbols, Symbol.Distinct]
    · simp [symbols]
  obtain ⟨s, hs⟩ := haccepted.mpr hloadable
  obtain ⟨hlisted, hreordered⟩ := hfound s hs
  have hshort : s.types.shortFor? "Text" = some "T" :=
    (hlisted .type "Text" "T").2.mpr (by simp [symbols])
  have hlong : s.types.longFor? "T" = some "Text" := (hlisted .type "Text" "T").1.mp hshort
  have htitle := (hlisted .property "title" "T").2.mpr (by simp [symbols])
  obtain ⟨s', hs', hsame⟩ := hreordered symbols.reverse symbols.reverse_perm
  refine ⟨hloadable, s, hs, hshort, hlong, (hlisted .property "title" "T").1.mp htitle, s', hs', ?_⟩
  exact (congrFun (hsame .type).2 "T").trans hlong

end Symbols

end WidgetShorthand
