import WidgetShorthand.Proofs.SlotValues
import WidgetShorthand.Tree.Token

/-!
# Widgets of one shape

A widget is its shape together with the scalars in its slots. The tokens of a shape are a prefix
code: every list ends with a token that begins no element of it, so whatever stands behind two
parts, equal texts of tokens have equal parts. Along the way the slots come out equal, in number,
place and order, and where equal scalars stand in them the widgets are equal.

The second half goes from fingerprints to shapes. What is hashed is the texts of the tokens with a
separator between each two of them; it gives back the tokens as long as the separator occurs in no
name. That different hashed texts have different fingerprints is an assumption about the widgets at
hand, which `Discernible` puts next to the one about names.
-/

namespace WidgetShorthand

/-- The same slots, and no difference but in what stands in them. -/
structure Alike (v v' : Value) : Prop where
  slots : v.slots = v'.slots
  eq : (∀ q, v.scalarAt? q = v'.scalarAt? q) → v = v'

structure AlikeProperties (ps ps' : List Property) : Prop where
  slots : ∀ n, propertySlots n ps = propertySlots n ps'
  eq : (∀ (i : Nat) key v v', ps[i]? = some ⟨key, v⟩ → ps'[i]? = some ⟨key, v'⟩ →
    ∀ q, v.scalarAt? q = v'.scalarAt? q) → ps = ps'

structure AlikeChildren (cs cs' : List Widget) : Prop where
  slots : ∀ n, childSlots n cs = childSlots n cs'
  eq : (∀ (i : Nat) c c', cs[i]? = some c → cs'[i]? = some c' →
    ∀ q, (Value.widget c).scalarAt? q = (Value.widget c').scalarAt? q) → cs = cs'

structure AlikeItems (vs vs' : List Value) : Prop where
  slots : ∀ n, itemSlots n vs = itemSlots n vs'
  eq : (∀ (i : Nat) v v', vs[i]? = some v → vs'[i]? = some v' →
    ∀ q, v.scalarAt? q = v'.scalarAt? q) → vs = vs'

/-! ## One node at a time -/

theorem Alike.scalar (s s' : Scalar) : Alike (.scalar s) (.scalar s') where
  slots := rfl
  eq := by
    intro h
    have hs := h []
    simp only [scalarAt?_scalar_nil, Option.some.injEq] at hs
    rw [hs]

theorem Alike.widget {t : String} {ps ps' : List Property} {cs cs' : List Widget}
    (hps : AlikeProperties ps ps') (hcs : AlikeChildren cs cs') :
    Alike (.widget ⟨t, ps, cs⟩) (.widget ⟨t, ps', cs'⟩) where
  slots := by
    rw [Value.slots, Value.slots, Widget.slots, Widget.slots, hps.slots, hcs.slots]
  eq := by
    intro h
    have hproperties : ps = ps' := by
      refine hps.eq fun i key v v' hv hv' q => ?_
      have hq := h (.property i key :: q)
      have hat := propertyAt?_eq_some (w := ⟨t, ps, cs⟩).mpr hv
      have hat' := propertyAt?_eq_some (w := ⟨t, ps', cs'⟩).mpr hv'
      rwa [scalarAt?_widget_property, scalarAt?_widget_property, hat, hat', Option.bind_some,
        Option.bind_some] at hq
    have hchildren : cs = cs' := by
      refine hcs.eq fun i c c' hc hc' q => ?_
      have hq := h (.child i :: q)
      rwa [scalarAt?_widget_child, scalarAt?_widget_child, hc, hc', Option.bind_some,
        Option.bind_some] at hq
    rw [hproperties, hchildren]

theorem Alike.list {vs vs' : List Value} (h : AlikeItems vs vs') :
    Alike (.list vs) (.list vs') where
  slots := by rw [Value.slots, Value.slots, h.slots]
  eq := by
    intro hat
    have hitems : vs = vs' := by
      refine h.eq fun i v v' hv hv' q => ?_
      have hq := hat (.item i :: q)
      rwa [scalarAt?_list_item, scalarAt?_list_item, hv, hv', Option.bind_some,
        Option.bind_some] at hq
    rw [hitems]

theorem AlikeProperties.cons {key : String} {v v' : Value} {ps ps' : List Property}
    (hv : Alike v v') (hps : AlikeProperties ps ps') :
    AlikeProperties (⟨key, v⟩ :: ps) (⟨key, v'⟩ :: ps') where
  slots n := by rw [propertySlots, propertySlots, hv.slots, hps.slots]
  eq h := by
    have hvalue := hv.eq (h 0 key v v' rfl rfl)
    have hrest := hps.eq fun i k u u' hu hu' => h (i + 1) k u u' hu hu'
    rw [hvalue, hrest]

theorem AlikeChildren.cons {c c' : Widget} {cs cs' : List Widget}
    (hc : Alike (.widget c) (.widget c')) (hcs : AlikeChildren cs cs') :
    AlikeChildren (c :: cs) (c' :: cs') where
  slots n := by
    have hslots : c.slots = c'.slots := hc.slots
    rw [childSlots, childSlots, hslots, hcs.slots]
  eq h := by
    have hchild := Value.widget.inj (hc.eq (h 0 c c' rfl rfl))
    have hrest := hcs.eq fun i u u' hu hu' => h (i + 1) u u' hu hu'
    rw [hchild, hrest]

theorem AlikeItems.cons {v v' : Value} {vs vs' : List Value} (hv : Alike v v')
    (hvs : AlikeItems vs vs') : AlikeItems (v :: vs) (v' :: vs') where
  slots n := by rw [itemSlots, itemSlots, hv.slots, hvs.slots]
  eq h := by
    have hvalue := hv.eq (h 0 v v' rfl rfl)
    have hrest := hvs.eq fun i u u' hu hu' => h (i + 1) u u' hu hu'
    rw [hvalue, hrest]

/-! ## Shapes are a prefix code -/

theorem value_ne_closeParams {v : Value} {r r' : List Token}
    (h : v.tokens .shape ++ r = .closeParams :: r') : False := by
  cases v with
  | scalar s => cases h
  | widget w => cases w; cases h
  | list vs => cases h

mutual

theorem widget_alike : (w w' : Widget) → {r r' : List Token} →
    w.tokens .shape ++ r = w'.tokens .shape ++ r' → Alike (.widget w) (.widget w') ∧ r = r'
  | ⟨t, ps, cs⟩, ⟨t', ps', cs'⟩, r, r', h => by
      simp only [Widget.tokens, List.cons_append, List.append_assoc, List.nil_append,
        List.cons.injEq, Token.widgetType.injEq, true_and] at h
      obtain ⟨rfl, h⟩ := h
      obtain ⟨hps, h⟩ := properties_alike ps ps' h
      rw [List.cons.injEq] at h
      obtain ⟨hcs, h⟩ := children_alike cs cs' h.2
      exact ⟨.widget hps hcs, h⟩

theorem properties_alike : (ps ps' : List Property) → {r r' : List Token} →
    propertyTokens .shape ps ++ .closeProperties :: r =
      propertyTokens .shape ps' ++ .closeProperties :: r' → AlikeProperties ps ps' ∧ r = r'
  | [], [], r, r', h => ⟨⟨fun _ => rfl, fun _ => rfl⟩, (List.cons.inj h).2⟩
  | [], ⟨_, _⟩ :: _, r, r', h => by cases h
  | ⟨_, _⟩ :: _, [], r, r', h => by cases h
  | ⟨k, v⟩ :: ps, ⟨k', v'⟩ :: ps', r, r', h => by
      simp only [propertyTokens, List.cons_append, List.append_assoc, List.cons.injEq,
        Token.key.injEq] at h
      obtain ⟨rfl, h⟩ := h
      obtain ⟨hv, h⟩ := value_alike v v' h
      obtain ⟨hps, h⟩ := properties_alike ps ps' h
      exact ⟨.cons hv hps, h⟩

theorem children_alike : (cs cs' : List Widget) → {r r' : List Token} →
    childTokens .shape cs ++ .closeChildren :: r =
      childTokens .shape cs' ++ .closeChildren :: r' → AlikeChildren cs cs' ∧ r = r'
  | [], [], r, r', h => ⟨⟨fun _ => rfl, fun _ => rfl⟩, (List.cons.inj h).2⟩
  | [], ⟨_, _, _⟩ :: _, r, r', h => by cases h
  | ⟨_, _, _⟩ :: _, [], r, r', h => by cases h
  | c :: cs, c' :: cs', r, r', h => by
      simp only [childTokens, List.append_assoc] at h
      obtain ⟨hc, h⟩ := widget_alike c c' h
      obtain ⟨hcs, h⟩ := children_alike cs cs' h
      exact ⟨.cons hc hcs, h⟩

theorem value_alike : (v v' : Value) → {r r' : List Token} →
    v.tokens .shape ++ r = v'.tokens .shape ++ r' → Alike v v' ∧ r = r'
  | .scalar s, .scalar s', r, r', h => ⟨.scalar s s', (List.cons.inj h).2⟩
  | .widget w, .widget w', r, r', h => by
      rw [Value.tokens, Value.tokens] at h
      exact widget_alike w w' h
  | .list vs, .list vs', r, r', h => by
      simp only [Value.tokens, List.cons_append, List.append_assoc, List.nil_append,
        List.cons.injEq, true_and] at h
      obtain ⟨hvs, h⟩ := items_alike vs vs' h
      exact ⟨.list hvs, h⟩
  | .scalar _, .widget ⟨_, _, _⟩, r, r', h => by cases h
  | .scalar _, .list _, r, r', h => by cases h
  | .widget ⟨_, _, _⟩, .scalar _, r, r', h => by cases h
  | .widget ⟨_, _, _⟩, .list _, r, r', h => by cases h
  | .list _, .scalar _, r, r', h => by cases h
  | .list _, .widget ⟨_, _, _⟩, r, r', h => by cases h

theorem items_alike : (vs vs' : List Value) → {r r' : List Token} →
    itemTokens .shape vs ++ .closeParams :: r = itemTokens .shape vs' ++ .closeParams :: r' →
      AlikeItems vs vs' ∧ r = r'
  | [], [], r, r', h => ⟨⟨fun _ => rfl, fun _ => rfl⟩, (List.cons.inj h).2⟩
  | [], _ :: _, r, r', h => by
      simp only [itemTokens, List.nil_append, List.append_assoc] at h
      exact (value_ne_closeParams h.symm).elim
  | _ :: _, [], r, r', h => by
      simp only [itemTokens, List.nil_append, List.append_assoc] at h
      exact (value_ne_closeParams h).elim
  | v :: vs, v' :: vs', r, r', h => by
      simp only [itemTokens, List.append_assoc] at h
      obtain ⟨hv, h⟩ := value_alike v v' h
      obtain ⟨hvs, h⟩ := items_alike vs vs' h
      exact ⟨.cons hv hvs, h⟩

end

/-- Equal shapes have equal slots, in the same order. -/
theorem Widget.slots_eq_of_shape {w w' : Widget} (h : w.shape = w'.shape) : w.slots = w'.slots :=
  (widget_alike w w' (congrArg (· ++ []) h)).1.slots

/-- A shape and the scalars in its slots determine a widget. -/
theorem Widget.eq_of_shape {w w' : Widget} (h : w.shape = w'.shape)
    (hs : ∀ q, w.scalarAt? q = w'.scalarAt? q) : w = w' := by
  have halike := (widget_alike w w' (congrArg (· ++ []) h)).1
  refine Value.widget.inj (halike.eq fun q => ?_)
  rw [← w.scalarAt?_eq, ← w'.scalarAt?_eq]
  exact hs q

/-! ## From the hashed text to the shape -/

/-- The tokens that shapes are made of. -/
def Token.isForm : Token → Bool
  | .slot | .widgetType _ | .key _ | .openParams | .closeParams | .openProperties
  | .closeProperties | .openChildren | .closeChildren => true
  | _ => false

/-- The name that a token of a shape spells. -/
def Token.name? : Token → Option String
  | .widgetType name | .key name => some name
  | _ => none

/-- The type names and the property keys in a widget. -/
def Widget.names (w : Widget) : List String :=
  w.shape.filterMap Token.name?

/-- The text that a widget's fingerprint is the hash of. -/
def Widget.hashedText (w : Widget) : String :=
  joinTokens w.shape

mutual

theorem isForm_of_mem_widget : (w : Widget) → ∀ t ∈ w.tokens .shape, t.isForm = true
  | ⟨name, ps, cs⟩, t, ht => by
      have hps := isForm_of_mem_properties ps
      have hcs := isForm_of_mem_children cs
      simp only [Widget.tokens, List.mem_cons, List.mem_append, List.not_mem_nil, or_false] at ht
      rcases ht with rfl | rfl | ht | rfl | rfl | ht | rfl
      · rfl
      · rfl
      · exact hps t ht
      · rfl
      · rfl
      · exact hcs t ht
      · rfl

theorem isForm_of_mem_properties :
    (ps : List Property) → ∀ t ∈ propertyTokens .shape ps, t.isForm = true
  | [], t, ht => by cases ht
  | ⟨key, v⟩ :: ps, t, ht => by
      simp only [propertyTokens, List.mem_cons, List.mem_append] at ht
      rcases ht with rfl | ht | ht
      · rfl
      · exact isForm_of_mem_value v t ht
      · exact isForm_of_mem_properties ps t ht

theorem isForm_of_mem_children :
    (cs : List Widget) → ∀ t ∈ childTokens .shape cs, t.isForm = true
  | [], t, ht => by cases ht
  | c :: cs, t, ht => by
      rcases List.mem_append.mp ht with ht | ht
      · exact isForm_of_mem_widget c t ht
      · exact isForm_of_mem_children cs t ht

theorem isForm_of_mem_value : (v : Value) → ∀ t ∈ v.tokens .shape, t.isForm = true
  | .scalar s, t, ht => by cases List.mem_singleton.mp ht; rfl
  | .widget w, t, ht => isForm_of_mem_widget w t ht
  | .list vs, t, ht => by
      simp only [Value.tokens, List.mem_cons, List.mem_append, List.not_mem_nil, or_false] at ht
      rcases ht with rfl | ht | rfl
      · rfl
      · exact isForm_of_mem_items vs t ht
      · rfl

theorem isForm_of_mem_items : (vs : List Value) → ∀ t ∈ itemTokens .shape vs, t.isForm = true
  | [], t, ht => by cases ht
  | v :: vs, t, ht => by
      rcases List.mem_append.mp ht with ht | ht
      · exact isForm_of_mem_value v t ht
      · exact isForm_of_mem_items vs t ht

end

/-- The token of a shape with a text. -/
def Token.ofText (text : String) : Token :=
  match text.toList with
  | 'T' :: ':' :: name => .widgetType (String.ofList name)
  | 'K' :: ':' :: name => .key (String.ofList name)
  | ['('] => .openParams
  | [')'] => .closeParams
  | ['\x7b'] => .openProperties
  | ['\x7d'] => .closeProperties
  | ['['] => .openChildren
  | [']'] => .closeChildren
  | _ => .slot

theorem Token.ofText_text {t : Token} (h : t.isForm = true) : Token.ofText t.text = t := by
  cases t <;> first | exact absurd h Bool.false_ne_true | simp [Token.ofText, Token.text]

/-- The separator as a character. -/
def separator : Char :=
  '\x1f'

theorem separator_notMem_text {t : Token} (h : t.isForm = true)
    (hname : ∀ name, t.name? = some name → separator ∉ name.toList) :
    separator ∉ t.text.toList := by
  cases t with
  | widgetType name => simpa [Token.text, separator] using hname name rfl
  | key name => simpa [Token.text, separator] using hname name rfl
  | _ => first | exact absurd h Bool.false_ne_true | simp [Token.text, separator]

/-- The tokens are found again between the separators. -/
theorem splitOn_joinTokens {tokens : List Token} (hne : tokens ≠ [])
    (h : ∀ t ∈ tokens, separator ∉ t.text.toList) :
    (joinTokens tokens).toList.splitOn separator = tokens.map fun t => t.text.toList := by
  rw [joinTokens, String.toList_intercalate, List.map_map]
  refine List.splitOn_intercalate separator ?_ (by simpa using hne)
  intro l hl
  obtain ⟨t, ht, rfl⟩ := List.mem_map.mp hl
  exact h t ht

theorem Widget.shape_ne_nil (w : Widget) : w.shape ≠ [] := by
  cases w
  simp [Widget.shape, Widget.tokens]

theorem Widget.shape_eq_of_hashedText {w w' : Widget}
    (hw : ∀ name ∈ w.names, separator ∉ name.toList)
    (hw' : ∀ name ∈ w'.names, separator ∉ name.toList) (h : w.hashedText = w'.hashedText) :
    w.shape = w'.shape := by
  have hfree : ∀ {w : Widget}, (∀ name ∈ w.names, separator ∉ name.toList) →
      ∀ t ∈ w.shape, separator ∉ t.text.toList := by
    intro w hw t ht
    refine separator_notMem_text (isForm_of_mem_widget w t ht) fun name hname => ?_
    exact hw name (List.mem_filterMap.mpr ⟨t, ht, hname⟩)
  have hread : ∀ w : Widget, (w.shape.map fun t => t.text.toList).map
      (Token.ofText ∘ String.ofList) = w.shape := by
    intro w
    rw [List.map_map]
    refine (List.map_congr_left fun t ht => ?_).trans (List.map_id _)
    rw [Function.comp_apply, Function.comp_apply, String.ofList_toList,
      Token.ofText_text (isForm_of_mem_widget w t ht), id]
  have hsplit := congrArg (fun text => text.toList.splitOn separator) h
  simp only [hashedText] at hsplit
  rw [splitOn_joinTokens w.shape_ne_nil (hfree hw), splitOn_joinTokens w'.shape_ne_nil (hfree hw')]
    at hsplit
  rw [← hread w, ← hread w', hsplit]

/-- Widgets whose fingerprints tell their shapes apart: the separator occurs in none of their names,
and no two of their hashed texts collide. -/
structure Discernible (ws : List Widget) : Prop where
  names : ∀ w ∈ ws, ∀ name ∈ w.names, separator ∉ name.toList
  texts : ∀ w ∈ ws, ∀ w' ∈ ws, fingerprintText w.hashedText = fingerprintText w'.hashedText →
    w.hashedText = w'.hashedText

theorem Discernible.shape_eq {ws : List Widget} (h : Discernible ws) {w w' : Widget} (hw : w ∈ ws)
    (hw' : w' ∈ ws) (hf : w.fingerprint = w'.fingerprint) : w.shape = w'.shape :=
  w.shape_eq_of_hashedText (h.names w hw) (h.names w' hw') (h.texts w hw w' hw' hf)

end WidgetShorthand
