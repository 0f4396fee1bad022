import WidgetShorthand.Tree.Slot
import WidgetShorthand.Tree.Token

/-!
# What stands in the slots

The slots of a widget are exactly the paths that lead to scalars, and putting a scalar into a slot
changes nothing but what this one path leads to. Both go by induction on the path, with one lemma
for each of the three kinds of lists that a step can enter.
-/

namespace WidgetShorthand

/-- The scalar that a path leads to. -/
def Value.scalarAt? (path : SlotPath) (v : Value) : Option Scalar :=
  (v.at? path).bind Value.scalar?

def Widget.scalarAt? (w : Widget) (path : SlotPath) : Option Scalar :=
  (w.at? path).bind Value.scalar?

variable {s s' : Scalar} {w : Widget} {v v' : Value} {vs : List Value} {i : Nat} {key : String}
  {path q : SlotPath}

/-! ## One step -/

@[simp] theorem scalarAt?_scalar_nil : (Value.scalar s).scalarAt? [] = some s := rfl

@[simp] theorem scalarAt?_scalar_cons {step : Step} :
    (Value.scalar s).scalarAt? (step :: path) = none := by
  cases step with
  | property i key => rfl
  | item i => rfl
  | child i => cases path <;> rfl

@[simp] theorem scalarAt?_widget_nil : (Value.widget w).scalarAt? [] = none := rfl

@[simp] theorem scalarAt?_list_nil : (Value.list vs).scalarAt? [] = none := rfl

@[simp] theorem scalarAt?_widget_property :
    (Value.widget w).scalarAt? (.property i key :: path) =
      (w.propertyAt? i key).bind (Value.scalarAt? path) := by
  rw [Value.scalarAt?, Value.at?, Option.bind_assoc]
  rfl

@[simp] theorem scalarAt?_widget_child :
    (Value.widget w).scalarAt? (.child i :: path) =
      w.children[i]?.bind fun c => (Value.widget c).scalarAt? path := by
  cases path with
  | nil => cases w.children[i]? <;> rfl
  | cons step rest =>
      rw [Value.scalarAt?, Value.at?, Option.bind_assoc]
      rfl

@[simp] theorem scalarAt?_widget_item :
    (Value.widget w).scalarAt? (.item i :: path) = none := rfl

@[simp] theorem scalarAt?_list_item :
    (Value.list vs).scalarAt? (.item i :: path) = vs[i]?.bind (Value.scalarAt? path) := by
  rw [Value.scalarAt?, Value.at?, Option.bind_assoc]
  rfl

@[simp] theorem scalarAt?_list_property :
    (Value.list vs).scalarAt? (.property i key :: path) = none := rfl

@[simp] theorem scalarAt?_list_child : (Value.list vs).scalarAt? (.child i :: path) = none := by
  cases path <;> rfl

theorem Widget.scalarAt?_eq (w : Widget) (path : SlotPath) :
    w.scalarAt? path = (Value.widget w).scalarAt? path := by
  cases path <;> rfl

theorem propertyAt?_eq_some :
    w.propertyAt? i key = some v ↔ w.properties[i]? = some ⟨key, v⟩ := by
  unfold Widget.propertyAt?
  cases h : w.properties[i]? with
  | none => simp
  | some p =>
      obtain ⟨k, u⟩ := p
      by_cases hk : k = key <;> simp [hk]

/-! ## Lists of parts

Properties, children and items are numbered in the same way, and only the steps that lead to them
differ. So the slots of any list of parts are described once. -/

section Parts

variable {α : Type} {step : Nat → α → Step} {slots : α → List SlotPath} {xs : List α} {n : Nat}

/-- The slots of parts that are numbered from `n` on. -/
def slotsFrom (step : Nat → α → Step) (slots : α → List SlotPath) : Nat → List α → List SlotPath
  | _, [] => []
  | n, x :: xs => (slots x).map (step n x :: ·) ++ slotsFrom step slots (n + 1) xs

theorem propertySlots_eq (n : Nat) (ps : List Property) :
    propertySlots n ps = slotsFrom (fun i p => .property i p.key) (·.value.slots) n ps := by
  induction ps generalizing n with
  | nil => rfl
  | cons p ps ih =>
      obtain ⟨key, v⟩ := p
      rw [propertySlots, slotsFrom, ih]

theorem childSlots_eq (n : Nat) (cs : List Widget) :
    childSlots n cs = slotsFrom (fun i _ => .child i) Widget.slots n cs := by
  induction cs generalizing n with
  | nil => rfl
  | cons c cs ih => rw [childSlots, slotsFrom, ih]

theorem itemSlots_eq (n : Nat) (vs : List Value) :
    itemSlots n vs = slotsFrom (fun i _ => .item i) Value.slots n vs := by
  induction vs generalizing n with
  | nil => rfl
  | cons v vs ih => rw [itemSlots, slotsFrom, ih]

theorem mem_slotsFrom : path ∈ slotsFrom step slots n xs ↔
    ∃ i x q, xs[i]? = some x ∧ q ∈ slots x ∧ path = step (n + i) x :: q := by
  induction xs generalizing n with
  | nil => simp [slotsFrom]
  | cons x xs ih =>
      rw [slotsFrom, List.mem_append, List.mem_map, ih]
      constructor
      · rintro (⟨q, hq, rfl⟩ | ⟨i, y, q, hy, hq, rfl⟩)
        · exact ⟨0, x, q, rfl, hq, rfl⟩
        · exact ⟨i + 1, y, q, hy, hq, by rw [Nat.add_assoc, Nat.add_comm 1]⟩
      · rintro ⟨i, y, q, hy, hq, rfl⟩
        cases i with
        | zero => cases hy; exact .inl ⟨q, hq, rfl⟩
        | succ i => exact .inr ⟨i, y, q, hy, hq, by rw [Nat.add_assoc, Nat.add_comm 1]⟩

end Parts

/-! ## The slots are the paths to scalars -/

theorem mem_propertySlots {ps : List Property} {n : Nat} :
    path ∈ propertySlots n ps ↔
      ∃ i key v q, ps[i]? = some ⟨key, v⟩ ∧ q ∈ v.slots ∧ path = .property (n + i) key :: q := by
  rw [propertySlots_eq, mem_slotsFrom]
  constructor
  · rintro ⟨i, ⟨key, v⟩, q, hp, hq, rfl⟩
    exact ⟨i, key, v, q, hp, hq, rfl⟩
  · rintro ⟨i, key, v, q, hp, hq, rfl⟩
    exact ⟨i, ⟨key, v⟩, q, hp, hq, rfl⟩

theorem mem_childSlots {cs : List Widget} {n : Nat} :
    path ∈ childSlots n cs ↔
      ∃ i c q, cs[i]? = some c ∧ q ∈ c.slots ∧ path = .child (n + i) :: q := by
  rw [childSlots_eq, mem_slotsFrom]

theorem mem_itemSlots {n : Nat} :
    path ∈ itemSlots n vs ↔
      ∃ i v q, vs[i]? = some v ∧ q ∈ v.slots ∧ path = .item (n + i) :: q := by
  rw [itemSlots_eq, mem_slotsFrom]

theorem mem_slots_widget : path ∈ w.slots ↔
    (∃ i key v q, w.properties[i]? = some ⟨key, v⟩ ∧ q ∈ v.slots ∧ path = .property i key :: q) ∨
      ∃ i c q, w.children[i]? = some c ∧ q ∈ c.slots ∧ path = .child i :: q := by
  obtain ⟨t, ps, cs⟩ := w
  rw [Widget.slots, List.mem_append, mem_propertySlots, mem_childSlots]
  simp only [Nat.zero_add]

theorem nil_notMem_slots_widget : ([] : SlotPath) ∉ w.slots := by
  intro h
  rcases mem_slots_widget.mp h with ⟨_, _, _, _, _, _, h⟩ | ⟨_, _, _, _, _, h⟩ <;> cases h

theorem Value.mem_slots : path ∈ v.slots ↔ ∃ s, v.scalarAt? path = some s := by
  induction path generalizing v with
  | nil =>
      cases v with
      | scalar s => simp [Value.slots]
      | widget w => simpa [Value.slots] using nil_notMem_slots_widget
      | list vs => simp [Value.slots, mem_itemSlots]
  | cons step rest ih =>
      cases v with
      | scalar s => simp [Value.slots]
      | widget w =>
          have hchild : ∀ c : Widget,
              rest ∈ c.slots ↔ ∃ s, (Value.widget c).scalarAt? rest = some s :=
            fun c => ih (v := .widget c)
          rw [Value.slots, mem_slots_widget]
          cases step with
          | property i key =>
              simp only [scalarAt?_widget_property, Option.bind_eq_some_iff, propertyAt?_eq_some]
              grind
          | child i =>
              simp only [scalarAt?_widget_child, Option.bind_eq_some_iff]
              grind
          | item i => simp
      | list vs =>
          rw [Value.slots, mem_itemSlots]
          cases step with
          | property i key => simp
          | child i => simp
          | item i =>
              simp only [scalarAt?_list_item, Option.bind_eq_some_iff, Nat.zero_add]
              grind

theorem Widget.mem_slots : path ∈ w.slots ↔ ∃ s, w.scalarAt? path = some s := by
  rw [w.scalarAt?_eq]
  exact Value.mem_slots (v := .widget w)

theorem Widget.scalarAt?_eq_none (h : path ∉ w.slots) : w.scalarAt? path = none := by
  rw [Option.eq_none_iff_forall_ne_some]
  exact fun s hs => h (Widget.mem_slots.mpr ⟨s, hs⟩)

/-- A path leads to a scalar value exactly when it leads to the scalar. -/
theorem Widget.at?_eq_scalar : w.at? path = some (.scalar s) ↔ w.scalarAt? path = some s := by
  rw [Widget.scalarAt?, Option.bind_eq_some_iff]
  constructor
  · intro h
    exact ⟨_, h, rfl⟩
  · rintro ⟨v, hv, hs⟩
    cases v <;> cases hs
    exact hv

/-! ## Putting a scalar into a slot -/

theorem propertyTokens_set {d : Detail} {ps : List Property} {p p' : Property}
    (hp : ps[i]? = some p) (hkey : p'.key = p.key)
    (hv : p'.value.tokens d = p.value.tokens d) :
    propertyTokens d (ps.set i p') = propertyTokens d ps := by
  induction ps generalizing i with
  | nil => rfl
  | cons r ps ih =>
      cases i with
      | zero =>
          cases hp
          obtain ⟨k, u⟩ := p
          obtain ⟨k', u'⟩ := p'
          cases hkey
          rw [List.set_cons_zero, propertyTokens, propertyTokens, hv]
      | succ i =>
          obtain ⟨k, u⟩ := r
          rw [List.set_cons_succ, propertyTokens, propertyTokens, ih hp]

theorem childTokens_set {d : Detail} {cs : List Widget} {c c' : Widget} (hc : cs[i]? = some c)
    (hw : c'.tokens d = c.tokens d) : childTokens d (cs.set i c') = childTokens d cs := by
  induction cs generalizing i with
  | nil => rfl
  | cons r cs ih =>
      cases i with
      | zero => cases hc; rw [List.set_cons_zero, childTokens, childTokens, hw]
      | succ i => rw [List.set_cons_succ, childTokens, childTokens, ih hc]

theorem itemTokens_set {d : Detail} (hv : vs[i]? = some v) (hu : v'.tokens d = v.tokens d) :
    itemTokens d (vs.set i v') = itemTokens d vs := by
  induction vs generalizing i with
  | nil => rfl
  | cons r vs ih =>
      cases i with
      | zero => cases hv; rw [List.set_cons_zero, itemTokens, itemTokens, hu]
      | succ i => rw [List.set_cons_succ, itemTokens, itemTokens, ih hv]

/-- Only widgets have the shape of a widget. -/
theorem eq_widget_of_shape (h : v.tokens .shape = (Value.widget w).tokens .shape) :
    ∃ w', v = .widget w' := by
  cases v with
  | scalar s => cases w; cases h
  | widget w' => exact ⟨w', rfl⟩
  | list vs => cases w; cases h

/-- One slot has another scalar, the other slots and the shape are as before. -/
structure Updated (v : Value) (path : SlotPath) (s : Scalar) (v' : Value) : Prop where
  shape : v'.tokens .shape = v.tokens .shape
  scalarAt? : ∀ q, v'.scalarAt? q = if q = path then some s else v.scalarAt? q

theorem Updated.property (h : Updated v path s v') (hp : w.properties[i]? = some ⟨key, v⟩) :
    Updated (.widget w) (.property i key :: path) s
      (.widget ⟨w.typeName, w.properties.set i ⟨key, v'⟩, w.children⟩) where
  shape := by
    obtain ⟨t, ps, cs⟩ := w
    dsimp only at hp ⊢
    have htokens : propertyTokens .shape (ps.set i ⟨key, v'⟩) = propertyTokens .shape ps :=
      propertyTokens_set hp rfl h.shape
    rw [Value.tokens, Value.tokens, Widget.tokens, Widget.tokens, htokens]
  scalarAt? := by
    intro q
    cases q with
    | nil => rfl
    | cons step rest =>
        cases step with
        | item j => rfl
        | child j => simp
        | property j k =>
            have hi : i < w.properties.length := (List.getElem?_eq_some_iff.mp hp).1
            simp only [scalarAt?_widget_property, Widget.propertyAt?, List.getElem?_set]
            by_cases hj : i = j
            · subst hj
              rw [if_pos rfl, if_pos hi, hp]
              by_cases hk : key = k
              · subst hk
                simp [h.scalarAt?]
              · simp [hk, Ne.symm hk]
            · rw [if_neg hj, if_neg]
              simp [Ne.symm hj]

theorem Updated.child {c c' : Widget} (h : Updated (.widget c) path s (.widget c'))
    (hc : w.children[i]? = some c) :
    Updated (.widget w) (.child i :: path) s
      (.widget ⟨w.typeName, w.properties, w.children.set i c'⟩) where
  shape := by
    obtain ⟨t, ps, cs⟩ := w
    dsimp only at hc ⊢
    have htokens := childTokens_set hc (show c'.tokens .shape = c.tokens .shape from h.shape)
    rw [Value.tokens, Value.tokens, Widget.tokens, Widget.tokens, htokens]
  scalarAt? := by
    intro q
    cases q with
    | nil => rfl
    | cons step rest =>
        cases step with
        | item j => rfl
        | property j k => simp [Widget.propertyAt?]
        | child j =>
            have hi : i < w.children.length := (List.getElem?_eq_some_iff.mp hc).1
            simp only [scalarAt?_widget_child, List.getElem?_set]
            by_cases hj : i = j
            · subst hj
              rw [if_pos rfl, if_pos hi, hc]
              simp [h.scalarAt?]
            · rw [if_neg hj, if_neg]
              simp [Ne.symm hj]

theorem Updated.item (h : Updated v path s v') (hv : vs[i]? = some v) :
    Updated (.list vs) (.item i :: path) s (.list (vs.set i v')) where
  shape := by rw [Value.tokens, Value.tokens, itemTokens_set hv h.shape]
  scalarAt? := by
    intro q
    cases q with
    | nil => rfl
    | cons step rest =>
        cases step with
        | property j k => rfl
        | child j => simp
        | item j =>
            have hi : i < vs.length := (List.getElem?_eq_some_iff.mp hv).1
            simp only [scalarAt?_list_item, List.getElem?_set]
            by_cases hj : i = j
            · subst hj
              rw [if_pos rfl, if_pos hi, hv]
              simp [h.scalarAt?]
            · rw [if_neg hj, if_neg]
              simp [Ne.symm hj]

theorem Value.replace?_scalar (s' : Scalar) (h : v.scalarAt? path = some s) :
    ∃ v', Value.replace? (.scalar s') path v = some v' ∧ Updated v path s' v' := by
  induction path generalizing v with
  | nil =>
      cases v with
      | scalar t => exact ⟨.scalar s', rfl, rfl, fun q => by cases q <;> simp⟩
      | widget w => cases h
      | list vs => cases h
  | cons step rest ih =>
      cases v with
      | scalar t => simp at h
      | widget w =>
          cases step with
          | property i key =>
              rw [scalarAt?_widget_property, Option.bind_eq_some_iff] at h
              obtain ⟨u, hu, hs⟩ := h
              obtain ⟨u', hu', hupdated⟩ := ih hs
              refine ⟨_, ?_, hupdated.property (propertyAt?_eq_some.mp hu)⟩
              rw [Value.replace?, hu, Option.bind_some, hu', Option.map_some]
          | child i =>
              rw [scalarAt?_widget_child, Option.bind_eq_some_iff] at h
              obtain ⟨c, hc, hs⟩ := h
              obtain ⟨u', hu', hupdated⟩ := ih hs
              obtain ⟨c', rfl⟩ := eq_widget_of_shape hupdated.shape
              refine ⟨_, ?_, hupdated.child hc⟩
              cases rest with
              | nil => cases hs
              | cons next rest => rw [Value.replace?, hc, Option.bind_some, hu']
          | item i => simp at h
      | list vs =>
          cases step with
          | property i key => simp at h
          | child i => simp at h
          | item i =>
              rw [scalarAt?_list_item, Option.bind_eq_some_iff] at h
              obtain ⟨u, hu, hs⟩ := h
              obtain ⟨u', hu', hupdated⟩ := ih hs
              refine ⟨_, ?_, hupdated.item hu⟩
              rw [Value.replace?, hu, Option.bind_some, hu', Option.map_some]

/-- A slot of a widget can be given any scalar. -/
theorem Widget.replace?_scalar (s : Scalar) (h : path ∈ w.slots) :
    ∃ w', w.replace? path (.scalar s) = some w' ∧ w'.shape = w.shape ∧
      ∀ q, w'.scalarAt? q = if q = path then some s else w.scalarAt? q := by
  obtain ⟨t, ht⟩ := Value.mem_slots (v := .widget w).mp h
  obtain ⟨v', hv', hupdated⟩ := Value.replace?_scalar s ht
  obtain ⟨w', rfl⟩ := eq_widget_of_shape hupdated.shape
  refine ⟨w', ?_, hupdated.shape, fun q => ?_⟩
  · have hne : path.isEmpty = false := by
      cases path with
      | nil => cases ht
      | cons step rest => rfl
    rw [Widget.replace?, hne, if_neg Bool.false_ne_true, hv']
  · rw [w'.scalarAt?_eq, w.scalarAt?_eq]
    exact hupdated.scalarAt? q

end WidgetShorthand
