import Mathlib.Data.List.Nodup
import WidgetShorthand.Proofs.Filling
import WidgetShorthand.Registry.Stock

/-!
# Slots in the order of the tokens

Three recursions go through a widget and have to meet the same scalars: the one that lists the
slots, the one that lists the tokens, and the one that follows a path. The first two agree in order:
writing the scalars that the slots lead to into the anonymous tokens of the shape, one after the
other, gives the tokens in full detail. `FillsIn` states this for any part of a widget, and goes
through lists by appending.

With it the picture of a widget as a shape and a row of scalars is complete. Every scalar has one
slot, writing into one slot moves nothing else, and a widget turns into any other one of its shape
by taking over the scalars of that one.
-/

namespace WidgetShorthand

/-- The last tokens are the first ones with the scalars in the places of the slots, in order. -/
inductive FillsIn : List Token → List Scalar → List Token → Prop
  | nil : FillsIn [] [] []
  | slot {ts us : List Token} {ss : List Scalar} (s : Scalar) (h : FillsIn ts ss us) :
      FillsIn (.slot :: ts) (s :: ss) (s.token .full :: us)
  | other {t : Token} {ts us : List Token} {ss : List Scalar} (ht : t ≠ .slot)
      (h : FillsIn ts ss us) : FillsIn (t :: ts) ss (t :: us)

/-- The scalars in the slots of a value, slot by slot. -/
def Value.slotScalars (v : Value) : List Scalar :=
  v.slots.filterMap v.scalarAt?

/-- The scalars in the slots of a widget, slot by slot. -/
def Widget.slotScalars (w : Widget) : List Scalar :=
  w.slots.filterMap w.scalarAt?

/-- A widget with the value of another one in one place. -/
def Widget.takeOver? (from' w : Widget) (path : SlotPath) : Option Widget :=
  (from'.at? path).bind (w.replace? path)

variable {w : Widget} {q path : SlotPath} {s : Scalar}

/-! ## Filling in, part by part -/

namespace FillsIn

variable {ts ts' us us' : List Token} {ss ss' : List Scalar}

theorem append (h : FillsIn ts ss us) (h' : FillsIn ts' ss' us') :
    FillsIn (ts ++ ts') (ss ++ ss') (us ++ us') := by
  induction h with
  | nil => exact h'
  | slot s _ ih => exact .slot s ih
  | other ht _ ih => exact .other ht ih

/-- A token of its own behind the others. -/
theorem closing {t : Token} (h : FillsIn ts ss us) (ht : t ≠ .slot) :
    FillsIn (ts ++ [t]) ss (us ++ [t]) := by
  have hall := h.append (.other ht .nil)
  rwa [List.append_nil] at hall

theorem length_eq (h : FillsIn ts ss us) : ss.length = ts.count .slot := by
  induction h with
  | nil => rfl
  | slot s _ ih => rw [List.length_cons, List.count_cons_self, ih]
  | other ht _ ih => rw [List.count_cons_of_ne ht, ih]

end FillsIn

/-! ## The scalars of the parts -/

section Parts

variable {α : Type} {step : Nat → α → Step} {slots : α → List SlotPath} {xs : List α} {n : Nat}

/-- Where every step leads into its part, the slots lead to the scalars of the parts. -/
theorem filterMap_slotsFrom {whole : SlotPath → Option Scalar} {part : α → SlotPath → Option Scalar}
    (h : ∀ i x, xs[i]? = some x → ∀ q, whole (step (n + i) x :: q) = part x q) :
    (slotsFrom step slots n xs).filterMap whole =
      xs.flatMap fun x => (slots x).filterMap (part x) := by
  induction xs generalizing n with
  | nil => rfl
  | cons x xs ih =>
      have hrest := ih (n := n + 1) fun i y hy q => by
        rw [Nat.add_assoc, Nat.add_comm 1]
        exact h (i + 1) y hy q
      rw [slotsFrom, List.filterMap_append, List.filterMap_map, hrest, List.flatMap_cons]
      congr 1
      exact List.filterMap_congr fun q _ => h 0 x rfl q

/-- Steps with different numbers keep the slots of the parts apart. -/
theorem nodup_slotsFrom (hstep : ∀ i j x y, step i x = step j y → i = j)
    (h : ∀ x ∈ xs, (slots x).Nodup) : (slotsFrom step slots n xs).Nodup := by
  induction xs generalizing n with
  | nil => exact .nil
  | cons x xs ih =>
      rw [List.forall_mem_cons] at h
      rw [slotsFrom, List.nodup_append]
      refine ⟨h.1.map fun q q' heq => (List.cons.inj heq).2, ih h.2, ?_⟩
      rintro _ hhead path htail rfl
      obtain ⟨q, _, rfl⟩ := List.mem_map.mp hhead
      obtain ⟨i, y, q', _, _, heq⟩ := mem_slotsFrom.mp htail
      have hnumber := hstep _ _ _ _ (List.cons.inj heq).1
      omega

end Parts

/-! ## Every slot once -/

mutual

theorem nodup_slots_widget : (w : Widget) → w.slots.Nodup
  | ⟨_, ps, cs⟩ => by
      rw [Widget.slots, List.nodup_append]
      refine ⟨?_, ?_, ?_⟩
      · rw [propertySlots_eq]
        exact nodup_slotsFrom (fun _ _ _ _ heq => (Step.property.inj heq).1)
          (nodup_slots_properties ps)
      · rw [childSlots_eq]
        exact nodup_slotsFrom (fun _ _ _ _ => Step.child.inj) (nodup_slots_children cs)
      · rintro _ hproperty path hchild rfl
        obtain ⟨_, _, _, _, _, _, rfl⟩ := mem_propertySlots.mp hproperty
        obtain ⟨_, _, _, _, _, heq⟩ := mem_childSlots.mp hchild
        cases heq

theorem nodup_slots_properties : (ps : List Property) → ∀ p ∈ ps, p.value.slots.Nodup
  | [] => nofun
  | ⟨_, v⟩ :: ps => List.forall_mem_cons.mpr ⟨nodup_slots_value v, nodup_slots_properties ps⟩

theorem nodup_slots_children : (cs : List Widget) → ∀ c ∈ cs, c.slots.Nodup
  | [] => nofun
  | c :: cs => List.forall_mem_cons.mpr ⟨nodup_slots_widget c, nodup_slots_children cs⟩

theorem nodup_slots_value : (v : Value) → v.slots.Nodup
  | .scalar _ => List.nodup_singleton []
  | .widget w => nodup_slots_widget w
  | .list vs => by
      rw [Value.slots, itemSlots_eq]
      exact nodup_slotsFrom (fun _ _ _ _ => Step.item.inj) (nodup_slots_items vs)

theorem nodup_slots_items : (vs : List Value) → ∀ v ∈ vs, v.slots.Nodup
  | [] => nofun
  | v :: vs => List.forall_mem_cons.mpr ⟨nodup_slots_value v, nodup_slots_items vs⟩

end

/-! ## Every slot in its turn -/

theorem slotScalars_widget (t : String) (ps : List Property) (cs : List Widget) :
    (Value.widget ⟨t, ps, cs⟩).slotScalars =
      ps.flatMap (·.value.slotScalars) ++ cs.flatMap fun c => (Value.widget c).slotScalars := by
  have hproperties : ∀ i p, ps[i]? = some p → ∀ q,
      (Value.widget ⟨t, ps, cs⟩).scalarAt? (.property (0 + i) p.key :: q) =
        p.value.scalarAt? q := by
    rintro i ⟨key, v⟩ hp q
    have hat := propertyAt?_eq_some (w := ⟨t, ps, cs⟩).mpr hp
    rw [Nat.zero_add, scalarAt?_widget_property, hat, Option.bind_some]
  have hchildren : ∀ i c, cs[i]? = some c → ∀ q,
      (Value.widget ⟨t, ps, cs⟩).scalarAt? (.child (0 + i) :: q) =
        (Value.widget c).scalarAt? q := by
    intro i c hc q
    rw [Nat.zero_add, scalarAt?_widget_child, hc, Option.bind_some]
  rw [Value.slotScalars, Value.slots, Widget.slots, List.filterMap_append, propertySlots_eq,
    childSlots_eq, filterMap_slotsFrom hproperties, filterMap_slotsFrom hchildren]
  rfl

theorem slotScalars_list (vs : List Value) :
    (Value.list vs).slotScalars = vs.flatMap Value.slotScalars := by
  have hitems : ∀ i v, vs[i]? = some v → ∀ q,
      (Value.list vs).scalarAt? (.item (0 + i) :: q) = v.scalarAt? q := by
    intro i v hv q
    rw [Nat.zero_add, scalarAt?_list_item, hv, Option.bind_some]
  rw [Value.slotScalars, Value.slots, itemSlots_eq, filterMap_slotsFrom hitems]
  rfl

mutual

theorem fillsIn_widget : (w : Widget) →
    FillsIn (w.tokens .shape) (Value.widget w).slotScalars (w.tokens .full)
  | ⟨t, ps, cs⟩ => by
      have hchildren := (fillsIn_children cs).closing (t := .closeChildren) nofun
      have htail := FillsIn.other (t := .closeProperties) nofun
        (.other (t := .openChildren) nofun hchildren)
      rw [slotScalars_widget, Widget.tokens, Widget.tokens]
      exact .other nofun (.other nofun ((fillsIn_properties ps).append htail))

theorem fillsIn_properties : (ps : List Property) →
    FillsIn (propertyTokens .shape ps) (ps.flatMap (·.value.slotScalars)) (propertyTokens .full ps)
  | [] => .nil
  | ⟨_, v⟩ :: ps => .other nofun ((fillsIn_value v).append (fillsIn_properties ps))

theorem fillsIn_children : (cs : List Widget) →
    FillsIn (childTokens .shape cs) (cs.flatMap fun c => (Value.widget c).slotScalars)
      (childTokens .full cs)
  | [] => .nil
  | c :: cs => (fillsIn_widget c).append (fillsIn_children cs)

theorem fillsIn_value : (v : Value) →
    FillsIn (v.tokens .shape) v.slotScalars (v.tokens .full)
  | .scalar s => .slot s .nil
  | .widget w => fillsIn_widget w
  | .list vs => by
      rw [slotScalars_list, Value.tokens, Value.tokens]
      exact .other nofun ((fillsIn_items vs).closing nofun)

theorem fillsIn_items : (vs : List Value) →
    FillsIn (itemTokens .shape vs) (vs.flatMap Value.slotScalars) (itemTokens .full vs)
  | [] => .nil
  | v :: vs => (fillsIn_value v).append (fillsIn_items vs)

end

/-- The slots of a widget stand in the order of its tokens. -/
theorem Widget.fillsIn (w : Widget) : FillsIn w.shape w.slotScalars (w.tokens .full) := by
  have hscalars : w.slotScalars = (Value.widget w).slotScalars :=
    List.filterMap_congr fun q _ => w.scalarAt?_eq q
  rw [hscalars]
  exact fillsIn_widget w

/-! ## Tokens and their texts -/

theorem Token.text_inj {t t' : Token} (h : t.isForm = true) (h' : t'.isForm = true)
    (heq : t.text = t'.text) : t = t' := by
  rw [← Token.ofText_text h, heq, Token.ofText_text h']

/-- The texts of the tokens say what the shape is. -/
theorem Widget.shape_eq_of_texts {a b : Widget}
    (h : a.shape.map Token.text = b.shape.map Token.text) : a.shape = b.shape := by
  have hread : ∀ w : Widget, (w.shape.map Token.text).map Token.ofText = w.shape := by
    intro w
    rw [List.map_map]
    refine (List.map_congr_left fun t ht => ?_).trans (List.map_id _)
    exact Token.ofText_text (isForm_of_mem_widget w t ht)
  rw [← hread a, ← hread b, h]

theorem Widget.count_slot (w : Widget) :
    (w.shape.map Token.text).count "?" = w.shape.count .slot := by
  rw [List.count_eq_countP, List.count_eq_countP, List.countP_map]
  refine List.countP_congr fun t ht => ?_
  rw [Function.comp_apply, beq_iff_eq, beq_iff_eq]
  constructor
  · exact Token.text_inj (isForm_of_mem_widget w t ht) (show Token.slot.isForm = true from rfl)
  · rintro rfl
    rfl

/-! ## Reading and writing a slot -/

theorem map_at?_of_slots {paths : List SlotPath} (h : ∀ p ∈ paths, p ∈ w.slots) :
    paths.map w.at? = (paths.filterMap w.scalarAt?).map (some ∘ Value.scalar) := by
  induction paths with
  | nil => rfl
  | cons p paths ih =>
      rw [List.forall_mem_cons] at h
      obtain ⟨s, hs⟩ := Widget.mem_slots.mp h.1
      rw [List.map_cons, List.filterMap_cons_some hs, List.map_cons, ih h.2,
        Widget.at?_eq_scalar.mpr hs]
      rfl

/-- Slots that take over what another widget of the shape has in them are filled with its
scalars. -/
theorem foldlM_takeOver {a b : Widget} {paths : List SlotPath} (h : ∀ p ∈ paths, p ∈ b.slots) :
    paths.foldlM b.takeOver? a =
      (paths.zip (paths.map b.scalarAt?)).foldlM Decoding.fillSlot a := by
  induction paths generalizing a with
  | nil => rfl
  | cons p paths ih =>
      rw [List.forall_mem_cons] at h
      obtain ⟨s, hs⟩ := Widget.mem_slots.mp h.1
      have hstep : b.takeOver? a p = Decoding.fillSlot a (p, some s) := by
        rw [Widget.takeOver?, Widget.at?_eq_scalar.mpr hs]
        rfl
      rw [List.map_cons, List.zip_cons_cons, List.foldlM_cons, List.foldlM_cons, hs, hstep]
      exact congrArg _ (funext fun a' => ih h.2)

theorem takeOver_slots {a b : Widget} (h : a.shape = b.shape) :
    a.slots.foldlM b.takeOver? a = some b := by
  have hslots := Widget.slots_eq_of_shape h
  obtain ⟨w', hw', hshape, hat⟩ := foldlM_fillSlot b.scalarAt? (w := a) fun p hp => hp
  rw [foldlM_takeOver (by rw [hslots]; exact fun p hp => hp), hw']
  refine congrArg some (Widget.eq_of_shape (hshape.trans h) fun q => ?_)
  rw [hat]
  -- Each slot has got the scalar of `b`, and elsewhere neither widget has a scalar.
  by_cases hq : q ∈ a.slots
  · rw [if_pos hq]
    rw [hslots] at hq
    obtain ⟨s, hs⟩ := Widget.mem_slots.mp hq
    rw [hs, Option.some_or]
  · rw [if_neg hq, Widget.scalarAt?_eq_none hq, Widget.scalarAt?_eq_none (hslots ▸ hq)]

/-- A widget is its shape and the scalars in its slots. Each scalar has one slot, and slot by slot
the scalars stand where the shape has its anonymous tokens. Any scalar can be written into a slot,
which changes nothing else. Where the texts of two shapes are equal so are the slots, and taking
over what the other widget has in them gives the other widget. -/
theorem shape_and_slots :
    (∀ w : Widget, w.slots.Nodup ∧ (∀ q, q ∈ w.slots ↔ ∃ s, w.at? q = some (.scalar s)) ∧
      w.slots.length = (w.shape.map Token.text).count "?" ∧
      ∃ ss, w.slots.map w.at? = ss.map (some ∘ Value.scalar) ∧
        FillsIn w.shape ss (w.tokens .full)) ∧
    (∀ (w : Widget) q (s : Scalar), q ∈ w.slots → ∃ w', w.replace? q (.scalar s) = some w' ∧
      w'.at? q = some (.scalar s) ∧ (∀ p ∈ w.slots, p ≠ q → w'.at? p = w.at? p) ∧
      w'.slots = w.slots ∧ w'.shape = w.shape) ∧
    ∀ a b : Widget, a.shape.map Token.text = b.shape.map Token.text →
      a.slots = b.slots ∧ a.slots.foldlM b.takeOver? a = some b := by
  refine ⟨fun w => ?_, fun w q s hq => ?_, fun a b htexts => ?_⟩
  · have hscalars := map_at?_of_slots (w := w) fun p hp => hp
    have hlength := congrArg List.length hscalars
    rw [List.length_map, List.length_map] at hlength
    have hcount : w.slots.length = (w.shape.map Token.text).count "?" :=
      hlength.trans (w.fillsIn.length_eq.trans w.count_slot.symm)
    refine ⟨nodup_slots_widget w, fun q => ?_, hcount, w.slotScalars, hscalars, w.fillsIn⟩
    simp only [Widget.at?_eq_scalar, Widget.mem_slots]
  · obtain ⟨w', hw', hshape, hat⟩ := w.replace?_scalar s hq
    refine ⟨w', hw', Widget.at?_eq_scalar.mpr ?_, fun p hp hne => ?_,
      Widget.slots_eq_of_shape hshape, hshape⟩
    · rw [hat, if_pos rfl]
    · obtain ⟨t, ht⟩ := Widget.mem_slots.mp hp
      have ht' : w'.scalarAt? p = some t := by rw [hat, if_neg hne, ht]
      rw [Widget.at?_eq_scalar.mpr ht, Widget.at?_eq_scalar.mpr ht']
  · have hshape := Widget.shape_eq_of_texts htexts
    exact ⟨Widget.slots_eq_of_shape hshape, takeOver_slots hshape⟩

/-- Two properties of one key, a list with a widget in it, and a child. -/
theorem shape_and_slots_nested :
    let nested (x y z : Scalar) : Widget :=
      ⟨"A", [⟨"k", .list [.scalar x, .widget (Stock.icon "i")]⟩,
      Stock.scalar "k" y], [Stock.leaf "B" [Stock.scalar "k" z]]⟩
    let a := nested .null (.bool true) (.string "a")
    let b := nested (.number "1") (.ident "b.c") (.expr "d")
    let q : SlotPath := [.child 0, .property 0 "k"]
    q ∈ a.slots ∧ a.shape.map Token.text = b.shape.map Token.text ∧
      (∃ w', a.replace? q (.scalar (.expr "d")) = some w' ∧ w'.shape = a.shape) ∧
      a.slots.foldlM b.takeOver? a = some b := by
  intro nested a b q
  have hq : q ∈ a.slots := by decide
  have htexts : a.shape.map Token.text = b.shape.map Token.text := rfl
  obtain ⟨_, hwrite, hsame⟩ := shape_and_slots
  obtain ⟨w', hw', _, _, _, hshape⟩ := hwrite a q (.expr "d") hq
  exact ⟨hq, htexts, ⟨w', hw', hshape⟩, (hsame a b htexts).2⟩

end WidgetShorthand
