import Mathlib.Data.List.DropRight
import WidgetShorthand.Document.Decode
import WidgetShorthand.Document.Encode
import WidgetShorthand.Proofs.SameShape

/-!
# What a reference stands for

A reference carries the scalars in which a widget differs from the sample of a pattern, slot by
slot, and no missing ones at its end. Filling the sample with them always succeeds, because the
slots stay where they are while scalars are put into them. The result has the shape of the sample,
and in each slot the widget's own scalar wherever the widget has one at that path. If the widget has
the shape of the sample, that is the widget itself.
-/

namespace WidgetShorthand

/-- What registering makes sure of. -/
structure Entry.Sound (entry : Entry) : Prop where
  id : Text.isReferenceId entry.id = true
  slots : entry.slots = entry.sample.slots
  fingerprint : entry.fingerprint = entry.sample.fingerprint

theorem Entry.sound_ofWidget {id : String} (w : Widget) (about : Description)
    (h : Text.isReferenceId id = true) : (ofWidget id w about).Sound :=
  ⟨h, rfl, rfl⟩

variable {entry : Entry} {w : Widget} {q : SlotPath}

/-! ## Arguments -/

/-- A widget's scalar is an argument where it differs from the sample's. -/
theorem argument_eq (entry : Entry) (w : Widget) (q : SlotPath) :
    Encoder.argument entry w q =
      (w.scalarAt? q).filter fun s => entry.sample.scalarAt? q ≠ some s := by
  unfold Encoder.argument
  rw [Widget.scalarAt?.eq_def w]
  cases w.at? q with
  | none => rfl
  | some v =>
      cases v with
      | scalar s =>
          rw [Option.bind_some, Value.scalar?, Option.filter_some]
          by_cases h : entry.sample.scalarAt? q = some s <;> simp [Widget.at?_eq_scalar, h]
      | widget u => rfl
      | list vs => rfl

/-- What an argument leaves out is the sample's scalar. -/
theorem argument_or (entry : Entry) (w : Widget) (q : SlotPath) :
    (Encoder.argument entry w q).or (entry.sample.scalarAt? q) =
      (w.scalarAt? q).or (entry.sample.scalarAt? q) := by
  rw [argument_eq]
  cases w.scalarAt? q with
  | none => rfl
  | some s =>
      rw [Option.filter_some]
      by_cases h : entry.sample.scalarAt? q = some s <;> simp [h]

theorem dropMissing_append (args : List (Option Scalar)) :
    ∃ n, args = Encoder.dropMissing args ++ List.replicate n none := by
  refine ⟨(args.rtakeWhile Option.isNone).length, ?_⟩
  have hmissing : args.rtakeWhile Option.isNone =
      List.replicate (args.rtakeWhile Option.isNone).length none := by
    rw [List.eq_replicate_iff]
    exact ⟨rfl, fun a ha => Option.isNone_iff_eq_none.mp (List.mem_rtakeWhile_imp ha)⟩
  rw [← hmissing]
  exact List.rdropWhile_append_rtakeWhile.symm

theorem length_arguments_le (entry : Entry) (w : Widget) :
    (Encoder.arguments entry w).length ≤ entry.arity := by
  obtain ⟨n, hn⟩ := dropMissing_append (entry.slots.map (Encoder.argument entry w))
  have hlen := congrArg List.length hn
  rw [List.length_map, List.length_append] at hlen
  rw [Entry.arity, hlen]
  exact Nat.le_add_right _ _

/-- The last argument is not missing. -/
theorem getLast_arguments (h : Encoder.arguments entry w ≠ []) :
    ((Encoder.arguments entry w).getLast h).isSome := by
  have hlast := List.rdropWhile_last_not Option.isNone _ h
  rwa [Bool.not_eq_true, Option.isNone_eq_false_iff] at hlast

/-! ## Filling -/

/-- Missing arguments at the end change nothing. -/
theorem foldlM_fillSlot_missing (slots : List SlotPath) (args : List (Option Scalar)) (n : Nat)
    (w : Widget) :
    (slots.zip (args ++ List.replicate n none)).foldlM Decoding.fillSlot w =
      (slots.zip args).foldlM Decoding.fillSlot w := by
  induction slots generalizing args n w with
  | nil => rfl
  | cons p slots ih =>
      cases args with
      | nil =>
          cases n with
          | zero => rfl
          | succ n =>
              have hrest := ih [] n w
              rw [List.nil_append, List.zip_nil_right] at hrest
              rw [List.nil_append, List.replicate_succ, List.zip_cons_cons, List.foldlM_cons,
                List.zip_nil_right]
              exact hrest
      | cons a args =>
          rw [List.cons_append, List.zip_cons_cons, List.zip_cons_cons, List.foldlM_cons,
            List.foldlM_cons]
          exact congrArg _ (funext fun w' => ih args n w')

theorem fillSlot_some {s : Scalar} {w' : Widget} (h : w.replace? q (.scalar s) = some w')
    (rest : List (SlotPath × Option Scalar)) :
    ((q, some s) :: rest).foldlM Decoding.fillSlot w = rest.foldlM Decoding.fillSlot w' := by
  have hslot : Decoding.fillSlot w (q, some s) = some w' := h
  rw [List.foldlM_cons, hslot]
  rfl

theorem foldlM_fillSlot (f : SlotPath → Option Scalar) {paths : List SlotPath}
    (h : ∀ p ∈ paths, p ∈ w.slots) :
    ∃ w', (paths.zip (paths.map f)).foldlM Decoding.fillSlot w = some w' ∧ w'.shape = w.shape ∧
      ∀ q, w'.scalarAt? q = if q ∈ paths then (f q).or (w.scalarAt? q) else w.scalarAt? q := by
  induction paths generalizing w with
  | nil => exact ⟨w, rfl, rfl, fun q => rfl⟩
  | cons p paths ih =>
      have hpaths : ∀ p' ∈ paths, p' ∈ w.slots := fun p' hp' => h p' (List.mem_cons_of_mem p hp')
      rw [List.map_cons, List.zip_cons_cons]
      cases hf : f p with
      | none =>
          obtain ⟨w', hw', hshape, hat⟩ := ih hpaths
          refine ⟨w', hw', hshape, fun q => ?_⟩
          rw [hat]
          by_cases hq : q ∈ paths
          · simp [hq]
          · by_cases hqp : q = p
            · simp [hqp, hf]
            · simp [hq, hqp]
      | some s =>
          obtain ⟨w₁, hw₁, hshape₁, hat₁⟩ := w.replace?_scalar s (h p List.mem_cons_self)
          have hslots : ∀ p' ∈ paths, p' ∈ w₁.slots := by
            rw [Widget.slots_eq_of_shape hshape₁]
            exact hpaths
          obtain ⟨w', hw', hshape, hat⟩ := ih hslots
          refine ⟨w', (fillSlot_some hw₁ _).trans hw', hshape.trans hshape₁, fun q => ?_⟩
          rw [hat, hat₁]
          by_cases hqp : q = p
          · simp [hqp, hf]
          · simp [hqp]

/-- The widget that a reference in the place of a widget stands for. -/
def Entry.filled (entry : Entry) (w : Widget) : Widget :=
  (Decoding.fill entry (Encoder.arguments entry w)).getD entry.sample

theorem fill_arguments (he : entry.Sound) (w : Widget) :
    Decoding.fill entry (Encoder.arguments entry w) = some (entry.filled w) ∧
      (entry.filled w).shape = entry.sample.shape ∧
      ∀ q ∈ entry.slots, (entry.filled w).scalarAt? q =
        (w.scalarAt? q).or (entry.sample.scalarAt? q) := by
  obtain ⟨n, hn⟩ := dropMissing_append (entry.slots.map (Encoder.argument entry w))
  have hslots : ∀ p ∈ entry.slots, p ∈ entry.sample.slots := by
    rw [he.slots]
    exact fun p hp => hp
  obtain ⟨v, hv, hshape, hat⟩ := foldlM_fillSlot (Encoder.argument entry w) hslots
  rw [hn, foldlM_fillSlot_missing] at hv
  have hfill : Decoding.fill entry (Encoder.arguments entry w) = some v := hv
  have hfilled : entry.filled w = v := by rw [Entry.filled, hfill, Option.getD_some]
  rw [hfilled]
  refine ⟨hfill, hshape, fun q hq => ?_⟩
  rw [hat, if_pos hq, argument_or]

/-- Nothing is lost where the shapes are equal. -/
theorem Entry.filled_eq_self (he : entry.Sound) (h : w.shape = entry.sample.shape) :
    entry.filled w = w := by
  obtain ⟨_, hshape, hat⟩ := fill_arguments he w
  have hslots : w.slots = entry.slots := by rw [he.slots, Widget.slots_eq_of_shape h]
  have hslots' := Widget.slots_eq_of_shape (hshape.trans h.symm)
  refine Widget.eq_of_shape (hshape.trans h.symm) fun q => ?_
  by_cases hq : q ∈ w.slots
  · obtain ⟨s, hs⟩ := Widget.mem_slots.mp hq
    rw [hat q (hslots ▸ hq), hs, Option.some_or]
  · rw [Widget.scalarAt?_eq_none hq, Widget.scalarAt?_eq_none (hslots' ▸ hq)]

/-- What a reference stands for is written as the same reference. -/
theorem arguments_filled (he : entry.Sound) (w : Widget) :
    Encoder.arguments entry (entry.filled w) = Encoder.arguments entry w := by
  obtain ⟨_, _, hat⟩ := fill_arguments he w
  refine congrArg Encoder.dropMissing (List.map_congr_left fun q hq => ?_)
  rw [argument_eq, argument_eq, hat q hq]
  cases w.scalarAt? q with
  | some s => rfl
  | none => cases h : entry.sample.scalarAt? q <;> simp

end WidgetShorthand
