import Mathlib.Data.Prod.Lex
import Mathlib.Order.Compare

/-!
# The order of floats

Comparing floats is a case distinction on how they are represented. Underneath there is a linear
order with one place for every number, signed zeros sharing theirs, and no place for what is no
number. A comparison holds if both sides have a place and the places compare. So floats that compare
behave as in any linear order, which is all that searching for a best score needs.
-/

namespace WidgetShorthand

open Float.Model

/-- The place of a float: first the infinities, the signs and zero, within a sign the exponent and
then the mantissa. -/
def representedPlace? : UnpackedFloat → Option (ℤ ×ₗ ℤ ×ₗ ℤ)
  | .notANumber => none
  | .infinity .negative => some (toLex (-2, toLex (0, 0)))
  | .finite .negative m e _ => some (toLex (-1, toLex (-e, -m)))
  | .zero _ => some (toLex (0, toLex (0, 0)))
  | .finite .positive m e _ => some (toLex (1, toLex (e, m)))
  | .infinity .positive => some (toLex (2, toLex (0, 0)))

/-- Where a float stands among the others, if it is a number. -/
def place? (a : Float) : Option (ℤ ×ₗ ℤ ×ₗ ℤ) :=
  representedPlace? a.toModel.unpack

theorem compare_neg (a b : ℤ) : compare (-a) (-b) = (compare a b).swap := by
  rcases lt_trichotomy a b with h | rfl | h
  · rw [compare_lt_iff_lt.mpr h, compare_gt_iff_gt.mpr (show -b < -a by omega)]
    rfl
  · rw [compare_eq_iff_eq.mpr rfl, compare_eq_iff_eq.mpr rfl]
    rfl
  · rw [compare_gt_iff_gt.mpr h, compare_lt_iff_lt.mpr (show -a < -b by omega)]
    rfl

theorem compare_natCast (m n : ℕ) : compare (m : ℤ) (n : ℤ) = compare m n := by
  rcases lt_trichotomy m n with h | rfl | h
  · rw [compare_lt_iff_lt.mpr h, compare_lt_iff_lt.mpr (Int.ofNat_lt.mpr h)]
  · rw [compare_eq_iff_eq.mpr rfl, compare_eq_iff_eq.mpr rfl]
  · rw [compare_gt_iff_gt.mpr h, compare_gt_iff_gt.mpr (Int.ofNat_lt.mpr h)]

theorem compare_toLex {α β : Type} [LinearOrder α] [LinearOrder β] (a b : α) (x y : β) :
    compare (toLex (a, x)) (toLex (b, y)) = (compare a b).then (compare x y) := by
  rw [Prod.Lex.compare_def]
  rfl

/-- Representations compare as their places do. -/
theorem compare_eq_places (a b : UnpackedFloat) : a.compare b =
    (representedPlace? a).bind fun x => (representedPlace? b).map fun y => compare x y := by
  rcases a with (_ | _) | _ | _ | ⟨_ | _, m, e, hm⟩ <;>
    rcases b with (_ | _) | _ | _ | ⟨_ | _, n, f, hn⟩ <;>
    first
    | rfl
    | dsimp only [UnpackedFloat.compare, representedPlace?, Option.bind_some, Option.map_some]
      simp only [compare_toLex, compare_neg, compare_natCast, Ordering.swap_then]
      rfl

variable {a b c : Float}

/-- The first float comes before the second one exactly if both have places, in this order. -/
theorem float_lt_iff : a < b ↔ ∃ x y, place? a = some x ∧ place? b = some y ∧ x < y := by
  have hcompare : a < b ↔ a.toModel.unpack.compare b.toModel.unpack = some .lt := by
    show Float.lt a b = true ↔ _
    rw [Float.lt, decide_eq_true_eq]
    exact beq_iff_eq
  rw [hcompare, compare_eq_places]
  unfold place?
  cases representedPlace? a.toModel.unpack with
  | none => simp
  | some x =>
    cases representedPlace? b.toModel.unpack with
    | none => simp
    | some y => simp [compare_lt_iff_lt]

theorem float_le_iff : a ≤ b ↔ ∃ x y, place? a = some x ∧ place? b = some y ∧ x ≤ y := by
  have hcompare : a ≤ b ↔
      (a.toModel.unpack.compare b.toModel.unpack).any (·.isLE) = true := by
    show Float.le a b = true ↔ _
    rw [Float.le, decide_eq_true_eq]
    exact Iff.rfl
  rw [hcompare, compare_eq_places]
  unfold place?
  cases representedPlace? a.toModel.unpack with
  | none => simp
  | some x =>
    cases representedPlace? b.toModel.unpack with
    | none => simp
    | some y => simp [Ordering.isLE_iff_ne_gt, compare_le_iff_le]

theorem float_le_of_lt (h : a < b) : a ≤ b := by
  obtain ⟨x, y, hx, hy, hlt⟩ := float_lt_iff.mp h
  exact float_le_iff.mpr ⟨x, y, hx, hy, hlt.le⟩

theorem float_le_trans (h : a ≤ b) (h' : b ≤ c) : a ≤ c := by
  obtain ⟨x, y, hx, hy, hle⟩ := float_le_iff.mp h
  obtain ⟨y', z, hy', hz, hle'⟩ := float_le_iff.mp h'
  obtain rfl : y = y' := Option.some.inj (hy.symm.trans hy')
  exact float_le_iff.mpr ⟨x, z, hx, hz, hle.trans hle'⟩

theorem float_lt_of_le_of_lt (h : a ≤ b) (h' : b < c) : a < c := by
  obtain ⟨x, y, hx, hy, hle⟩ := float_le_iff.mp h
  obtain ⟨y', z, hy', hz, hlt⟩ := float_lt_iff.mp h'
  obtain rfl : y = y' := Option.some.inj (hy.symm.trans hy')
  exact float_lt_iff.mpr ⟨x, z, hx, hz, hle.trans_lt hlt⟩

theorem float_not_lt_of_le (h : a ≤ b) : ¬ b < a := by
  intro hlt
  obtain ⟨x, y, hx, hy, hle⟩ := float_le_iff.mp h
  obtain ⟨y', x', hy', hx', hlt⟩ := float_lt_iff.mp hlt
  obtain rfl : x = x' := Option.some.inj (hx.symm.trans hx')
  obtain rfl : y = y' := Option.some.inj (hy.symm.trans hy')
  exact absurd hlt (not_lt.mpr hle)

theorem float_lt_irrefl : ¬ a < a := by
  intro h
  exact float_not_lt_of_le (float_le_of_lt h) h

/-- Two floats that compare with a third one are numbers, so one of them is the less. -/
theorem float_le_of_not_lt (ha : c ≤ a) (hb : c ≤ b) (h : ¬ a < b) : b ≤ a := by
  obtain ⟨_, x, _, hx, _⟩ := float_le_iff.mp ha
  obtain ⟨_, y, _, hy, _⟩ := float_le_iff.mp hb
  refine float_le_iff.mpr ⟨y, x, hy, hx, not_lt.mp fun hlt => ?_⟩
  exact h (float_lt_iff.mpr ⟨x, y, hx, hy, hlt⟩)

end WidgetShorthand
