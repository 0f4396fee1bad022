import Mathlib
import WidgetShorthand.Tree.Distance

/-!
# Zero over a length

A length that is not zero is a positive float: a finite number or, if it is very large, infinity.
The float is made by rounding, and rounding a number that is not below the least positive float
never ends at zero, nor does packing what was rounded into bits. So zero over a length is zero, and
the similarity of two sequences at distance zero is one.
-/

namespace WidgetShorthand

open Float.Model Float.Model.UnpackedFloat

/-- A positive finite number or positive infinity. -/
def IsPositive : UnpackedFloat → Prop
  | .finite .positive _ _ _ => True
  | .infinity .positive => True
  | _ => False

/-! ## Rounding -/

theorem mantissa_shift (em : ExtendedMantissa) (k : Nat) :
    (em >>> k).mantissa = em.mantissa / 2 ^ k := by
  induction k with
  | zero => exact (Nat.div_one _).symm
  | succ k ih =>
      show (em >>> k).mantissa / 2 = _
      rw [ih, Nat.div_div_eq_div_mul, Nat.pow_succ]

theorem mantissa_ofMantissaAndAccuracy (m : Nat) (a : Accuracy) :
    (ExtendedMantissa.ofMantissaAndAccuracy m a).mantissa = m := by
  rcases a with _ | _ | _ | _ <;> rfl

theorem mantissa_le_rounded (em : ExtendedMantissa) : em.mantissa ≤ em.roundedMantissa := by
  rcases em with ⟨m, _ | _, _ | _⟩
  · exact Nat.le_refl m
  · exact Nat.le_refl m
  · exact Nat.le_add_right m _
  · exact Nat.le_add_right m _

/-- By how many places a mantissa is shifted to have its right length. -/
def places (m : Nat) (e : Int) : Nat :=
  (Format.binary64.targetExponent (totalExponent m e) - e).toNat

theorem places_eq (m : Nat) (e : Int) :
    places m e = (max ((m.log2 : Int) + 1 + e - 53) (-1074) - e).toNat := rfl

/-- What is at least the least positive float is not shifted away, and what is left is no longer
than mantissas are. -/
theorem shifted_bounds {m : Nat} {e : Int} (hm : 0 < m) (he : -1074 ≤ e + m.log2) :
    0 < m / 2 ^ places m e ∧ m / 2 ^ places m e < 2 ^ 53 ∧ -1074 ≤ e + places m e := by
  have hlow := Nat.log2_self_le (Nat.ne_of_gt hm)
  have hhigh := @Nat.lt_log2_self m
  have hplaces := places_eq m e
  generalize places m e = k at hplaces ⊢
  generalize m.log2 = l at *
  refine ⟨?_, ?_, by omega⟩
  · refine Nat.div_pos (Nat.le_trans (Nat.pow_le_pow_right (by decide) ?_) hlow) (Nat.two_pow_pos k)
    omega
  · rw [Nat.div_lt_iff_lt_mul (Nat.two_pow_pos k), ← Nat.pow_add]
    refine Nat.lt_of_lt_of_le hhigh (Nat.pow_le_pow_right (by decide) ?_)
    omega

/-- A shift to the right exponent, with what it leaves of the mantissa. -/
theorem shiftToTargetExponent_eq (m : Nat) (e : Int) (a : Accuracy) :
    ∃ em, shiftToTargetExponent Format.binary64 m e a = (em, e + places m e) ∧
      em.mantissa = m / 2 ^ places m e := by
  refine ⟨_, rfl, ?_⟩
  rw [mantissa_shift, mantissa_ofMantissaAndAccuracy]
  rfl

theorem rounds_positive {m : Nat} {e : Int} (hm : 0 < m) (he : -1074 ≤ e + m.log2) (a : Accuracy) :
    ∃ m' e' h, roundWithAccuracy Format.binary64 .positive m e a = .finite .positive m' e' h ∧
      m' < 2 ^ 53 ∧ -1074 ≤ e' := by
  obtain ⟨em, hshift, hmantissa⟩ := shiftToTargetExponent_eq m e a
  obtain ⟨hpos, _, hexponent⟩ := shifted_bounds hm he
  have hrounded : 0 < em.roundedMantissa :=
    Nat.lt_of_lt_of_le (hmantissa ▸ hpos) (mantissa_le_rounded em)
  -- Rounding may carry into one more place, so there is a second shift.
  obtain ⟨em', hshift', hmantissa'⟩ :=
    shiftToTargetExponent_eq em.roundedMantissa (e + places m e) .exact
  obtain ⟨hpos', hlt', hexponent'⟩ :=
    shifted_bounds (e := e + places m e) hrounded (by omega)
  rw [← hmantissa'] at hpos' hlt'
  refine ⟨em'.mantissa, _, hpos', ?_, hlt', hexponent'⟩
  rw [roundWithAccuracy, hshift]
  dsimp only
  rw [hshift']
  dsimp only
  rw [dif_neg (Nat.ne_of_gt hpos')]

/-! ## Packing -/

/-- Bits with a positive sign that are neither those of zero nor of what is no number. -/
theorem isPositive_unpack {exponent : BitVec 11} {mantissa : BitVec 52}
    (hzero : exponent ≠ 0#11 ∨ mantissa ≠ 0#52) (hnan : exponent = -1#11 → mantissa = 0#52) :
    IsPositive (UnpackedFloat.unpack Format.binary64
      (packComponents Format.binary64 .positive exponent mantissa)) := by
  unfold UnpackedFloat.unpack
  simp only [unpackMantissa_packComponents, unpackExponent_packComponents,
    unpackSign_packComponents]
  split
  · next h =>
      rw [if_pos (hnan h)]
      trivial
  · split
    · next h =>
        rw [dif_neg (hzero.resolve_left (not_not_intro h))]
        trivial
    · trivial

theorem ofNat_ne_zero {w n : Nat} (hn : 0 < n) (hlt : n < 2 ^ w) : BitVec.ofNat w n ≠ 0#w := by
  intro h
  have hvalue := congrArg BitVec.toNat h
  rw [BitVec.toNat_ofNat, BitVec.toNat_zero, Nat.mod_eq_of_lt hlt] at hvalue
  omega

theorem isPositive_unpack_pack {m : Nat} {e : Int} (hm : 0 < m) (hlt : m < 2 ^ 53)
    (he : -1074 ≤ e) :
    IsPositive (Float.Model.pack (.finite .positive m e hm)).unpack := by
  show IsPositive (UnpackedFloat.unpack _ (UnpackedFloat.pack _ (.finite .positive m e hm)))
  have hfield : 0 < (e + 1023 + 52).toNat := by omega
  unfold UnpackedFloat.pack
  dsimp only
  split
  · exact isPositive_unpack (.inl (by decide)) fun _ => rfl
  · next hsmall =>
      have hlarge : (e + 1023 + 52).toNat + 1 < 2 ^ 11 := Nat.lt_of_not_le hsmall
      split
      · refine isPositive_unpack (.inl (ofNat_ne_zero hfield (Nat.lt_of_succ_lt hlarge))) ?_
        intro h
        have hvalue : (BitVec.ofNat 11 (e + 1023 + 52).toNat).toNat = 2 ^ 11 - 1 :=
          congrArg BitVec.toNat h
        rw [BitVec.toNat_ofNat, Nat.mod_eq_of_lt (Nat.lt_of_succ_lt hlarge)] at hvalue
        omega
      · next hlog =>
          have hshort : m < 2 ^ 52 := by
            rw [← Nat.log2_lt (Nat.ne_of_gt hm)]
            have hle : m.log2 < 53 := (Nat.log2_lt (Nat.ne_of_gt hm)).mpr hlt
            have hne : m.log2 + 1 ≠ 53 := hlog
            omega
          exact isPositive_unpack (.inr (ofNat_ne_zero hm hshort)) nofun

/-- Numbers that come from bits are not below the least positive one. -/
theorem exponent_unpack {x : Float.Model} {sign : Sign} {m : Nat} {e : Int} {hm : 0 < m}
    (h : x.unpack = .finite sign m e hm) : -1074 ≤ e := by
  unfold Float.Model.unpack UnpackedFloat.unpack at h
  dsimp only at h
  split at h
  · split at h <;> cases h
  · split at h
    · split at h
      · cases h
      · next hzero _ =>
          cases h
          rw [hzero]
          decide
    · next hzero =>
        cases h
        have hbias : ((Format.binary64.exponentBias : Nat) : Int) = 1023 := rfl
        have hpos := BitVec.toNat_ne.mp hzero
        rw [hbias]
        simp only [BitVec.toNat_zero] at hpos
        omega

/-! ## Lengths -/

theorem isPositive_round {m : Nat} {e : Int} (hm : 0 < m) (he : -1074 ≤ e + m.log2) (a : Accuracy) :
    IsPositive (Float.Model.pack
      (roundWithAccuracy Format.binary64 .positive m e a)).unpack := by
  obtain ⟨m', e', hpos, hround, hlt, hexponent⟩ := rounds_positive hm he a
  rw [hround]
  exact isPositive_unpack_pack hpos hlt hexponent

theorem shiftLeft_pos {m : Nat} (hm : 0 < m) (k : Nat) : 0 < m <<< k := by
  rw [Nat.shiftLeft_eq]
  exact Nat.mul_pos hm (Nat.two_pow_pos k)

/-- One with all the places that a mantissa has. -/
theorem unpack_one : (1.0 : Float).toModel.unpack =
    .finite .positive (2 ^ 52) (-52) (Nat.two_pow_pos 52) := rfl

theorem isPositive_mul_one {x : Float} (h : IsPositive x.toModel.unpack) :
    IsPositive (x * 1.0).toModel.unpack := by
  show IsPositive (Float.Model.pack (UnpackedFloat.mul Format.binary64 x.toModel.unpack
    (1.0 : Float).toModel.unpack)).unpack
  rw [unpack_one]
  cases hx : x.toModel.unpack with
  | notANumber => rw [hx] at h; exact h.elim
  | zero sign => rw [hx] at h; exact h.elim
  | infinity sign =>
      rw [hx] at h
      cases sign with
      | negative => exact h.elim
      | positive => exact isPositive_unpack (.inl (by decide)) fun _ => rfl
  | finite sign m e hm =>
      rw [hx] at h
      cases sign with
      | negative => exact h.elim
      | positive =>
          have he := exponent_unpack hx
          have hpos : 0 < m * 2 ^ 52 := Nat.mul_pos hm (Nat.two_pow_pos 52)
          have hlog : 52 ≤ (m * 2 ^ 52).log2 :=
            (Nat.le_log2 (Nat.ne_of_gt hpos)).mpr (Nat.le_mul_of_pos_left _ hm)
          exact isPositive_round hpos (by omega) .exact

theorem isPositive_toFloat {n : UInt64} (hn : 0 < n.toNat) :
    IsPositive n.toFloat.toModel.unpack := by
  show IsPositive (Float.Model.pack
    (UnpackedFloat.normalize Format.binary64 (n.toNat : Int) 0 .positive)).unpack
  have hcompare : compare (n.toNat : Int) 0 = .gt := Int.compare_eq_gt.mpr (by omega)
  rw [UnpackedFloat.normalize, hcompare]
  have hplaces := Int.le_max_right ((n.toNat.log2 : Int) + 1 + 0 - 53) (-1074)
  refine isPositive_round
    (e := 0 - ((0 - max ((n.toNat.log2 : Int) + 1 + 0 - 53) (-1074)).toNat : Int))
    (shiftLeft_pos hn _) ?_ .exact
  omega

theorem isPositive_ofNat {n : Nat} (hn : 0 < n) : IsPositive (Float.ofNat n).toModel.unpack := by
  have hne : n ≠ 0 := Nat.ne_of_gt hn
  show IsPositive (Float.ofScientific n false 0).toModel.unpack
  unfold Float.ofScientific
  split
  · next h =>
      have hword : n.toUInt64.toNat = n := Nat.mod_eq_of_lt (Nat.lt_trans h.1 (by decide))
      exact isPositive_mul_one (isPositive_toFloat (by rw [hword]; exact hn))
  · show IsPositive (Float.Model.pack (UnpackedFloat.ofScientific Format.binary64 n 0)).unpack
    have hsmall : ¬ (0 : Int) < -((2 ^ Format.binary64.exponentBits : Int) + n.log2) := by
      have hpow : (2 ^ Format.binary64.exponentBits : Int) = 2048 := rfl
      omega
    have hpos : 0 < n <<< Format.binary64.mantissaBits * 10 ^ (0 : Int).toNat :=
      Nat.mul_pos (shiftLeft_pos hn _) (Nat.pow_pos (by decide))
    rw [UnpackedFloat.ofScientific, dif_neg hne, if_neg (by decide), if_neg hsmall,
      if_pos (Int.le_refl 0), UnpackedFloat.mul]
    refine isPositive_round hpos ?_ .exact
    have hexponent : -(Format.binary64.mantissaBits : Int) + 0 = -53 := rfl
    omega

theorem zero_div_of_isPositive {x : Float} (h : IsPositive x.toModel.unpack) :
    Float.ofNat 0 / x = Float.ofNat 0 := by
  have hzero : (Float.ofNat 0).toModel.unpack = .zero .positive := rfl
  have hpack : (⟨Float.Model.pack (.zero .positive)⟩ : Float) = Float.ofNat 0 := by decide +kernel
  have hdiv : UnpackedFloat.div Format.binary64 (.zero .positive) x.toModel.unpack =
      .zero .positive := by
    revert h
    rcases x.toModel.unpack with (_ | _) | _ | _ | ⟨_ | _, _, _, _⟩ <;>
      first
      | exact fun _ => rfl
      | exact False.elim
  show (⟨Float.Model.pack (UnpackedFloat.div Format.binary64 (Float.ofNat 0).toModel.unpack
    x.toModel.unpack)⟩ : Float) = _
  rw [hzero, hdiv, hpack]

theorem one_sub_zero_div_ofNat {n : Nat} (hn : 0 < n) :
    1.0 - Float.ofNat 0 / Float.ofNat n = 1.0 := by
  rw [zero_div_of_isPositive (isPositive_ofNat hn)]
  decide +kernel

/-- Sequences at distance zero are alike. -/
theorem Sequence.similarity_of_editDistance {α : Type} [DecidableEq α] {xs ys : List α}
    (h : editDistance xs ys = 0) : similarity xs ys = 1.0 := by
  unfold similarity
  dsimp only
  split
  · rfl
  · next hlong =>
      rw [h]
      exact one_sub_zero_div_ofNat (Nat.pos_of_ne_zero hlong)

end WidgetShorthand
