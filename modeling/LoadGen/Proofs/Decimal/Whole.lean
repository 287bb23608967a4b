import Mathlib

/-!
# Whole numbers as doubles

A whole number that is not too large is read as a finite double.  It is rounded and packed, then
multiplied by one, and rounded and packed again; at every stage the exponent stays far below the
largest one.

* `Within` — a number that is finite and whose exponent is bounded.
* `within_roundWithAccuracy` — rounding raises the exponent by a bounded number of bits.
* `within_unpack_pack` — packing and unpacking does not raise it.
* `isFinite_ofInt` — whole numbers below `2 ^ 53` are finite doubles.
-/

namespace LoadGen
namespace Decimal

open Float.Model
open Float.Model.UnpackedFloat

/-- A number that is finite and whose exponent does not exceed a bound. -/
def Within (bound : Int) : UnpackedFloat → Prop
  | .zero _ => True
  | .finite _ _ e _ => e ≤ bound
  | _ => False

theorem Within.isFinite {bound : Int} {f : UnpackedFloat} (h : Within bound f) :
    f.isFinite = true := by
  cases f with
  | zero | finite => rfl
  | infinity | notANumber => exact absurd h id

/-! ## Rounding -/

theorem mantissa_shiftRight_le (em : ExtendedMantissa) (n : Nat) :
    (em >>> n).mantissa ≤ em.mantissa := by
  show (n.repeat ExtendedMantissa.shiftRightOne em).mantissa ≤ em.mantissa
  induction n with
  | zero => exact Nat.le_refl _
  | succ n ih => exact Nat.le_trans (Nat.div_le_self _ 2) ih

theorem mantissa_ofMantissaAndAccuracy (m : Nat) (accuracy : Accuracy) :
    (ExtendedMantissa.ofMantissaAndAccuracy m accuracy).mantissa = m := by
  unfold ExtendedMantissa.ofMantissaAndAccuracy
  split <;> rfl

theorem roundedMantissa_le (em : ExtendedMantissa) : em.roundedMantissa ≤ em.mantissa + 1 := by
  unfold ExtendedMantissa.roundedMantissa Accuracy.roundToNearestEven
  split <;> omega

/-- Moving a mantissa of up to 106 bits to the exponent that suits it. -/
theorem shiftToTargetExponent_le {m : Nat} {e bound : Int} (accuracy : Accuracy)
    (hm : m < 2 ^ 106) (he : e ≤ bound) (hlow : -1074 ≤ bound) :
    (shiftToTargetExponent Format.binary64 m e accuracy).1.mantissa ≤ m ∧
      (shiftToTargetExponent Format.binary64 m e accuracy).2 ≤ bound + 53 := by
  have hlog : m.log2 < 106 := by
    rcases Nat.eq_zero_or_pos m with rfl | hpos
    · decide
    · exact (Nat.log2_lt (Nat.ne_of_gt hpos)).2 hm
  refine ⟨Nat.le_trans (mantissa_shiftRight_le _ _) ?_, ?_⟩
  · exact Nat.le_of_eq (mantissa_ofMantissaAndAccuracy m accuracy)
  · simp only [shiftToTargetExponent, shiftToExponent, Format.targetExponent, totalExponent,
      Format.mantissaBits, Format.minExponent]
    omega

/-- Rounding moves a mantissa twice, the second time after a carry. -/
theorem within_roundWithAccuracy (sign : Sign) {m : Nat} {e bound : Int} (hm : m < 2 ^ 105)
    (he : e ≤ bound) (hlow : -1074 ≤ bound) :
    Within (bound + 106) (roundWithAccuracy Format.binary64 sign m e .exact) := by
  obtain ⟨hfirst, hexponent⟩ :=
    shiftToTargetExponent_le .exact (Nat.lt_trans hm (by decide)) he hlow
  have hrounded := roundedMantissa_le (shiftToTargetExponent Format.binary64 m e .exact).1
  obtain ⟨-, hfinal⟩ := shiftToTargetExponent_le .exact
    (m := (shiftToTargetExponent Format.binary64 m e .exact).1.roundedMantissa)
    (by omega) hexponent (by omega)
  unfold roundWithAccuracy
  simp only
  split
  · trivial
  · show (shiftToTargetExponent _ _ _ _).2 ≤ _
    omega

/-- A whole number of up to 53 bits is rounded to a number with a small exponent. -/
theorem within_ofNat {n : Nat} (hn : n < 2 ^ 53) :
    Within 106 (UnpackedFloat.ofNat Format.binary64 n) := by
  rcases Nat.eq_zero_or_pos n with rfl | hpos
  · trivial
  have hcompare : compare (n : Int) 0 = .gt := by
    simp only [compare, compareOfLessAndEq]
    rw [if_neg (by omega), if_neg (by omega)]
  have hlog : n.log2 < 53 := (Nat.log2_lt (Nat.ne_of_gt hpos)).2 hn
  unfold UnpackedFloat.ofNat UnpackedFloat.ofInt UnpackedFloat.normalize
  rw [hcompare]
  -- The mantissa is filled up with zeros from below.
  have hshift : (0 - Format.binary64.targetExponent (totalExponent n 0)).toNat ≤ 52 := by
    simp only [Format.targetExponent, totalExponent, Format.mantissaBits, Format.minExponent]
    omega
  simp only [UnpackedFloat.round, decreaseExponent, Int.toNat_natCast]
  generalize (0 - Format.binary64.targetExponent (totalExponent n 0)).toNat = shift at hshift ⊢
  refine within_roundWithAccuracy .positive ?_ (show (0 : Int) - shift ≤ 0 by omega) (by decide)
  calc n <<< shift = n * 2 ^ shift := Nat.shiftLeft_eq n shift
    _ ≤ n * 2 ^ 52 := Nat.mul_le_mul_left n (Nat.pow_le_pow_right (by decide) hshift)
    _ < 2 ^ 105 := by omega

/-! ## Packing -/

/-- What a packed number stands for, by its exponent field. -/
theorem within_unpack {b : BitVec Format.binary64.numBits} {bound : Int}
    (hexponent : ((unpackExponent b).toNat : Int) ≤ bound + 1075) (hlow : -1074 ≤ bound)
    (hhigh : bound ≤ 900) : Within bound (unpack Format.binary64 b) := by
  have hfinite : unpackExponent b ≠ -1#11 := by
    intro hall
    rw [hall] at hexponent
    have hfield : ((-1#11 : BitVec 11).toNat : Int) = 2047 := by decide
    omega
  have hbias : (Format.binary64.exponentBias : Int) = 1023 := by decide
  unfold UnpackedFloat.unpack
  simp only
  rw [if_neg hfinite]
  split
  · rename_i hzero
    split
    · trivial
    · show _ - _ + 1 ≤ bound
      rw [hzero, hbias]
      simp only [BitVec.toNat_ofNat, Nat.zero_mod, Int.cast_ofNat_Int]
      omega
  · show _ - _ ≤ bound
    rw [hbias]
    simp only [Int.cast_ofNat_Int]
    omega

theorem mantissa_unpack_lt {b : BitVec Format.binary64.numBits} {sign : Sign} {m : Nat} {e : Int}
    {hm : 0 < m} (h : unpack Format.binary64 b = .finite sign m e hm) : m < 2 ^ 53 := by
  unfold UnpackedFloat.unpack at h
  simp only at h
  split at h
  · split at h <;> cases h
  · split at h
    · split at h
      · cases h
      · cases h
        exact Nat.lt_trans (BitVec.isLt _) (by decide)
    · cases h
      exact BitVec.isLt _

/-- A number with a small exponent is packed as it is, unless its exponent is too small. -/
theorem within_unpack_pack {f : UnpackedFloat} {bound : Int} (h : Within bound f)
    (hlow : -1074 ≤ bound) (hhigh : bound ≤ 900) :
    Within bound (unpack Format.binary64 (pack Format.binary64 f)) := by
  have hbias : (Format.binary64.exponentBias : Int) = 1023 := by decide
  cases f with
  | infinity | notANumber => exact absurd h id
  | zero sign =>
      refine within_unpack ?_ hlow hhigh
      rw [UnpackedFloat.pack, packedZero, unpackExponent_packComponents]
      simp only [BitVec.ofNat_eq_ofNat, BitVec.toNat_ofNat, Nat.zero_mod, Int.cast_ofNat_Int]
      omega
  | finite sign m e hm =>
      have he : e ≤ bound := h
      refine within_unpack ?_ hlow hhigh
      unfold UnpackedFloat.pack
      simp only
      have hfits : ¬ 2 ^ 11 ≤ (e + 1023 + ((52 : Nat) : Int)).toNat + 1 := by omega
      rw [hbias, if_neg hfits]
      split
      · rw [unpackExponent_packComponents, BitVec.toNat_ofNat]
        have hle := Nat.mod_le (e + 1023 + ((52 : Nat) : Int)).toNat (2 ^ 11)
        omega
      · rw [unpackExponent_packComponents]
        simp only [BitVec.toNat_ofNat, Nat.zero_mod, Int.cast_ofNat_Int]
        omega

/-! ## Whole numbers -/

/-- A number with a small exponent stays so when it is multiplied by one. -/
theorem within_mul_one {a : Float.Model} {bound : Int} (h : Within bound a.unpack)
    (hlow : -1022 ≤ bound) :
    Within (bound + 54)
      (mul Format.binary64 a.unpack (Float.ofBits 0x3FF0000000000000).toModel.unpack) := by
  have hone : (Float.ofBits 0x3FF0000000000000).toModel.unpack =
      .finite .positive (2 ^ 52) (-52) (by decide) := by
    rfl
  rw [hone]
  cases hunpack : a.unpack with
  | infinity | notANumber =>
      rw [hunpack] at h
      exact absurd h id
  | zero sign => trivial
  | finite sign m e hm =>
      rw [hunpack] at h
      have he : e ≤ bound := h
      have hmantissa : m < 2 ^ 53 := mantissa_unpack_lt hunpack
      have hproduct := within_roundWithAccuracy (sign * .positive)
        (show m * 2 ^ 52 < 2 ^ 105 by omega) (show e + -52 ≤ bound - 52 by omega) (by omega)
      have hbound : bound + 54 = bound - 52 + 106 := by omega
      rw [hbound]
      exact hproduct

/-- Whole numbers below `2 ^ 53` are finite doubles. -/
theorem isFinite_ofInt {n : Nat} (hn : n < 2 ^ 53) : (Float.ofInt n).isFinite = true := by
  have hplain : Float.ofInt n =
      n.toUInt64.toFloat * Float.ofBits 0x3FF0000000000000 := by
    show Float.ofScientific n false 0 = _
    rw [Float.ofScientific, dif_pos ⟨hn, by decide⟩]
    rfl
  have hword : n.toUInt64.toNat = n := Nat.mod_eq_of_lt (Nat.lt_trans hn (by decide))
  have hnumber : Within 106 n.toUInt64.toFloat.toModel.unpack := by
    show Within 106 (UnpackedFloat.unpack Format.binary64 (UnpackedFloat.pack Format.binary64
      (UnpackedFloat.ofNat Format.binary64 n.toUInt64.toNat)))
    rw [hword]
    exact within_unpack_pack (within_ofNat hn) (by decide) (by decide)
  rw [hplain]
  exact (within_unpack_pack (within_mul_one hnumber (by decide)) (by decide) (by decide)).isFinite

end Decimal
end LoadGen
