/-
ParametricPlan/Proofs/Number/Word.lean

A number and its word.

The sign bit and the rank are all of a number (`ofRank_rank`), and beyond the infinite rank there
is one NaN only (`eq_nan_of_infinityRank_lt`), so that any two NaNs are one number (`eq_of_isNaN`).
Two numbers are equal if they are one number, or the two zeros, and neither is the NaN
(`beq_iff_eq_or_zeros`).

The laws of `Float` that all of this rests on come with Mathlib as a whole and with no smaller part
of it; this is the one module that needs them.
-/
import Mathlib
import ParametricPlan.Number.Binary64

namespace ParametricPlan.Binary64

open Float.Model UnpackedFloat

variable {x y : Float}

/-! ### Ranks -/

/-- Beyond the infinities there is one word of a NaN only. -/
theorem eq_packedNaN_of_infinityRank_lt {b : BitVec Format.binary64.numBits}
    (hvalid : Format.binary64.Valid b) (h : infinityRank < b.toNat % 2 ^ 63) :
    b = packedNaN .binary64 := by
  rw [infinityRank] at h
  refine hvalid.eq_packedNaN ?_ fun hzero => ?_
  · -- all bits of the exponent are set
    refine BitVec.eq_of_toNat_eq ?_
    rw [unpackExponent_def, BitVec.extractLsb'_toNat, Nat.shiftRight_eq_div_pow]
    show b.toNat / 2 ^ 52 % 2 ^ 11 = 2047
    omega
  · -- and some bit of the mantissa is, or else the rank would be infinite
    have hmantissa := congrArg BitVec.toNat hzero
    rw [unpackMantissa_def, BitVec.extractLsb'_toNat, Nat.shiftRight_zero] at hmantissa
    have hnone : b.toNat % 2 ^ 52 = 0 := hmantissa
    omega

/-- Beyond the infinities there is one NaN only. -/
theorem eq_nan_of_infinityRank_lt (h : infinityRank < rank x) : x = nan :=
  Float.toBits_inj.mp (UInt64.toBitVec_inj.mp (eq_packedNaN_of_infinityRank_lt x.toModel.valid h))

/-- The sign bit and the rank of a number give back the number. -/
theorem ofRank_rank (x : Float) : ofRank (isNegative x) (rank x) = x := by
  have hlt : x.toBits.toNat < 2 ^ 64 := x.toBits.toNat_lt
  -- the sign is the highest of the 64 bits, and the rank is the rest
  have hword : (if isNegative x then 2 ^ 63 + rank x else rank x) = x.toBits.toNat := by
    simp only [isNegative, rank, decide_eq_true_eq]
    split <;> omega
  rw [ofRank, hword, UInt64.ofNat_toNat, Float.ofBits_toBits]

/-- Numbers are told by their words. -/
theorem eq_of_toBits_eq (h : x.toBits = y.toBits) : x = y :=
  Float.toBits_inj.mp h

/-! ### NaNs and zeros -/

/-- There is only one NaN. -/
theorem eq_of_isNaN (hx : x.isNaN = true) (hy : y.isNaN = true) : x = y := by
  rw [Float.isNaN_eq_decide_eq_nan, decide_eq_true_eq] at hx hy
  rw [hx, hy]

/-- What is not a NaN is unpacked as an infinity, a zero or a finite number. -/
theorem isNaN_eq_false_iff : x.isNaN = false ↔ x.toModel.unpack ≠ .notANumber := by
  rw [ne_eq, ← UnpackedFloat.isNaN_iff, Bool.not_eq_true]
  rfl

/-- Equal numbers are one number, or the two zeros. -/
theorem beq_iff_eq_or_zeros : (x == y) = true ↔
    x.isNaN = false ∧ y.isNaN = false ∧ (x = y ∨ x = 0 ∧ y = -0 ∨ x = -0 ∧ y = 0) := by
  rw [Float.beq_iff_ne_nan_and_eq, Float.isNaN_eq_decide_eq_nan, Float.isNaN_eq_decide_eq_nan,
    decide_eq_false_iff_not, decide_eq_false_iff_not]

end ParametricPlan.Binary64
