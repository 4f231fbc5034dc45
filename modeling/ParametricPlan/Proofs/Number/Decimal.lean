/-
ParametricPlan/Proofs/Number/Decimal.lean

Decimals of one value have one rank.

The rank of a decimal is that of the double nearest to it.  `Decimal.rank` follows an exponent only
as far as it makes a difference; here is shown that it makes none beyond that, so that the rank is
the rank of the exact ratio (`rank_eq_rankOfRatio`).  A decimal may then be written with more zeros
and a smaller exponent, or with fewer (`rank_mul_ten_pow`).
-/
import ParametricPlan.Number.Decimal

namespace ParametricPlan

namespace Binary64

/-! ### Ratios -/

/-- Equal ratios have equal ranks. -/
theorem rankOfRatio_congr {num den num' den' : Nat} (h : num * den' = num' * den) (hden : 0 < den)
    (hden' : 0 < den') : rankOfRatio num den = rankOfRatio num' den' := by
  calc rankOfRatio num den = rankOfRatio (num * den') (den * den') :=
        (rankOfRatio_mul num den hden').symm
    _ = rankOfRatio (num' * den) (den' * den) := by rw [h, Nat.mul_comm den den']
    _ = rankOfRatio num' den' := rankOfRatio_mul num' den' hden

/-- What has so many binary digits is rounded to infinity. -/
theorem rankOfRatio_eq_infinityRank {num n : Nat} (h : 2 ^ n ≤ num) (hn : 2099 ≤ n) :
    rankOfRatio num 1 = infinityRank := by
  have hne : num ≠ 0 := Nat.ne_of_gt (Nat.lt_of_lt_of_le (Nat.two_pow_pos n) h)
  have hlog : n ≤ num.log2 := (Nat.le_log2 hne).mpr h
  simp only [rankOfRatio, Nat.div_one, infinityRank]
  omega

/-- What is less than half a unit is rounded to zero. -/
theorem rankOfRatio_eq_zero {num den : Nat} (h : 2 * num < den) : rankOfRatio num den = 0 := by
  have hdiv : num / den = 0 := Nat.div_eq_of_lt (by omega)
  have hmod : num % den = num := Nat.mod_eq_of_lt (by omega)
  simp [rankOfRatio, divNearest, hdiv, hmod, h]

end Binary64

open Binary64

namespace Decimal

/-! ### Long exponents -/

/-- Each decimal place is worth three binary digits at least. -/
theorem two_pow_le_ten_pow (n : Nat) : 2 ^ (3 * n) ≤ 10 ^ n := by
  rw [Nat.pow_mul]
  exact Nat.pow_le_pow_left (by decide) n

theorem unitPlaces_eq : unitPlaces = 1074 :=
  rfl

/-- Beyond 400 places there is no difference: the digits are zero or make an infinity. -/
theorem rank_of_nonneg (digits e : Nat) :
    rank ⟨digits, .ofNat e⟩ = rankOfRatio (digits * 10 ^ e * 2 ^ unitPlaces) 1 := by
  show rankOfRatio (digits * 10 ^ min e 400 * 2 ^ unitPlaces) 1 = _
  by_cases he : e ≤ 400
  · rw [Nat.min_eq_left he]
  rw [Nat.min_eq_right (by omega)]
  by_cases h0 : digits = 0
  · simp only [h0, Nat.zero_mul]
  · -- both are beyond the largest finite number
    have hlarge : ∀ n, 400 ≤ n →
        rankOfRatio (digits * 10 ^ n * 2 ^ unitPlaces) 1 = infinityRank := by
      intro n hn
      have hlong : 2099 ≤ 3 * n + unitPlaces := by
        rw [unitPlaces_eq]
        omega
      refine rankOfRatio_eq_infinityRank ?_ hlong
      calc 2 ^ (3 * n + unitPlaces) = 2 ^ (3 * n) * 2 ^ unitPlaces := Nat.pow_add 2 _ _
        _ ≤ 1 * 10 ^ n * 2 ^ unitPlaces := by
            rw [Nat.one_mul]
            exact Nat.mul_le_mul_right _ (two_pow_le_ten_pow n)
        _ ≤ digits * 10 ^ n * 2 ^ unitPlaces :=
            Nat.mul_le_mul_right _ (Nat.mul_le_mul_right _ (by omega))
    rw [hlarge 400 (Nat.le_refl _), hlarge e (by omega)]

/-- Far enough behind the point there is no difference, since what is left is rounded to zero. -/
theorem rank_of_neg (digits e : Nat) :
    rank ⟨digits, .negSucc e⟩ = rankOfRatio (digits * 2 ^ unitPlaces) (10 ^ (e + 1)) := by
  show rankOfRatio (digits * 2 ^ unitPlaces) (10 ^ min (e + 1) (digits.log2 + 400)) = _
  by_cases he : e + 1 ≤ digits.log2 + 400
  · rw [Nat.min_eq_left he]
  · rw [Nat.min_eq_right (by omega)]
    -- both are nearer to zero than to the least positive number
    have hsmall : ∀ n, digits.log2 + 400 ≤ n →
        rankOfRatio (digits * 2 ^ unitPlaces) (10 ^ n) = 0 := by
      intro n hn
      refine rankOfRatio_eq_zero ?_
      have hdigits : digits < 2 ^ (digits.log2 + 1) := Nat.lt_log2_self
      -- each of the 400 places beyond the digits is worth three of the 1074 digits of a unit
      have hlong : digits.log2 + 1 + unitPlaces + 1 ≤ 3 * n := by
        rw [unitPlaces_eq]
        omega
      calc 2 * (digits * 2 ^ unitPlaces)
          < 2 * (2 ^ (digits.log2 + 1) * 2 ^ unitPlaces) :=
            Nat.mul_lt_mul_of_pos_left
              (Nat.mul_lt_mul_of_pos_right hdigits (Nat.two_pow_pos _)) (by decide)
        _ = 2 ^ (digits.log2 + 1 + unitPlaces + 1) := by rw [← Nat.pow_add, ← Nat.pow_add_one']
        _ ≤ 2 ^ (3 * n) := Nat.pow_le_pow_right (by decide) hlong
        _ ≤ 10 ^ n := two_pow_le_ten_pow n
    rw [hsmall _ (Nat.le_refl _), hsmall _ (by omega)]

/-- The rank of a decimal is that of its exact value. -/
theorem rank_eq_rankOfRatio (d : Decimal) :
    d.rank = rankOfRatio (d.digits * 10 ^ d.exponent.toNat * 2 ^ unitPlaces)
      (10 ^ (-d.exponent).toNat) := by
  -- one of the two powers of ten is 1, by the sign of the exponent
  obtain ⟨digits, e | e⟩ := d
  · have hneg : (-(Int.ofNat e)).toNat = 0 := by simp
    rw [rank_of_nonneg, hneg]
    rfl
  · have hpos : (Int.negSucc e).toNat = 0 := rfl
    have hneg : (-(Int.negSucc e)).toNat = e + 1 := rfl
    rw [rank_of_neg, hpos, hneg, Nat.pow_zero, Nat.mul_one]

/-- A zero has rank zero, whatever its exponent is. -/
theorem rank_zero_digits (e : Int) : rank ⟨0, e⟩ = 0 := by
  rw [rank_eq_rankOfRatio]
  refine rankOfRatio_eq_zero ?_
  simp only [Nat.zero_mul, Nat.mul_zero]
  exact Nat.pow_pos (by decide)

/-! ### Zeros at the end -/

/-- **Zeros at the end of the digits are the same as a larger exponent.** -/
theorem rank_mul_ten_pow (digits k : Nat) (e : Int) :
    rank ⟨digits * 10 ^ k, e⟩ = rank ⟨digits, e + k⟩ := by
  rw [rank_eq_rankOfRatio, rank_eq_rankOfRatio]
  refine rankOfRatio_congr ?_ (Nat.pow_pos (by decide)) (Nat.pow_pos (by decide))
  -- both ratios have the same places once their terms are crossed
  have hplaces : k + e.toNat + (-(e + k)).toNat = (e + k).toNat + (-e).toNat := by omega
  show digits * 10 ^ k * 10 ^ e.toNat * 2 ^ unitPlaces * 10 ^ (-(e + k)).toNat =
    digits * 10 ^ (e + k).toNat * 2 ^ unitPlaces * 10 ^ (-e).toNat
  calc digits * 10 ^ k * 10 ^ e.toNat * 2 ^ unitPlaces * 10 ^ (-(e + k)).toNat
      = digits * 2 ^ unitPlaces * (10 ^ k * 10 ^ e.toNat * 10 ^ (-(e + k)).toNat) := by
        simp only [Nat.mul_assoc, Nat.mul_left_comm]
    _ = digits * 2 ^ unitPlaces * (10 ^ (e + k).toNat * 10 ^ (-e).toNat) := by
        rw [← Nat.pow_add, ← Nat.pow_add, ← Nat.pow_add, hplaces]
    _ = digits * 10 ^ (e + k).toNat * 2 ^ unitPlaces * 10 ^ (-e).toNat := by
        simp only [Nat.mul_assoc, Nat.mul_left_comm]

end Decimal
end ParametricPlan
