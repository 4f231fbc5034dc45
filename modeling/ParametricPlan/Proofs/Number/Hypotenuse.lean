/-
ParametricPlan/Proofs/Number/Hypotenuse.lean

The long side of a right triangle is rounded correctly.

Between two neighbouring ranks lies a midpoint, and a root is nearest to a rank if it lies between
the midpoints on both sides of the rank; at a midpoint the even one of the two neighbours counts as
the nearest (`NearestRoot`).  All of this is said of squares of whole numbers, since twice a
midpoint is the sum of the units of its neighbours and four times the square of the root is four
times the number that the root is taken of.

`rankOfRoot` takes an integer root first, at a weight that leaves it 53 binary digits or fewer
(`scaledRoot_rankOfRoot`).  At this weight the root lies between two neighbouring ranks, and one
comparison with the midpoint between them tells which of them is nearest
(`ScaledRoot.between_lower`, `ScaledRoot.between_upper`).  Main results: the rank of a root is
nearest to the root (`nearestRoot_rankOfRoot`), no other rank is (`NearestRoot.unique`), and the
hypotenuse of finite legs is the number of the rank nearest to it (`exists_hypotenuse_eq`).
-/
import Mathlib.Order.Monotone.Basic
import Mathlib.Tactic.Ring
import ParametricPlan.Number.Hypotenuse

namespace ParametricPlan.Binary64

/-! ### Integer roots -/

/-- The integer root is the last number whose square does not exceed `n`. -/
theorem sqrtFloor_bounds (n : Nat) :
    sqrtFloor n * sqrtFloor n ≤ n ∧ n < (sqrtFloor n + 1) * (sqrtFloor n + 1) := by
  fun_induction sqrtFloor n with
  | case1 => simp
  | case2 n _ root h ih =>
    -- twice the root of a quarter, and one more: the upper bound is four times that of the quarter
    refine ⟨h, ?_⟩
    have hn : n < 4 * ((sqrtFloor (n / 4) + 1) * (sqrtFloor (n / 4) + 1)) := by omega
    have hr : root + 1 + 1 = 2 * (sqrtFloor (n / 4) + 1) := by omega
    rw [hr]
    calc n < 4 * ((sqrtFloor (n / 4) + 1) * (sqrtFloor (n / 4) + 1)) := hn
      _ = 2 * (sqrtFloor (n / 4) + 1) * (2 * (sqrtFloor (n / 4) + 1)) := by
        rw [Nat.mul_mul_mul_comm]
  | case3 n _ root h ih =>
    -- one more is too much, and the lower bound is four times that of the quarter
    refine ⟨?_, by omega⟩
    have hn : 4 * (sqrtFloor (n / 4) * sqrtFloor (n / 4)) ≤ n := by omega
    calc root * root = 4 * (sqrtFloor (n / 4) * sqrtFloor (n / 4)) := Nat.mul_mul_mul_comm ..
      _ ≤ n := hn

/-- `root` is the integer root of `s` at the weight `2 ^ e`, of 53 digits unless `e` is zero. -/
structure ScaledRoot (s e root : Nat) : Prop where
  lower : root * root * 4 ^ e ≤ s
  upper : s < (root + 1) * (root + 1) * 4 ^ e
  small : root < 2 ^ 53
  large : e = 0 ∨ 2 ^ 52 ≤ root

/-- Squares of powers of two, at a weight. -/
theorem two_pow_mul_two_pow (k e : Nat) : 2 ^ k * 2 ^ k * 4 ^ e = 2 ^ (2 * k + 2 * e) := by
  rw [Nat.pow_add, Nat.pow_mul 2 2 e, ← Nat.pow_add, ← Nat.two_mul]

/-- The weight that a root is taken at leaves it 53 binary digits, or fewer if it is small. -/
theorem scaledRoot_rankOfRoot (s : Nat) :
    ScaledRoot s (s.log2 / 2 - 52) (sqrtFloor (s / 4 ^ (s.log2 / 2 - 52))) := by
  obtain ⟨hlower, hupper⟩ := sqrtFloor_bounds (s / 4 ^ (s.log2 / 2 - 52))
  have hlog : s < 2 ^ (s.log2 + 1) := Nat.lt_log2_self
  have hlog' : s ≠ 0 → 2 ^ s.log2 ≤ s := Nat.log2_self_le
  -- the integer root is used through its two bounds only
  generalize he : s.log2 / 2 - 52 = e at *
  generalize sqrtFloor (s / 4 ^ e) = root at *
  have hpos : 0 < 4 ^ e := Nat.pow_pos (by decide)
  rw [Nat.le_div_iff_mul_le hpos] at hlower
  rw [Nat.div_lt_iff_lt_mul hpos] at hupper
  refine ⟨hlower, hupper, ?_, ?_⟩
  · -- a larger root would have a square of too many digits
    by_contra hlarge
    have hsquare : 2 ^ 53 * 2 ^ 53 * 4 ^ e ≤ root * root * 4 ^ e :=
      Nat.mul_le_mul_right _ (Nat.mul_le_mul (by omega) (by omega))
    rw [two_pow_mul_two_pow] at hsquare
    have hdigits : 2 ^ (s.log2 + 1) ≤ 2 ^ (2 * 53 + 2 * e) :=
      Nat.pow_le_pow_right (by decide) (by omega)
    omega
  · -- a smaller one would have a square of too few digits, as long as the weight is not 1
    by_contra hsmall
    obtain ⟨hne, hroot⟩ := not_or.mp hsmall
    have hsquare : (root + 1) * (root + 1) * 4 ^ e ≤ 2 ^ 52 * 2 ^ 52 * 4 ^ e :=
      Nat.mul_le_mul_right _ (Nat.mul_le_mul (by omega) (by omega))
    rw [two_pow_mul_two_pow] at hsquare
    have hdigits : 2 ^ (2 * 52 + 2 * e) ≤ 2 ^ s.log2 :=
      Nat.pow_le_pow_right (by decide) (by omega)
    have hs : s ≠ 0 := by
      rintro rfl
      simp at he
      omega
    have := hlog' hs
    omega

/-! ### Units -/

/-- The units of a rank that is put together from an exponent and at most 53 digits.  If rounding
has carried into a further digit, the rank is one of the next exponent. -/
theorem units_scaled {e m : Nat} (hm : m ≤ 2 ^ 53) (he : e = 0 ∨ 2 ^ 52 ≤ m) :
    units (e * 2 ^ 52 + m) = m * 2 ^ e := by
  by_cases hsmall : m < 2 ^ 52
  · -- a number of fewer digits has no exponent
    obtain rfl : e = 0 := by omega
    rw [units, if_pos (by omega)]
    omega
  by_cases hcarry : m = 2 ^ 53
  · have hexponent : (e * 2 ^ 52 + m) / 2 ^ 52 - 1 = e + 1 := by omega
    have hdigits : 2 ^ 52 + (e * 2 ^ 52 + m) % 2 ^ 52 = 2 ^ 52 := by omega
    rw [units, if_neg (by omega), hexponent, hdigits, hcarry, Nat.pow_succ 2 e]
    omega
  · have hexponent : (e * 2 ^ 52 + m) / 2 ^ 52 - 1 = e := by omega
    have hdigits : 2 ^ 52 + (e * 2 ^ 52 + m) % 2 ^ 52 = m := by omega
    rw [units, if_neg (by omega), hexponent, hdigits]

/-- The next rank is of the same weight, or the first one of the next exponent. -/
theorem units_scaled_succ {e m : Nat} (hm : m < 2 ^ 53) (he : e = 0 ∨ 2 ^ 52 ≤ m) :
    units (e * 2 ^ 52 + m + 1) = (m + 1) * 2 ^ e := by
  rw [Nat.add_assoc]
  exact units_scaled (Nat.succ_le_of_lt hm) (he.imp_right Nat.le_succ_of_le)

/-- Every rank is put together in this way. -/
theorem exists_scaled (r : Nat) :
    ∃ e m, r = e * 2 ^ 52 + m ∧ m < 2 ^ 53 ∧ (e = 0 ∨ 2 ^ 52 ≤ m) := by
  by_cases hr : r < 2 ^ 52
  · exact ⟨0, r, by omega, by omega, .inl rfl⟩
  · exact ⟨r / 2 ^ 52 - 1, 2 ^ 52 + r % 2 ^ 52, by omega, by omega, .inr (by omega)⟩

/-- Larger ranks have larger magnitudes. -/
theorem units_lt_units_succ (r : Nat) : units r < units (r + 1) := by
  obtain ⟨e, m, rfl, hm, he⟩ := exists_scaled r
  rw [units_scaled hm.le he, units_scaled_succ hm he]
  exact Nat.mul_lt_mul_of_pos_right (Nat.lt_succ_self m) (Nat.two_pow_pos e)

/-! ### Midpoints -/

/-- Twice the midpoint between a rank and the next one, in units. -/
def twiceMidpoint (r : Nat) : Nat :=
  units r + units (r + 1)

/-- Midpoints come in the order of their ranks. -/
theorem twiceMidpoint_strictMono : StrictMono twiceMidpoint := by
  have hunits : StrictMono units := strictMono_nat_of_lt_succ units_lt_units_succ
  intro r r' h
  exact Nat.add_lt_add (hunits h) (hunits (Nat.succ_lt_succ h))

/-- Between two ranks of one weight the midpoint is at half of the weight. -/
theorem twiceMidpoint_scaled {e m : Nat} (hm : m < 2 ^ 53) (he : e = 0 ∨ 2 ^ 52 ≤ m) :
    twiceMidpoint (e * 2 ^ 52 + m) = (2 * m + 1) * 2 ^ e := by
  rw [twiceMidpoint, units_scaled hm.le he, units_scaled_succ hm he]
  ring

/-- The root of `s` lies between the midpoints on both sides of a rank, or is one of them if the
rank is even. -/
structure Between (s r : Nat) : Prop where
  below : ∀ p, p + 1 = r → twiceMidpoint p * twiceMidpoint p ≤ 4 * s ∧
    (twiceMidpoint p * twiceMidpoint p = 4 * s → r % 2 = 0)
  above : 4 * s ≤ twiceMidpoint r * twiceMidpoint r ∧
    (4 * s = twiceMidpoint r * twiceMidpoint r → r % 2 = 0)

/-- No rank is nearer to the root of `s`.  Beyond the infinite rank there is none. -/
structure NearestRoot (s r : Nat) : Prop where
  le_infinity : r ≤ infinityRank
  below : ∀ p, p + 1 = r → twiceMidpoint p * twiceMidpoint p ≤ 4 * s ∧
    (twiceMidpoint p * twiceMidpoint p = 4 * s → r % 2 = 0)
  above : r < infinityRank → 4 * s ≤ twiceMidpoint r * twiceMidpoint r ∧
    (4 * s = twiceMidpoint r * twiceMidpoint r → r % 2 = 0)

variable {s e root r r' : Nat}

theorem mul_two_pow_mul_self (m e : Nat) : m * 2 ^ e * (m * 2 ^ e) = m * m * 4 ^ e := by
  rw [Nat.mul_mul_mul_comm, ← Nat.mul_pow]

/-- The lower neighbour is the nearest if the root does not lie beyond the midpoint. -/
theorem ScaledRoot.between_lower (h : ScaledRoot s e root)
    (hmid : 4 * s ≤ (2 * root + 1) * (2 * root + 1) * 4 ^ e)
    (htie : 4 * s = (2 * root + 1) * (2 * root + 1) * 4 ^ e → root % 2 = 0) :
    Between s (e * 2 ^ 52 + root) where
  below p hp := by
    -- the root is at least the rank itself, which lies beyond the midpoint below
    have hunits : units p < root * 2 ^ e := by
      rw [← units_scaled h.small.le h.large, ← hp]
      exact units_lt_units_succ p
    have hlow : twiceMidpoint p < 2 * (root * 2 ^ e) := by
      rw [twiceMidpoint, hp, units_scaled h.small.le h.large]
      omega
    have hsquare : twiceMidpoint p * twiceMidpoint p < 4 * s :=
      calc twiceMidpoint p * twiceMidpoint p
          < 2 * (root * 2 ^ e) * (2 * (root * 2 ^ e)) := Nat.mul_self_lt_mul_self hlow
        _ = 4 * (root * root * 4 ^ e) := by
          rw [← mul_two_pow_mul_self, Nat.mul_mul_mul_comm]
        _ ≤ 4 * s := Nat.mul_le_mul_left 4 h.lower
    exact ⟨hsquare.le, fun heq => absurd heq hsquare.ne⟩
  above := by
    rw [twiceMidpoint_scaled h.small h.large, mul_two_pow_mul_self]
    exact ⟨hmid, fun heq => by have := htie heq; omega⟩

/-- The upper neighbour is the nearest if the root does not lie before the midpoint. -/
theorem ScaledRoot.between_upper (h : ScaledRoot s e root)
    (hmid : (2 * root + 1) * (2 * root + 1) * 4 ^ e ≤ 4 * s)
    (htie : (2 * root + 1) * (2 * root + 1) * 4 ^ e = 4 * s → root % 2 = 1) :
    Between s (e * 2 ^ 52 + root + 1) where
  below p hp := by
    obtain rfl : p = e * 2 ^ 52 + root := Nat.succ.inj hp
    rw [twiceMidpoint_scaled h.small h.large, mul_two_pow_mul_self]
    exact ⟨hmid, fun heq => by have := htie heq; omega⟩
  above := by
    -- the root is less than the rank itself, which lies before the midpoint above
    have hunits := units_lt_units_succ (e * 2 ^ 52 + root + 1)
    have hhigh : 2 * ((root + 1) * 2 ^ e) < twiceMidpoint (e * 2 ^ 52 + root + 1) := by
      rw [twiceMidpoint, ← units_scaled_succ h.small h.large]
      omega
    have hsquare : 4 * s <
        twiceMidpoint (e * 2 ^ 52 + root + 1) * twiceMidpoint (e * 2 ^ 52 + root + 1) :=
      calc 4 * s < 4 * ((root + 1) * (root + 1) * 4 ^ e) :=
            Nat.mul_lt_mul_of_pos_left h.upper (by decide)
        _ = 2 * ((root + 1) * 2 ^ e) * (2 * ((root + 1) * 2 ^ e)) := by
          rw [Nat.mul_mul_mul_comm 2, mul_two_pow_mul_self]
        _ ≤ _ := Nat.mul_self_le_mul_self hhigh.le
    exact ⟨hsquare.le, fun heq => absurd heq hsquare.ne⟩

/-- What lies beyond the midpoint below the infinite rank is rounded to the infinite rank. -/
theorem Between.nearestRoot (h : Between s r) : NearestRoot s (min r infinityRank) := by
  rcases Nat.le_total r infinityRank with hle | hle
  · rw [Nat.min_eq_left hle]
    exact ⟨hle, h.below, fun _ => h.above⟩
  · rw [Nat.min_eq_right hle]
    refine ⟨Nat.le_refl _, fun p hp => ⟨?_, fun _ => rfl⟩, fun hlt => absurd hlt (Nat.lt_irrefl _)⟩
    obtain ⟨q, rfl⟩ : ∃ q, r = q + 1 := ⟨r - 1, by omega⟩
    -- the midpoint that matters is that below the infinite rank, and `r` lies beyond it
    have hmono : twiceMidpoint p ≤ twiceMidpoint q :=
      twiceMidpoint_strictMono.monotone (by omega)
    exact (Nat.mul_self_le_mul_self hmono).trans (h.below q rfl).1

/-- **A root is rounded to the nearest rank**, a tie going to the even one. -/
theorem nearestRoot_rankOfRoot (s : Nat) : NearestRoot s (rankOfRoot s) := by
  have h := scaledRoot_rankOfRoot s
  simp only [rankOfRoot]
  generalize sqrtFloor (s / 4 ^ (s.log2 / 2 - 52)) = root at *
  generalize s.log2 / 2 - 52 = e at *
  split
  case isTrue hup =>
    rw [← Nat.add_assoc]
    exact (h.between_upper (by omega) (by omega)).nearestRoot
  case isFalse hup => exact (h.between_lower (by omega) (by omega)).nearestRoot

/-- Two ranks cannot both be nearest: there is a midpoint between them, and at it only one of two
neighbours is even. -/
theorem NearestRoot.not_lt (h : NearestRoot s r) (h' : NearestRoot s r') : ¬ r < r' := by
  intro hlt
  obtain ⟨p, rfl⟩ : ∃ p, r' = p + 1 := ⟨r' - 1, by omega⟩
  obtain ⟨habove, heven⟩ := h.above (hlt.trans_le h'.le_infinity)
  obtain ⟨hbelow, heven'⟩ := h'.below p rfl
  have hrp : r ≤ p := Nat.le_of_lt_succ hlt
  have hmono : twiceMidpoint r * twiceMidpoint r ≤ twiceMidpoint p * twiceMidpoint p :=
    Nat.mul_self_le_mul_self (twiceMidpoint_strictMono.monotone hrp)
  have hsame : twiceMidpoint r = twiceMidpoint p := Nat.mul_self_inj.mp (by omega)
  obtain rfl : r = p := twiceMidpoint_strictMono.injective hsame
  have hr : r % 2 = 0 := heven (by omega)
  have hnext : (r + 1) % 2 = 0 := heven' (by omega)
  omega

/-- There is one nearest rank only. -/
theorem NearestRoot.unique (h : NearestRoot s r) (h' : NearestRoot s r') : r = r' :=
  Nat.le_antisymm (Nat.not_lt.mp (h'.not_lt h)) (Nat.not_lt.mp (h.not_lt h'))

/-! ### Hypotenuses -/

/-- The square of the hypotenuse of finite legs, in squared units. -/
def squaredUnits (x y : Float) : Nat :=
  units (rank x) * units (rank x) + units (rank y) * units (rank y)

/-- **The hypotenuse of finite legs is the number nearest to it.** -/
theorem exists_hypotenuse_eq {x y : Float} (hinf : ¬ (x.isInf ∨ y.isInf))
    (hnan : ¬ (x.isNaN ∨ y.isNaN)) :
    ∃ r, NearestRoot (squaredUnits x y) r ∧ hypotenuse x y = ofRank false r := by
  refine ⟨rankOfRoot (squaredUnits x y), nearestRoot_rankOfRoot _, ?_⟩
  rw [hypotenuse, if_neg hinf, if_neg hnan]
  rfl

end ParametricPlan.Binary64
