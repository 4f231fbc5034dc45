/-
ParametricPlan/Number/Binary64.lean

Double precision numbers as multiples of the least positive one.

Every finite double is a whole multiple of `2 ^ (-1074)`.  Without its sign bit the word of a
double is its *rank*; ranks are ordered like the magnitudes they stand for, and `units` says how
many times the least positive double goes into one:

    rank = f < 2 ^ 52              units = f                            (subnormal numbers)
    rank = (e + 1) * 2 ^ 52 + f    units = (2 ^ 52 + f) * 2 ^ e         (normal numbers)

`rankOfRatio num den` is the way back.  It takes any number of units, given as a ratio, to the
nearest rank, a tie going to the even one, and everything beyond the largest finite double to
`infinityRank`.  Main results: `units` is undone by it (`rankOfRatio_units`), and only the ratio
matters (`rankOfRatio_mul`), which is what lets a decimal text read back as the number it was
written for.
-/
namespace ParametricPlan

/-- Powers of whole numbers are those of the core library, whatever else is imported.  An exponent
that is a numeral has to be given its type for this. -/
scoped instance (priority := 2000) natPow : Pow Nat Nat := instPowNat

end ParametricPlan

namespace ParametricPlan.Binary64

/-! ### The two halves of a word -/

/-- The sign bit of a number; a NaN counts as positive. -/
def isNegative (x : Float) : Bool :=
  decide (2 ^ (63 : Nat) ≤ x.toBits.toNat)

/-- The word of a number without its sign bit. -/
def rank (x : Float) : Nat :=
  x.toBits.toNat % 2 ^ (63 : Nat)

/-- The rank of both infinities; larger ranks are NaNs. -/
def infinityRank : Nat := 2047 * 2 ^ (52 : Nat)

/-- The number with a given sign and rank. -/
def ofRank (negative : Bool) (rank : Nat) : Float :=
  Float.ofBits (UInt64.ofNat (if negative then 2 ^ (63 : Nat) + rank else rank))

/-- Positive infinity. -/
def infinity : Float := ofRank false infinityRank

/-- The NaN. -/
def nan : Float := ofRank false (infinityRank + 2 ^ (51 : Nat))

/-! ### Magnitudes in units -/

/-- The unit, the least positive double, is `2 ^ (-unitPlaces)`. -/
def unitPlaces : Nat := 1074

/-- How many times the least positive double goes into the magnitude of a finite rank. -/
def units (rank : Nat) : Nat :=
  if rank < 2 ^ (52 : Nat) then rank
  else (2 ^ (52 : Nat) + rank % 2 ^ (52 : Nat)) * 2 ^ (rank / 2 ^ (52 : Nat) - 1)

/-- `num / den` to the nearest whole number; a half goes to the even neighbour. -/
def divNearest (num den : Nat) : Nat :=
  let floor := num / den
  let rest := num % den
  if 2 * rest < den then floor
  else if den < 2 * rest then floor + 1
  else floor + floor % 2

/-- The rank nearest to `num / den` units.

With `e` the number of binary digits that the whole part has beyond 53, the rank is `e * 2 ^ 52`
plus the ratio rounded at the digit of weight `2 ^ e`: a rounding that carries into a further
digit then lands on the next exponent by itself. -/
def rankOfRatio (num den : Nat) : Nat :=
  let e := (num / den).log2 - 52
  min (e * 2 ^ (52 : Nat) + divNearest num (den * 2 ^ e)) infinityRank

/-! ### Laws -/

/-- What is a whole number is not rounded. -/
theorem divNearest_mul_right (n : Nat) {den : Nat} (h : 0 < den) :
    divNearest (n * den) den = n := by
  simp [divNearest, Nat.mul_div_cancel n h, h]

/-- A ratio is rounded alike in whatever terms it is given. -/
theorem divNearest_mul_mul (num den : Nat) {c : Nat} (h : 0 < c) :
    divNearest (num * c) (den * c) = divNearest num den := by
  have hlt : 2 * (num % den) * c < den * c ↔ 2 * (num % den) < den := Nat.mul_lt_mul_right h
  have hgt : den * c < 2 * (num % den) * c ↔ den < 2 * (num % den) := Nat.mul_lt_mul_right h
  simp only [divNearest, Nat.mul_div_mul_right _ _ h, Nat.mul_mod_mul_right, ← Nat.mul_assoc,
    hlt, hgt]

/-- Only the ratio matters. -/
theorem rankOfRatio_mul (num den : Nat) {c : Nat} (h : 0 < c) :
    rankOfRatio (num * c) (den * c) = rankOfRatio num den := by
  simp only [rankOfRatio, Nat.mul_div_mul_right _ _ h, Nat.mul_right_comm den c,
    divNearest_mul_mul _ _ h]

/-- A finite rank is the rank nearest to its own magnitude. -/
theorem rankOfRatio_units {r : Nat} (h : r < infinityRank) : rankOfRatio (units r) 1 = r := by
  have hle : r ≤ infinityRank := Nat.le_of_lt h
  unfold units
  split
  case isTrue hr =>
    -- up to 53 binary digits no digit is dropped, and the units are the rank
    have hlog : r.log2 - 52 = 0 := by
      have : r.log2 < 53 := by
        by_cases h0 : r = 0
        · subst h0; decide
        · exact (Nat.log2_lt h0).mpr (by omega)
      omega
    have hn : divNearest r 1 = r := by simpa using divNearest_mul_right r Nat.one_pos
    simp [rankOfRatio, hlog, hn, hle]
  case isFalse hr =>
    -- beyond that, the rank is put together again from its exponent and its digits
    have hm : r % 2 ^ 52 < 2 ^ 52 := Nat.mod_lt _ (by decide)
    have hsplit : 2 ^ 52 * (r / 2 ^ 52) + r % 2 ^ 52 = r := Nat.div_add_mod r (2 ^ 52)
    have hq : 1 ≤ r / 2 ^ 52 := (Nat.le_div_iff_mul_le (by decide)).mpr (by omega)
    generalize r % 2 ^ 52 = f at *
    generalize r / 2 ^ 52 = q at *
    obtain ⟨e, rfl⟩ : ∃ e, q = e + 1 := ⟨q - 1, by omega⟩
    -- 53 binary digits and the zeros behind them are all the digits there are
    have hlog : ((2 ^ 52 + f) * 2 ^ e).log2 = 52 + e := by
      have hpos : (2 ^ 52 + f) * 2 ^ e ≠ 0 := by
        have := Nat.two_pow_pos e
        exact Nat.mul_ne_zero (by omega) (by omega)
      refine (Nat.log2_eq_iff hpos).mpr ⟨?_, ?_⟩
      · rw [Nat.pow_add]; exact Nat.mul_le_mul_right _ (by omega)
      · rw [show 52 + e + 1 = 53 + e by omega, Nat.pow_add]
        exact Nat.mul_lt_mul_of_pos_right (by omega) (Nat.two_pow_pos e)
    have hn := divNearest_mul_right (2 ^ 52 + f) (Nat.two_pow_pos e)
    simp only [Nat.add_sub_cancel, rankOfRatio, Nat.div_one, hlog, Nat.add_sub_cancel_left,
      Nat.one_mul, hn]
    omega

end ParametricPlan.Binary64
