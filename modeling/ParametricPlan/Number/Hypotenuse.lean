/-
ParametricPlan/Number/Hypotenuse.lean

The length of a right triangle's long side, rounded once.

How precise this length has to be is left open, and the mathematical libraries of different
machines do not agree in its last digit.  Here it is the number nearest to the exact length.

Both legs are whole multiples of the least positive double, so the square of the long side is a
natural number of squared units and nothing is lost before the root is taken.  `rankOfRoot s`
rounds the square root of `s` units to the nearest rank, a tie going to the even one: it takes the
integer root at the weight of the last binary digit that a double keeps, and compares four times
`s` with the square of twice the midpoint above that root.

An infinite leg makes the long side infinite, whatever the other leg is; otherwise a NaN leg makes
it a NaN.
-/
import ParametricPlan.Number.Binary64

namespace ParametricPlan.Binary64

/-- The whole part of the square root. -/
def sqrtFloor (n : Nat) : Nat :=
  if n = 0 then 0
  else
    let root := 2 * sqrtFloor (n / 4)
    if (root + 1) * (root + 1) ≤ n then root + 1 else root
termination_by n

/-- The rank nearest to the square root of `s`, in units. -/
def rankOfRoot (s : Nat) : Nat :=
  let e := s.log2 / 2 - 52
  let root := sqrtFloor (s / 4 ^ e)
  let midpoint := (2 * root + 1) * (2 * root + 1) * 4 ^ e
  let up := midpoint < 4 * s ∨ midpoint = 4 * s ∧ root % 2 = 1
  min (e * 2 ^ (52 : Nat) + if up then root + 1 else root) infinityRank

/-- The long side of the right triangle with legs `x` and `y`.  No precision is prescribed for it,
and this is the most precise choice. -/
def hypotenuse (x y : Float) : Float :=
  if x.isInf ∨ y.isInf then infinity
  else if x.isNaN ∨ y.isNaN then nan
  else ofRank false (rankOfRoot (units (rank x) * units (rank x) + units (rank y) * units (rank y)))

end ParametricPlan.Binary64
