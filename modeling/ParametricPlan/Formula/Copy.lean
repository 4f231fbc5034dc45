/-
ParametricPlan/Formula/Copy.lean

Copies of formulas.

A copy is built node by node and shares nothing with what it was made of, so that either of them
can be changed or thrown away without the other.
-/
import ParametricPlan.Formula.Basic

namespace ParametricPlan.Formula

mutual

/-- A copy of a formula. -/
def copy : Formula → Formula
  | constant value => constant value
  | named name value => named name value
  | reference r => reference r
  | unary op operand => unary op operand.copy
  | binary op left right => binary op left.copy right.copy
  | call function args => call function (copyAll args)

/-- Copies of several formulas. -/
def copyAll : List Formula → List Formula
  | [] => []
  | e :: es => e.copy :: copyAll es

end

end ParametricPlan.Formula
