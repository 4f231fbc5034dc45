/-
ParametricPlan/Proofs/Formula/Induction.lean

Induction on formulas.

The arguments of a call are a list, and so the recursor of `Formula` speaks of lists of formulas
too.  `Formula.induction` speaks of formulas only: for a call it gives the hypothesis for each of
the arguments.
-/
import ParametricPlan.Formula.Basic

namespace ParametricPlan.Formula

/-- A property of formulas holds of all of them if it goes from the parts of a formula to the
whole. -/
@[elab_as_elim, induction_eliminator]
theorem induction {motive : Formula → Prop}
    (constant : ∀ value, motive (constant value))
    (named : ∀ name value, motive (named name value))
    (reference : ∀ ref, motive (reference ref))
    (unary : ∀ op operand, motive operand → motive (unary op operand))
    (binary : ∀ op left right, motive left → motive right → motive (binary op left right))
    (call : ∀ function args, (∀ arg ∈ args, motive arg) → motive (call function args)) :
    ∀ e, motive e
  | .constant value => constant value
  | .named name value => named name value
  | .reference ref => reference ref
  | .unary op operand =>
    unary op operand (induction constant named reference unary binary call operand)
  | .binary op left right =>
    binary op left right (induction constant named reference unary binary call left)
      (induction constant named reference unary binary call right)
  | .call function args =>
    call function args fun arg _ =>
      induction constant named reference unary binary call arg

end ParametricPlan.Formula
