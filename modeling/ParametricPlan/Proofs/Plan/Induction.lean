/-
ParametricPlan/Proofs/Plan/Induction.lean

Induction on the nodes of a plan.

The children of a node are a list, and so the recursor of `Node` speaks of lists of nodes too.
`Node.induction` speaks of nodes only, and gives the hypothesis for each of the children.
-/
import ParametricPlan.Plan.Basic

namespace ParametricPlan.Node

/-- A property of nodes holds of all of them if it goes from the children of a node to the node. -/
@[elab_as_elim, induction_eliminator]
theorem induction {motive : Node → Prop}
    (mk : ∀ instruction children, (∀ child ∈ children, motive child) →
      motive (mk instruction children)) :
    ∀ node, motive node
  | .mk instruction children => mk instruction children fun child _ => induction mk child

end ParametricPlan.Node
