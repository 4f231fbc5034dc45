/-
ParametricPlan/Evaluation/Evaluate.lean

The value of a formula.

Operands and arguments are evaluated from left to right, all of them, and the first error ends the
evaluation.  A call checks the number of its arguments before it evaluates any.

An evaluation is a `Reading`: it can fail, and it keeps the references that it looked up, the
latest first, whether they were bound or not.
-/
import ParametricPlan.Evaluation.Apply
import ParametricPlan.Formula.Basic

namespace ParametricPlan

/-- A computation that looks up references and may fail. -/
abbrev Reading := ExceptT EvalError (StateM (List Ref))

/-- A result that takes no looking up. -/
def Reading.ofExcept {α : Type} (result : Except EvalError α) : Reading α :=
  ExceptT.mk (pure result)

/-- Looks up a reference. -/
def Reading.lookUp (values : Ref → Option Value) (r : Ref) : Reading Value := do
  modify (r :: ·)
  match values r with
  | some v => return v
  | none => throw (.unresolvedReference r)

namespace Formula

mutual

/-- Evaluates a formula. -/
def reading (values : Ref → Option Value) : Formula → Reading Value
  | constant v | named _ v => return v
  | reference r => Reading.lookUp values r
  | unary op operand => do
    let v ← operand.reading values
    Reading.ofExcept (op.apply v)
  | binary op left right => do
    let v ← left.reading values
    let w ← right.reading values
    Reading.ofExcept (op.apply v w)
  | call function args =>
    if function.arity.accepts args.length then do
      let vs ← readingAll values args
      Reading.ofExcept (function.apply vs)
    else throw (.argumentCount function.name function.arity args.length)

/-- Evaluates formulas one after the other. -/
def readingAll (values : Ref → Option Value) : List Formula → Reading (List Value)
  | [] => return []
  | e :: es => do
    let v ← e.reading values
    let vs ← readingAll values es
    return v :: vs

end

/-- The value of a formula, or why it has none. -/
def eval (e : Formula) (values : Ref → Option Value) : Except EvalError Value :=
  ((e.reading values).run.run []).1

/-- The references that the evaluation of a formula looks up, in order, repeats kept. -/
def lookups (e : Formula) (values : Ref → Option Value) : List Ref :=
  ((e.reading values).run.run []).2.reverse

end Formula
end ParametricPlan
