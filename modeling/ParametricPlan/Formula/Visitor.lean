/-
ParametricPlan/Formula/Visitor.lean

Visitors.

A visitor goes through a formula with a state, and says what is done to the state at each node.
It is given a way to go on as well: into a formula that stands inside another one, and into the
arguments of a call.  It may do something before it goes on, or after it, or not go on at all.
What it leaves out is done by default: nothing at constants and references, and going on
everywhere.

`Visitor.recorder` notes down what a walk meets, and `Visitor.collector` the references only.
-/
import ParametricPlan.Formula.Visit

namespace ParametricPlan

/-- What is done to a state on the way through a formula. -/
structure Visitor (σ : Type) where
  /-- At a formula inside another one, with the way into it. -/
  formula : Formula → (σ → σ) → σ → σ := fun _ goOn => goOn
  /-- At a constant, with a name or without one. -/
  literal : Value → σ → σ := fun _ s => s
  /-- At a reference. -/
  reference : Ref → σ → σ := fun _ s => s
  /-- At a call, with the way through its arguments. -/
  call : Func → List Formula → (σ → σ) → σ → σ := fun _ _ goOn => goOn

namespace Formula

variable {σ : Type}

mutual

/-- The state after a visitor has gone through a formula. -/
def walk (v : Visitor σ) : Formula → σ → σ
  | constant value, s | named _ value, s => v.literal value s
  | reference r, s => v.reference r s
  | unary _ operand, s => v.formula operand (operand.walk v) s
  | binary _ left right, s =>
    v.formula right (right.walk v) (v.formula left (left.walk v) s)
  | call function args, s => v.call function args (walkAll v args) s

/-- The state after a visitor has gone through several formulas. -/
def walkAll (v : Visitor σ) : List Formula → σ → σ
  | [], s => s
  | e :: es, s => walkAll v es (v.formula e (e.walk v) s)

end

end Formula

namespace Visitor

/-- Notes down each meeting, that with a call before those with its arguments, which it may pass
over. -/
def recorder (enterCalls : Bool) : Visitor (Array Visit) where
  literal value met := met.push (.literal value)
  reference r met := met.push (.reference r)
  call function args goOn met :=
    let met := met.push (.call function args.length)
    if enterCalls then goOn met else met

/-- Notes down the references. -/
def collector : Visitor (Array Ref) where
  reference r met := met.push r

end Visitor

/-- What a walk through a formula meets, as a visitor notes it down. -/
def Formula.recorded (e : Formula) (enterCalls : Bool) : List Visit :=
  (e.walk (.recorder enterCalls) #[]).toList

/-- The references of a formula, as a visitor notes them down. -/
def Formula.collected (e : Formula) : List Ref :=
  (e.walk .collector #[]).toList

end ParametricPlan
