/-
ParametricPlan/Plan/Fault.lean

Faults, and what becomes of a run that has one.

A fault is a formula that could not be used: it has no value, or it is a condition whose value is
not a truth value.  Faults do not end a run by themselves.  A `Guard` decides: under the policy
`halt` it stops the run at the first fault reported to it, until it is reset; under `proceed` it
never does.
-/
import ParametricPlan.Evaluation.Error

namespace ParametricPlan

/-- A formula that a run could not use. -/
inductive Fault where
  /-- A condition with a value of another kind. -/
  | notBoolean (found : Kind)
  /-- A formula without a value. -/
  | evaluation (error : EvalError)
deriving DecidableEq

namespace Fault

/-- Why the formula could not be used, in one word. -/
def reasonName : Fault → String
  | notBoolean _ => "NotBoolean"
  | evaluation error => error.errorClass.name

/-- Why the formula could not be used. -/
def reason : Fault → String
  | notBoolean found => "expected bool, got " ++ found.name
  | evaluation error => error.message

/-- The message of a fault. -/
def message (f : Fault) : String :=
  "invalid expression: " ++ f.reason

end Fault

/-- Whether a fault ends a run. -/
inductive Policy where
  | proceed
  | halt
deriving DecidableEq, Repr

/-- A policy, and whether it has ended the run. -/
structure Guard where
  policy : Policy
  halted : Bool
deriving DecidableEq, Repr

namespace Guard

/-- The guard of a run that has not begun. -/
def fresh (policy : Policy) : Guard := ⟨policy, false⟩

/-- Notices a fault. -/
def trip (g : Guard) : Guard :=
  match g.policy with
  | .proceed => g
  | .halt => ⟨.halt, true⟩

/-- A fault does not change the policy. -/
theorem policy_trip (g : Guard) : g.trip.policy = g.policy := by
  obtain ⟨- | -, halted⟩ := g <;> rfl

/-- A fault halts a run if the policy says so, and never lets one go on. -/
theorem halted_trip (g : Guard) : g.trip.halted = true ↔ g.halted = true ∨ g.policy = .halt := by
  obtain ⟨- | -, halted⟩ := g <;> simp [trip]

/-- Lets the run go on. -/
def reset (g : Guard) : Guard :=
  ⟨g.policy, false⟩

end Guard
end ParametricPlan
