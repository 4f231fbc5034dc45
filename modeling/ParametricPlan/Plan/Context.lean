/-
ParametricPlan/Plan/Context.lean

Where a plan is executed.

A context has the bindings that formulas are evaluated with, a guard, and a log of the faults
reported to it, the oldest first.
-/
import ParametricPlan.Evaluation.Bindings
import ParametricPlan.Plan.Fault

namespace ParametricPlan

/-- Where a plan is executed. -/
structure Context where
  bindings : Bindings
  guard : Guard
  faults : Array Fault

namespace Context

/-- A context in which nothing has happened. -/
def fresh (bindings : Bindings) (policy : Policy) : Context :=
  ⟨bindings, .fresh policy, #[]⟩

/-- Whether the run has been ended. -/
def halted (c : Context) : Bool :=
  c.guard.halted

/-- Reports a fault. -/
def report (c : Context) (f : Fault) : Context :=
  ⟨c.bindings, c.guard.trip, c.faults.push f⟩

/-- Forgets the faults and lets the run go on. -/
def reset (c : Context) : Context :=
  ⟨c.bindings, c.guard.reset, #[]⟩

end Context
end ParametricPlan
