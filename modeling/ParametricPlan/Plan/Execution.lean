/-
ParametricPlan/Plan/Execution.lean

The execution of plans.

Execution is written once, for any `Runtime`: a kind of state that gives values to references,
takes in actions and faults, and may be halted.  Nodes run in order, and before each of them the
runtime is asked whether it is halted; a single node runs in any case.

There are two runtimes.  A `Session` executes in a context and writes down the events in the order
in which they happen.  A `Collector` has bindings only, and is never halted.
-/
import ParametricPlan.Evaluation.Evaluate
import ParametricPlan.Plan.Basic
import ParametricPlan.Plan.Context

namespace ParametricPlan

/-- What execution needs of a kind of state. -/
structure Runtime (S : Type) where
  /-- The values of references. -/
  values : S → Ref → Option Value
  /-- Takes in a line to be logged. -/
  act : S → String → S
  /-- Takes in a fault. -/
  fail : S → Fault → S
  /-- Whether no further node is to run. -/
  halted : S → Bool

/-! ### Nodes -/

variable {S : Type}

mutual

/-- Runs a node. -/
def Node.execute (rt : Runtime S) : Node → S → S
  | .mk instruction children, s =>
    match instruction with
    | .group condition =>
      match condition.eval (rt.values s) with
      | .ok (.bool true) => executeAll rt children s
      | .ok (.bool false) => s
      | .ok v => rt.fail s (.notBoolean v.kind)
      | .error e => rt.fail s (.evaluation e)
    | .report label formula =>
      match formula.eval (rt.values s) with
      | .ok v => rt.act s (label ++ " = " ++ v.text)
      | .error e => rt.fail s (.evaluation e)
    | .record label => executeAll rt children (rt.act s label)
    | .assign _ _ => s

/-- Runs nodes in order, up to the first before which the runtime is halted. -/
def executeAll (rt : Runtime S) : List Node → S → S
  | [], s => s
  | node :: nodes, s => if rt.halted s then s else executeAll rt nodes (node.execute rt s)

end

/-! ### Events -/

/-- What happens in a run. -/
inductive Event where
  | action (line : String)
  | fault (fault : Fault)
deriving DecidableEq

namespace Event

/-- The lines among some events. -/
def actions (events : Array Event) : List String :=
  events.toList.filterMap fun
    | action line => some line
    | fault _ => none

/-- The faults among some events. -/
def faults (events : Array Event) : List Fault :=
  events.toList.filterMap fun
    | action _ => none
    | fault f => some f

end Event

/-! ### Sessions -/

/-- A context with the events of the runs in it, the oldest first. -/
structure Session where
  context : Context
  events : Array Event

namespace Session

/-- A session in which nothing has happened. -/
def start (context : Context) : Session := ⟨context, #[]⟩

/-- Sessions as a runtime: faults go to the context, which may halt. -/
def runtime : Runtime Session where
  values s := s.context.bindings.lookup
  act s line := ⟨s.context, s.events.push (.action line)⟩
  fail s f := ⟨s.context.report f, s.events.push (.fault f)⟩
  halted s := s.context.halted

/-- Runs a plan. -/
def execute (s : Session) (p : Plan) : Session :=
  executeAll runtime p.roots s

/-- Runs a node and what is below it. -/
def executeNode (s : Session) (node : Node) : Session :=
  node.execute runtime s

/-- Resets the context. -/
def reset (s : Session) : Session :=
  ⟨s.context.reset, s.events⟩

end Session

/-! ### Collectors -/

/-- Bindings with the events of the runs with them, the oldest first. -/
structure Collector where
  bindings : Bindings
  events : Array Event

namespace Collector

/-- Collectors as a runtime that is never halted. -/
def runtime : Runtime Collector where
  values s := s.bindings.lookup
  act s line := ⟨s.bindings, s.events.push (.action line)⟩
  fail s f := ⟨s.bindings, s.events.push (.fault f)⟩
  halted _ := false

end Collector

/-- The events of a run of a plan that no fault ends. -/
def Plan.collect (p : Plan) (bindings : Bindings) : Array Event :=
  (executeAll Collector.runtime p.roots ⟨bindings, #[]⟩).events

end ParametricPlan
