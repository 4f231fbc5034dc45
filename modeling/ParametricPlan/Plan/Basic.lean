/-
ParametricPlan/Plan/Basic.lean

Plans: trees of instructions.

A plan is an ordered forest whose nodes carry one instruction each.

* A *group* runs its children if its condition holds.
* A *report* logs a label and the value of a formula; children that it may have are left alone.
* A *record* logs its label and runs its children.
* An *assignment* says that a formula defines a parameter.  It has a part in the analysis of a
  plan and none in its execution.
-/
import ParametricPlan.Formula.Basic

namespace ParametricPlan

/-- What a node of a plan is for. -/
inductive Instruction where
  | group (condition : Formula)
  | report (label : String) (formula : Formula)
  | record (label : String)
  | assign (target : Ref) (formula : Formula)

/-- A node of a plan, with the nodes below it in order. -/
inductive Node where
  | mk (instruction : Instruction) (children : List Node)

namespace Node

/-- The instruction of a node. -/
def instruction : Node → Instruction
  | mk instruction _ => instruction

/-- The nodes below a node. -/
def children : Node → List Node
  | mk _ children => children

end Node

/-- A plan. -/
structure Plan where
  roots : List Node

namespace Plan

/-- The plan without nodes. -/
def empty : Plan := ⟨[]⟩

/-- Adds a root after the others. -/
def push (p : Plan) (root : Node) : Plan :=
  ⟨p.roots ++ [root]⟩

end Plan

/-! ### In full -/

/-- An instruction in full; a report also shows the lines of the log it writes to. -/
def Instruction.dump (logged : List String) : Instruction → Dump
  | group condition => .record "ConditionalGroup" [.labelled "condition" condition.dump]
  | report label formula =>
    .record "Report" [.labelled "label" (.word (Quoted.quote label)),
      .labelled "expression" formula.dump,
      .labelled "log" (.record "Mutex"
        [.labelled "data" (.list (logged.map fun line => .word (Quoted.quote line)))])]
  | record label => .record "Record" [.labelled "label" (.word (Quoted.quote label))]
  | assign target formula =>
    .record "Assign" [.labelled "target" target.dump, .labelled "expression" formula.dump]

mutual

/-- A node in full. -/
def Node.dump (logged : List String) : Node → Dump
  | .mk instruction children =>
    .record "InstructionNode" [.labelled "instruction" (instruction.dump logged),
      .labelled "children" (.list (dumpNodes logged children))]

/-- Nodes in full. -/
def dumpNodes (logged : List String) : List Node → List Dump
  | [] => []
  | node :: nodes => node.dump logged :: dumpNodes logged nodes

end

/-- A plan in full, with the lines logged so far. -/
def Plan.dump (p : Plan) (logged : List String) : Dump :=
  .record "InstructionTree" [.labelled "roots" (.list (dumpNodes logged p.roots))]

end ParametricPlan
