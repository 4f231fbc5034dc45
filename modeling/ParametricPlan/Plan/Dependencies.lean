/-
ParametricPlan/Plan/Dependencies.lean

What a plan needs and what it defines.

The analysis of a plan is a walk that visits every node before its children, whatever the values
of the parameters.  It gives a list of notices: a node is entered, its instruction requires or
defines references, and, after its children, the node is left.

`Dependencies` takes in notices one by one.  It keeps the references that are required and never
defined, those that are defined again, the number of nodes and the greatest depth.
-/
import ParametricPlan.Plan.Basic

namespace ParametricPlan

/-- What is noticed in a walk through a plan. -/
inductive Notice where
  | enter
  | leave
  | define (ref : Ref)
  | require (ref : Ref)
deriving DecidableEq, Repr

namespace Notice

/-- Whether a notice tells of references, and not of the walk. -/
def isFact : Notice → Bool
  | enter | leave => false
  | define _ | require _ => true

end Notice

/-! ### The walk -/

/-- What an instruction says of references. -/
def Instruction.notices : Instruction → List Notice
  | group _ | record _ => []
  | report _ formula => formula.references.map .require
  | assign target formula => formula.references.map .require ++ [.define target]

mutual

/-- The notices of a node, before those that follow them. -/
def Node.noticesOnto : Node → List Notice → List Notice
  | .mk instruction children, rest =>
    .enter :: (instruction.notices ++ noticesAllOnto children (.leave :: rest))

/-- The notices of nodes, before those that follow them. -/
def noticesAllOnto : List Node → List Notice → List Notice
  | [], rest => rest
  | node :: nodes, rest => node.noticesOnto (noticesAllOnto nodes rest)

end

/-- The notices of a plan. -/
def Plan.notices (p : Plan) : List Notice :=
  noticesAllOnto p.roots []

/-! ### Dependencies -/

/-- What has been noticed so far. -/
structure Dependencies where
  defined : List Ref
  required : List Ref
  /-- References defined when they were defined already, in order. -/
  duplicates : List Ref
  nodes : Nat
  depth : Nat
  maxDepth : Nat
deriving DecidableEq, Repr

namespace Dependencies

/-- Nothing noticed. -/
def fresh : Dependencies := ⟨[], [], [], 0, 0, 0⟩

/-- Takes references as defined from elsewhere. -/
def predefine (d : Dependencies) (refs : List Ref) : Dependencies :=
  { d with defined := refs ++ d.defined }

/-- Takes in a notice.  A node is left only where one has been entered. -/
def notice (d : Dependencies) : Notice → Dependencies
  | .enter =>
    { d with nodes := d.nodes + 1, depth := d.depth + 1, maxDepth := max d.maxDepth (d.depth + 1) }
  | .leave => { d with depth := d.depth - 1 }
  | .define r =>
    if r ∈ d.defined then { d with duplicates := d.duplicates ++ [r] }
    else { d with defined := r :: d.defined }
  | .require r => { d with required := r :: d.required }

/-- Takes in notices in order. -/
def noticeAll (d : Dependencies) (notices : List Notice) : Dependencies :=
  notices.foldl notice d

/-- Puts a reference where it belongs in an increasing list, unless it is there. -/
def insertRef (r : Ref) : List Ref → List Ref
  | [] => [r]
  | s :: rest =>
    match r.order s with
    | .lt => r :: s :: rest
    | .eq => s :: rest
    | .gt => s :: insertRef r rest

/-- The references that are required and not defined, in increasing order and once each. -/
def undefined (d : Dependencies) : List Ref :=
  (d.required.filter fun r => r ∉ d.defined).foldr insertRef []

end Dependencies

/-- Adds the analysis of a plan. -/
def Plan.analyze (p : Plan) (d : Dependencies) : Dependencies :=
  d.noticeAll p.notices

end ParametricPlan
