/-
ParametricPlan/Plan/Outline.lean

Plans as outlines.

Each node of a plan has a line of its own, which describes its instruction and is indented by four
blanks for every node above it; the lines follow each other in the order in which a walk enters
the nodes.  Where a formula cannot be shown, a mark stands in its place.
-/
import ParametricPlan.Formula.Infix
import ParametricPlan.Plan.Basic

namespace ParametricPlan

/-- Stands for a formula that is not shown. -/
def notShown : String := "???"

/-- An instruction in words. -/
def Instruction.describe (render : Renderer) : Instruction → String
  | group condition => "if " ++ (render condition).getD notShown ++ ":"
  | report label formula => "report " ++ label ++ " = " ++ (render formula).getD notShown
  | record label => "record " ++ label
  | assign target formula => target.text ++ " = " ++ (render formula).getD notShown

/-- A line of an outline. -/
structure OutlineLine where
  /-- The number of nodes above. -/
  depth : Nat
  description : String
deriving DecidableEq, Repr

/-- The text of a line. -/
def OutlineLine.text (l : OutlineLine) : String :=
  String.ofList (List.replicate (4 * l.depth) ' ') ++ l.description

mutual

/-- The lines of a node at a depth, before those that follow them. -/
def Node.linesOnto (describe : Instruction → String) (depth : Nat) :
    Node → List OutlineLine → List OutlineLine
  | .mk instruction children, rest =>
    ⟨depth, describe instruction⟩ :: linesAllOnto describe (depth + 1) children rest

/-- The lines of nodes at a depth, before those that follow them. -/
def linesAllOnto (describe : Instruction → String) (depth : Nat) :
    List Node → List OutlineLine → List OutlineLine
  | [], rest => rest
  | node :: nodes, rest => node.linesOnto describe depth (linesAllOnto describe depth nodes rest)

end

/-- Lines with line ends between them. -/
def outlineText (lines : List OutlineLine) : String :=
  "\n".intercalate (lines.map OutlineLine.text)

/-- The outline of a plan. -/
def Plan.outline (p : Plan) (render : Renderer) : String :=
  outlineText (linesAllOnto (Instruction.describe render) 0 p.roots [])

/-- The outline of a node and what is below it. -/
def Node.outline (node : Node) (render : Renderer) : String :=
  outlineText (node.linesOnto (Instruction.describe render) 0 [])

end ParametricPlan
