/-
ParametricPlan/Command/Demo.lean

The plan that comes with the program.

It has three parameters with default values, and a constant.  If the width is positive it reports
the span, and the diagonal too if the height is at least the width, or at least ten; in any case it
reports the flange.
-/
import ParametricPlan.Command.Options
import ParametricPlan.Plan.Dependencies
import ParametricPlan.Plan.Execution
import ParametricPlan.Plan.Outline

namespace ParametricPlan.Demo

/-! ### Parameters -/

def width : Ref := ⟨1⟩

def height : Ref := ⟨2⟩

def offset : Ref := ⟨3⟩

/-- The names of the parameters. -/
def names : List (Ref × String) :=
  [(width, "width"), (height, "height"), (offset, "offset")]

/-- The values of the parameters where a run gives them no others. -/
def defaults : Bindings :=
  .ofList [(width, .number 4), (height, .number 3), (offset, .number 0.5)]

/-- The printer that shows the parameters by their names. -/
def printer : Printer :=
  names.foldl (fun p (r, name) => p.withName r name) .plain

/-! ### The plan -/

/-- The thickness of the sheet. -/
def thickness : Formula :=
  .named "thickness" (.number 1.5)

/-- The width is positive. -/
def hasWidth : Formula :=
  .binary .greaterThan (.reference width) (.constant (.number 0))

/-- The height is at least the width, or at least ten. -/
def tallEnough : Formula :=
  .binary .greaterOrEqual (.reference height)
    (.call .min [.reference width, .constant (.number 10)])

/-- Twice the width. -/
def span : Formula :=
  .binary .multiply (.reference width) (.constant (.number 2))

/-- The distance between two opposite corners. -/
def diagonal : Formula :=
  .call .distance
    [.call .vector [.constant (.number 0), .constant (.number 0)],
      .call .vector [.reference width, .reference height]]

/-- What is bent over. -/
def flange : Formula :=
  .binary .add (.reference offset) thickness

/-- The plan. -/
def plan : Plan where
  roots :=
    [.mk (.group hasWidth)
      [.mk (.report "span" span) [],
        .mk (.group tallEnough) [.mk (.report "diagonal" diagonal) []]],
      .mk (.report "flange" flange) []]

/-! ### What can be done with it -/

/-- The outline of the plan. -/
def outline : String :=
  plan.outline printer.render

/-- What a run did. -/
structure Outcome where
  actions : List String
  faults : List Fault
deriving DecidableEq

/-- Runs the plan. -/
def run (options : RunOptions) : Outcome :=
  let context := Context.fresh (defaults.insertAll options.bindings) options.policy
  let session := (Session.start context).execute plan
  ⟨Event.actions session.events, session.context.faults.toList⟩

/-- What an analysis found. -/
structure Summary where
  nodes : Nat
  depth : Nat
  /-- The references that are required and not defined. -/
  parameters : List Ref
  /-- The references that are defined again. -/
  duplicates : List Ref
deriving DecidableEq

/-- What the analysis of the plan finds. -/
def summary : Summary :=
  let d := plan.analyze .fresh
  ⟨d.nodes, d.maxDepth, d.undefined, d.duplicates⟩

namespace Summary

/-- The line of a parameter, with its name if it has one. -/
def parameterLine (r : Ref) : String :=
  match names.lookup r with
  | some name => "  " ++ r.text ++ " (" ++ name ++ ")\n"
  | none => "  " ++ r.text ++ "\n"

/-- The text of a summary. -/
def text (s : Summary) : String :=
  "nodes: " ++ toString s.nodes ++ "\n" ++
  "depth: " ++ toString s.depth ++ "\n" ++
  "parameters:\n" ++
  String.join (s.parameters.map parameterLine) ++
  String.join (s.duplicates.map fun r => "duplicate definition: " ++ r.text ++ "\n")

end Summary
end ParametricPlan.Demo
