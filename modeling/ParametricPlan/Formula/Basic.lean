/-
ParametricPlan/Formula/Basic.lean

Formulas over parameters.

A formula is a constant, a constant with a name, a reference to a parameter, an operator applied
to formulas, or a function called with any number of them; whether that number suits the function
is a question for the evaluation.  `references` lists the references of a formula from left to
right, `size` counts its nodes.

Lists that are read off a formula are built from right to left, onto what follows them
(`referencesOnto`), and so in time proportional to the formula however deep it is.
-/
import ParametricPlan.Operator
import ParametricPlan.Ref
import ParametricPlan.Text.Quoted
import ParametricPlan.Value

namespace ParametricPlan

/-- A formula. -/
inductive Formula where
  | constant (value : Value)
  | named (name : String) (value : Value)
  | reference (ref : Ref)
  | unary (op : UnaryOp) (operand : Formula)
  | binary (op : BinaryOp) (left right : Formula)
  | call (function : Func) (args : List Formula)

namespace Formula

/-- Whether a formula has no formulas inside it. -/
def isLeaf : Formula → Bool
  | constant _ | named _ _ | reference _ => true
  | unary .. | binary .. | call .. => false

/-! ### Size -/

mutual

/-- The number of nodes of a formula. -/
def size : Formula → Nat
  | constant _ | named _ _ | reference _ => 1
  | unary _ operand => operand.size + 1
  | binary _ left right => left.size + right.size + 1
  | call _ args => sizeAll args + 1

/-- The number of nodes of several formulas. -/
def sizeAll : List Formula → Nat
  | [] => 0
  | e :: es => e.size + sizeAll es

end

/-! ### References -/

mutual

/-- The references of a formula, before those that follow it. -/
def referencesOnto : Formula → List Ref → List Ref
  | constant _, rest | named _ _, rest => rest
  | reference r, rest => r :: rest
  | unary _ operand, rest => operand.referencesOnto rest
  | binary _ left right, rest => left.referencesOnto (right.referencesOnto rest)
  | call _ args, rest => referencesAllOnto args rest

/-- The references of several formulas, before those that follow them. -/
def referencesAllOnto : List Formula → List Ref → List Ref
  | [], rest => rest
  | e :: es, rest => e.referencesOnto (referencesAllOnto es rest)

end

/-- Every reference in a formula, from left to right, repeats kept. -/
def references (e : Formula) : List Ref :=
  e.referencesOnto []

/-! ### In full -/

mutual

/-- A formula in full. -/
def dump : Formula → Dump
  | constant value => .tuple "Constant" [value.dump]
  | named name value =>
    .record "NamedConstant" [.labelled "name" (.word (Quoted.quote name)),
      .labelled "value" value.dump]
  | reference r => .tuple "Reference" [r.dump]
  | unary op operand =>
    .record "Unary" [.labelled "op" (.word op.name), .labelled "operand" operand.dump]
  | binary op left right =>
    .record "Binary" [.labelled "op" (.word op.name), .labelled "left" left.dump,
      .labelled "right" right.dump]
  | call function args =>
    .record "Call" [.labelled "function" (.word function.dumpName),
      .labelled "args" (.list (dumpAll args))]

/-- Several formulas in full. -/
def dumpAll : List Formula → List Dump
  | [] => []
  | e :: es => e.dump :: dumpAll es

end

end Formula
end ParametricPlan
