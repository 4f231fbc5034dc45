/-
ParametricPlan/Evaluation/Error.lean

Why a formula has no value.

An `EvalError` is a cause with what is known about it.  Causes fall into five classes, and the
wording of all of them is in `EvalError.message`.
-/
import ParametricPlan.Operator
import ParametricPlan.Ref
import ParametricPlan.Text.Quoted
import ParametricPlan.Value

namespace ParametricPlan

/-- Why a formula has no value. -/
inductive EvalError where
  /-- A reference is not bound. -/
  | unresolvedReference (ref : Ref)
  | divisionByZero
  /-- An operation on numbers led out of the finite ones. -/
  | notFinite (operation : String)
  /-- A function is not defined at its arguments. -/
  | outOfDomain (what : String)
  /-- A prefix operator does not take operands of this kind. -/
  | operandKind (op : UnaryOp) (operand : Kind)
  /-- An infix operator does not take operands of these kinds. -/
  | operandKinds (op : BinaryOp) (left right : Kind)
  /-- A function wants an argument of another kind. -/
  | argumentKind (function : String) (expected : String) (found : Kind)
  /-- A function wants another number of arguments. -/
  | argumentCount (function : String) (expected : Arity) (found : Nat)
  /-- A reference that is to be defined is bound already. -/
  | duplicateDefinition (ref : Ref)
deriving DecidableEq

/-- The classes of errors. -/
inductive ErrorClass where
  | unresolvedReference
  | arithmetic
  | typeMismatch
  | parameterCount
  | duplicateDefinition
deriving DecidableEq, Repr

/-- The name of a class. -/
def ErrorClass.name : ErrorClass → String
  | unresolvedReference => "UnresolvedReference"
  | arithmetic => "ArithmeticError"
  | typeMismatch => "TypeMismatch"
  | parameterCount => "ParameterCountMismatch"
  | duplicateDefinition => "DuplicateDefinition"

namespace EvalError

/-- The class of an error. -/
def errorClass : EvalError → ErrorClass
  | unresolvedReference _ => .unresolvedReference
  | divisionByZero | notFinite _ | outOfDomain _ => .arithmetic
  | operandKind .. | operandKinds .. | argumentKind .. => .typeMismatch
  | argumentCount .. => .parameterCount
  | duplicateDefinition _ => .duplicateDefinition

/-- What happened, in words. -/
def detail : EvalError → String
  | unresolvedReference r => "unresolved reference " ++ r.text
  | divisionByZero => "division by zero"
  | notFinite operation => operation ++ " produced a non-finite result"
  | outOfDomain what => what
  | operandKind op operand =>
    "operator `" ++ op.symbol ++ "` cannot be applied to " ++ operand.name
  | operandKinds op left right =>
    "operator `" ++ op.symbol ++ "` cannot be applied to " ++ left.name ++ " and " ++ right.name
  | argumentKind function expected found =>
    function ++ " expects " ++ expected ++ ", got " ++ found.name
  | argumentCount function expected found =>
    function ++ " expects " ++ expected.text ++ ", got " ++ toString found
  | duplicateDefinition r => "duplicate definition of " ++ r.text

/-- The message of an error: its detail, after the name of its class where the detail needs it. -/
def message (e : EvalError) : String :=
  match e.errorClass with
  | .arithmetic => "arithmetic error: " ++ e.detail
  | .typeMismatch => "type mismatch: " ++ e.detail
  | .unresolvedReference | .parameterCount | .duplicateDefinition => e.detail

/-- An error in full. -/
def dump (e : EvalError) : Dump :=
  match e with
  | unresolvedReference r | duplicateDefinition r => .tuple e.errorClass.name [r.dump]
  | argumentCount function expected found =>
    .record e.errorClass.name [.labelled "function" (.word (Quoted.quote function)),
      .labelled "expected" expected.dump, .labelled "got" (.word (toString found))]
  | e => .tuple e.errorClass.name [.word (Quoted.quote e.detail)]

end EvalError
end ParametricPlan
