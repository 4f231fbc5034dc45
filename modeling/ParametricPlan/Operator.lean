/-
ParametricPlan/Operator.lean

The operators and functions that formulas are built with, as names only.

What they compute is said elsewhere; here are their symbols, how tightly the infix operators bind,
and how many arguments the functions take.  A smaller level binds more tightly, and operators of
one level group to the left, except for powers.
-/
import ParametricPlan.Text.Dump

namespace ParametricPlan

/-! ### Operators -/

/-- Operators that stand before their operand. -/
inductive UnaryOp where
  | negate
  | not
deriving DecidableEq, Repr

namespace UnaryOp

/-- Every one of them. -/
def all : List UnaryOp := [negate, not]

/-- The name of an operator. -/
def name : UnaryOp → String
  | negate => "Negate"
  | not => "Not"

/-- The symbol of an operator. -/
def symbol : UnaryOp → String
  | negate => "-"
  | not => "!"

end UnaryOp

/-- Operators that stand between their operands. -/
inductive BinaryOp where
  | add
  | subtract
  | multiply
  | divide
  | power
  | equal
  | notEqual
  | lessThan
  | lessOrEqual
  | greaterThan
  | greaterOrEqual
  | and
  | or
deriving DecidableEq, Repr

namespace BinaryOp

/-- Every one of them. -/
def all : List BinaryOp :=
  [add, subtract, multiply, divide, power, equal, notEqual, lessThan, lessOrEqual, greaterThan,
    greaterOrEqual, and, or]

/-- The name of an operator. -/
def name : BinaryOp → String
  | add => "Add"
  | subtract => "Subtract"
  | multiply => "Multiply"
  | divide => "Divide"
  | power => "Power"
  | equal => "Equal"
  | notEqual => "NotEqual"
  | lessThan => "LessThan"
  | lessOrEqual => "LessOrEqual"
  | greaterThan => "GreaterThan"
  | greaterOrEqual => "GreaterOrEqual"
  | and => "And"
  | or => "Or"

/-- The symbol of an operator. -/
def symbol : BinaryOp → String
  | add => "+"
  | subtract => "-"
  | multiply => "*"
  | divide => "/"
  | power => "^"
  | equal => "=="
  | notEqual => "!="
  | lessThan => "<"
  | lessOrEqual => "<="
  | greaterThan => ">"
  | greaterOrEqual => ">="
  | and => "&&"
  | or => "||"

/-- How loosely an operator binds. -/
def level : BinaryOp → Nat
  | power => 2
  | multiply | divide => 3
  | add | subtract => 4
  | lessThan | lessOrEqual | greaterThan | greaterOrEqual => 7
  | equal | notEqual => 8
  | and => 12
  | or => 13

/-- Whether `a op b op c` means `a op (b op c)`. -/
def groupsRight : BinaryOp → Bool
  | power => true
  | _ => false

end BinaryOp

/-! ### Functions -/

/-- How many arguments a function takes. -/
inductive Arity where
  | fixed (count : Nat)
  | variadic
deriving DecidableEq, Repr

namespace Arity

/-- Whether a function of this arity takes `count` arguments. -/
def accepts : Arity → Nat → Bool
  | fixed n, count => n == count
  | variadic, _ => true

/-- The text of an arity. -/
def text : Arity → String
  | fixed 1 => "exactly 1 argument"
  | fixed n => "exactly " ++ toString n ++ " arguments"
  | variadic => "any number of arguments"

/-- An arity in full. -/
def dump : Arity → Dump
  | fixed n => .tuple "Fixed" [.word (toString n)]
  | variadic => .word "Variadic"

end Arity

/-- The functions that formulas call. -/
inductive Func where
  | abs
  | sqrt
  | min
  | max
  | sum
  | clamp
  | vector
  | length
  | distance
deriving DecidableEq, Repr

namespace Func

/-- Every one of them. -/
def all : List Func := [abs, sqrt, min, max, sum, clamp, vector, length, distance]

/-- What a function is called in formulas. -/
def name : Func → String
  | abs => "abs"
  | sqrt => "sqrt"
  | min => "min"
  | max => "max"
  | sum => "sum"
  | clamp => "clamp"
  | vector => "vec"
  | length => "length"
  | distance => "distance"

/-- What a function is called in dumps. -/
def dumpName : Func → String
  | abs => "Abs"
  | sqrt => "Sqrt"
  | min => "Min"
  | max => "Max"
  | sum => "Sum"
  | clamp => "Clamp"
  | vector => "Vector"
  | length => "Length"
  | distance => "Distance"

/-- How many arguments a function takes. -/
def arity : Func → Arity
  | abs | sqrt | length => .fixed 1
  | vector | distance => .fixed 2
  | clamp => .fixed 3
  | min | max | sum => .variadic

end Func
end ParametricPlan
