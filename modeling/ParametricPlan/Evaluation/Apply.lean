/-
ParametricPlan/Evaluation/Apply.lean

What the operators and functions compute.

Every operator and function is defined on certain kinds of operands only, and a few of them only
on some of these.  A function looks at the number of its arguments first, then at their kinds from
left to right, and at their values last; the error of the first of these that is wrong is the
answer.

Sums and differences are taken part by part, a vector is scaled by a number on either side, and a
quotient looks at its divisor before its operands meet.  Comparisons with a NaN are false.
-/
import ParametricPlan.Evaluation.Error
import ParametricPlan.Number.Hypotenuse

namespace ParametricPlan

/-! ### Operators -/

/-- A prefix operator applied to a value. -/
def UnaryOp.apply (op : UnaryOp) (operand : Value) : Except EvalError Value :=
  match op, operand with
  | negate, .number x => .ok (.number (-x))
  | negate, .vector x y => .ok (.vector (-x) (-y))
  | not, .bool b => .ok (.bool !b)
  | op, operand => .error (.operandKind op operand.kind)

/-- A quotient of numbers or of a vector by a number. -/
def quotient (left : Value) (divisor : Float) : Except EvalError Value :=
  match left with
  | .bool _ => .error (.operandKinds .divide .bool .number)
  | .number x => if divisor == 0 then .error .divisionByZero else .ok (.number (x / divisor))
  | .vector x y =>
    if divisor == 0 then .error .divisionByZero else .ok (.vector (x / divisor) (y / divisor))

/-- A power, if it is finite. -/
def power (base exponent : Float) : Except EvalError Value :=
  let result := Float.pow base exponent
  if result.isFinite then .ok (.number result) else .error (.notFinite "exponentiation")

/-- An infix operator applied to two values. -/
def BinaryOp.apply (op : BinaryOp) (left right : Value) : Except EvalError Value :=
  match op, left, right with
  | add, .number x, .number y => .ok (.number (x + y))
  | add, .vector x y, .vector x' y' => .ok (.vector (x + x') (y + y'))
  | subtract, .number x, .number y => .ok (.number (x - y))
  | subtract, .vector x y, .vector x' y' => .ok (.vector (x - x') (y - y'))
  | multiply, .number x, .number y => .ok (.number (x * y))
  | multiply, .vector x y, .number s | multiply, .number s, .vector x y =>
    .ok (.vector (x * s) (y * s))
  | divide, left, .number divisor => quotient left divisor
  | power, .number x, .number y => ParametricPlan.power x y
  | lessThan, .number x, .number y => .ok (.bool (x < y))
  | lessOrEqual, .number x, .number y => .ok (.bool (x ≤ y))
  | greaterThan, .number x, .number y => .ok (.bool (y < x))
  | greaterOrEqual, .number x, .number y => .ok (.bool (y ≤ x))
  | and, .bool a, .bool b => .ok (.bool (a && b))
  | or, .bool a, .bool b => .ok (.bool (a || b))
  | equal, left, right =>
    if left.kind = right.kind then .ok (.bool (left == right))
    else .error (.operandKinds equal left.kind right.kind)
  | notEqual, left, right =>
    if left.kind = right.kind then .ok (.bool (left != right))
    else .error (.operandKinds notEqual left.kind right.kind)
  | op, left, right => .error (.operandKinds op left.kind right.kind)

/-! ### Functions -/

/-- The lesser of two numbers, or the one that is not a NaN. -/
def lesser (x y : Float) : Float :=
  if x.isNaN then y else if y.isNaN then x else if y < x then y else x

/-- The greater of two numbers, or the one that is not a NaN. -/
def greater (x y : Float) : Float :=
  if x.isNaN then y else if y.isNaN then x else if x < y then y else x

/-- The number of a range nearest to `x`; a NaN stays. -/
def clampTo (x lo hi : Float) : Float :=
  let x := if x < lo then lo else x
  if hi < x then hi else x

namespace Func

/-- An argument that has to be a number. -/
def numberArg (function : Func) : Value → Except EvalError Float
  | .number x => .ok x
  | v => .error (.argumentKind function.name "a number" v.kind)

/-- An argument that has to be a vector. -/
def vectorArg (function : Func) : Value → Except EvalError (Float × Float)
  | .vector x y => .ok (x, y)
  | v => .error (.argumentKind function.name "a vector" v.kind)

/-- Arguments that all have to be numbers. -/
def numberArgs (function : Func) : List Value → Except EvalError (List Float)
  | [] => .ok []
  | v :: vs => do
    let x ← function.numberArg v
    let xs ← function.numberArgs vs
    return x :: xs

/-- A number chosen among the arguments, pair by pair from the left. -/
def extremum (function : Func) (pick : Float → Float → Float) (args : List Value) :
    Except EvalError Value := do
  match ← function.numberArgs args with
  | [] => .error (.outOfDomain (function.name ++ " of no arguments"))
  | x :: xs => return .number (xs.foldl pick x)

/-- The square root of a number. -/
def squareRoot (x : Float) : Except EvalError Value :=
  if x < 0 then
    .error (.outOfDomain ("square root of negative number " ++ Value.numberStyle.write x))
  else .ok (.number x.sqrt)

/-- A number moved into a range. -/
def clampedValue (x lo hi : Float) : Except EvalError Value :=
  if lo.isNaN ∨ hi.isNaN ∨ hi < lo then
    .error (.outOfDomain ("clamp range [" ++ Value.numberStyle.write lo ++ ", " ++
      Value.numberStyle.write hi ++ "] is empty"))
  else .ok (.number (clampTo x lo hi))

/-- A function applied to its arguments. -/
def apply (function : Func) (args : List Value) : Except EvalError Value :=
  match function, args with
  | abs, [v] => do
    let x ← abs.numberArg v
    return .number x.abs
  | sqrt, [v] => do
    let x ← sqrt.numberArg v
    squareRoot x
  | min, args => min.extremum lesser args
  | max, args => max.extremum greater args
  | sum, args => do
    let xs ← sum.numberArgs args
    return .number (xs.foldl (· + ·) 0)
  | clamp, [v, lo, hi] => do
    let x ← clamp.numberArg v
    let lo ← clamp.numberArg lo
    let hi ← clamp.numberArg hi
    clampedValue x lo hi
  | vector, [x, y] => do
    let x ← vector.numberArg x
    let y ← vector.numberArg y
    return .vector x y
  | length, [v] => do
    let (x, y) ← length.vectorArg v
    return .number (Binary64.hypotenuse x y)
  | distance, [a, b] => do
    let (x, y) ← distance.vectorArg a
    let (x', y') ← distance.vectorArg b
    return .number (Binary64.hypotenuse (x' - x) (y' - y))
  | function, args => .error (.argumentCount function.name function.arity args.length)

end Func
end ParametricPlan
