/-
ParametricPlan/Formula/Visit.lean

Walking through a formula.

A walk meets the nodes of a formula that are neither unary nor binary, from left to right, and a
call before its arguments.  It may pass over the arguments of calls: what it meets then is what
stands outside of all calls, the outermost calls included.
-/
import ParametricPlan.Formula.Basic

namespace ParametricPlan

/-- What a walk meets. -/
inductive Visit where
  /-- A constant, with a name or without one. -/
  | literal (value : Value)
  | reference (ref : Ref)
  | call (function : Func) (count : Nat)

namespace Formula

mutual

/-- What a walk meets in a formula, before what it meets later. -/
def visitsOnto (enterCalls : Bool) : Formula → List Visit → List Visit
  | constant value, rest | named _ value, rest => .literal value :: rest
  | reference r, rest => .reference r :: rest
  | unary _ operand, rest => operand.visitsOnto enterCalls rest
  | binary _ left right, rest => left.visitsOnto enterCalls (right.visitsOnto enterCalls rest)
  | call function args, rest =>
    .call function args.length :: if enterCalls then visitsAllOnto enterCalls args rest else rest

/-- What a walk meets in several formulas, before what it meets later. -/
def visitsAllOnto (enterCalls : Bool) : List Formula → List Visit → List Visit
  | [], rest => rest
  | e :: es, rest => e.visitsOnto enterCalls (visitsAllOnto enterCalls es rest)

end

/-- What a walk through a formula meets, in order. -/
def visits (e : Formula) (enterCalls : Bool) : List Visit :=
  e.visitsOnto enterCalls []

end Formula
end ParametricPlan
