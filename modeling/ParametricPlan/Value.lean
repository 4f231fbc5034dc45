/-
ParametricPlan/Value.lean

The values that formulas compute with: truth values, numbers, and vectors of the plane.

Numbers are double precision numbers.  Two values are equal when they are of one kind and their
parts are equal as numbers, so the two zeros are one number here and a NaN equals nothing; the
`==` of values says just that.  Their texts keep the zeros apart.
-/
import ParametricPlan.Number.Style
import ParametricPlan.Text.Dump

namespace ParametricPlan

/-- The kinds of values. -/
inductive Kind where
  | bool
  | number
  | vector
deriving DecidableEq, Repr

/-- What a kind is called in messages. -/
def Kind.name : Kind → String
  | bool => "bool"
  | number => "number"
  | vector => "vector"

/-- A value. -/
inductive Value where
  | bool (b : Bool)
  | number (x : Float)
  | vector (x y : Float)
deriving DecidableEq

namespace Value

/-- The kind of a value. -/
def kind : Value → Kind
  | bool _ => .bool
  | number _ => .number
  | vector _ _ => .vector

/-- Equality of values of one kind, by their parts. -/
def equal : Value → Value → Bool
  | bool a, bool b => a == b
  | number x, number y => x == y
  | vector x y, vector x' y' => x == x' && y == y'
  | _, _ => false

instance : BEq Value := ⟨equal⟩

/-! ### Texts -/

/-- Numbers in formulas and reports: every digit up to the decimal point, and no point after a
whole number. -/
def numberStyle : NumberStyle := ⟨false, none⟩

/-- Numbers in dumps: a point in every one, or else an exponent, from `10 ^ 16` on and below
`10 ^ (-4)`. -/
def dumpStyle : NumberStyle := ⟨true, some (-3, 16)⟩

/-- The text of a value. -/
def text : Value → String
  | bool b => if b then "true" else "false"
  | number x => numberStyle.write x
  | vector x y => "(" ++ numberStyle.write x ++ ", " ++ numberStyle.write y ++ ")"

/-- A value in full. -/
def dump : Value → Dump
  | bool b => .tuple "Bool" [.word (if b then "true" else "false")]
  | number x => .tuple "Number" [.word (dumpStyle.write x)]
  | vector x y =>
    .record "Vector" [.labelled "x" (.word (dumpStyle.write x)),
      .labelled "y" (.word (dumpStyle.write y))]

end Value
end ParametricPlan
