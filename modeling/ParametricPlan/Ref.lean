/-
ParametricPlan/Ref.lean

References to parameters.

A parameter is known by a number of 32 bits.  The reference to parameter 7 is written `R7`; it is
read back from an `R` and the digits of the number, which may have a plus and zeros before them.
-/
import ParametricPlan.Number.Literal
import ParametricPlan.Text.Dump

namespace ParametricPlan

/-- A reference to a parameter. -/
structure Ref where
  index : UInt32
deriving DecidableEq, Repr

namespace Ref

/-- The order of references is the order of their numbers. -/
def order (r s : Ref) : Ordering :=
  compare r.index.toNat s.index.toNat

/-- The text of a reference. -/
def text (r : Ref) : String :=
  "R" ++ toString r.index.toNat

/-- A reference in full; it is one word, which no layout breaks. -/
def dump (r : Ref) : Dump :=
  .word ("ReferenceId(" ++ toString r.index.toNat ++ ")")

/-- Reads a number of 32 bits. -/
def readIndex? (cs : List Char) : Option UInt32 :=
  let digits := match cs with
    | '+' :: ds => ds
    | ds => ds
  match Literal.readDigits? digits with
  | some n => if n < UInt32.size then some (UInt32.ofNat n) else none
  | none => none

/-- Reads a reference. -/
def read? : List Char → Option Ref
  | 'R' :: cs => (readIndex? cs).map Ref.mk
  | _ => none

end Ref
end ParametricPlan
