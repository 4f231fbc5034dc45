/-
ParametricPlan/Number/Literal.lean

Reading numbers.

    number   = [ "+" | "-" ] ( "inf" | "infinity" | "nan" | decimal )
    decimal  = ( digits [ "." [ digits ] ] | "." digits ) [ exponent ]
    exponent = ( "e" | "E" ) [ "+" | "-" ] digits

The words may be written in any mixture of cases, digits are `0` to `9`, and nothing may stand
around a number.  A decimal is read as the double nearest to it, so one that is too large is read
as an infinity.
-/
import ParametricPlan.Number.Decimal

namespace ParametricPlan.Literal

open Binary64

/-- The number that a list of digits stands for. -/
def digitsValue (ds : List Char) : Nat :=
  ds.foldl (fun n d => 10 * n + (d.toNat - '0'.toNat)) 0

/-- Digits, at least one and nothing else. -/
def readDigits? (cs : List Char) : Option Nat :=
  if cs ≠ [] ∧ cs.all Char.isDigit then some (digitsValue cs) else none

/-- Whether a text begins with a minus, and what follows its sign. -/
def splitSign : List Char → Bool × List Char
  | '-' :: cs => (true, cs)
  | '+' :: cs => (false, cs)
  | cs => (false, cs)

/-- An exponent part; there may be none. -/
def readExponent? : List Char → Option Int
  | [] => some 0
  | c :: cs =>
    if c = 'e' ∨ c = 'E' then
      let (negative, ds) := splitSign cs
      (readDigits? ds).map fun n => if negative then -(n : Int) else n
    else none

/-- A decimal without a sign. -/
def readDecimal? (cs : List Char) : Option Decimal :=
  let (whole, rest) := cs.span Char.isDigit
  let (fraction, rest) := match rest with
    | '.' :: rest => rest.span Char.isDigit
    | rest => ([], rest)
  if whole ++ fraction = [] then none
  else (readExponent? rest).map fun e => ⟨digitsValue (whole ++ fraction), e - fraction.length⟩

/-- A number. -/
def readNumber? (cs : List Char) : Option Float :=
  let (negative, cs) := splitSign cs
  let word := String.ofList (cs.map Char.toLower)
  if word = "inf" ∨ word = "infinity" then some (ofRank negative infinityRank)
  else if word = "nan" then some nan
  else (readDecimal? cs).map fun d => ofRank negative d.rank

end ParametricPlan.Literal
