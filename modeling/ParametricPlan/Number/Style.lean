/-
ParametricPlan/Number/Style.lean

Writing numbers.

A number is written with the digits of its shortest decimal, in one of two layouts: positionally,
with as many zeros as it takes to reach the decimal point, or with an exponent after the first
digit.  A `NumberStyle` decides which of the two applies, by the position of the decimal point, and
whether a whole number ends in `.0`.  Either layout follows the grammar of number literals.
-/
import ParametricPlan.Number.Decimal

namespace ParametricPlan

open Binary64

/-- How numbers are laid out. -/
structure NumberStyle where
  /-- Whether whole numbers end in `.0`. -/
  wholePoint : Bool
  /-- The first and last position of the decimal point written without an exponent; `none` if an
  exponent is never written. -/
  positional : Option (Int × Int)
deriving DecidableEq, Repr

namespace NumberStyle

/-- Zeros in a row. -/
def zeros (n : Nat) : List Char :=
  List.replicate n '0'

/-- Digits with the decimal point after the first `point` of them. -/
def writePositional (s : NumberStyle) (ds : List Char) (point : Int) : List Char :=
  if ds.length ≤ point then
    ds ++ zeros (point.toNat - ds.length) ++ if s.wholePoint then ['.', '0'] else []
  else if 0 < point then ds.take point.toNat ++ '.' :: ds.drop point.toNat
  else '0' :: '.' :: (zeros (-point).toNat ++ ds)

/-- Digits with the decimal point after the first one, and an exponent. -/
def writeScientific (ds : List Char) (point : Int) : List Char :=
  let fraction := if ds.length ≤ 1 then [] else '.' :: ds.drop 1
  ds.take 1 ++ fraction ++ 'e' :: (toString (point - 1)).toList

/-- A number without its sign. -/
def writeDecimal (s : NumberStyle) (d : Decimal) : List Char :=
  let ds := Nat.toDigits 10 d.digits
  let point := ds.length + d.exponent
  match s.positional with
  | some (first, last) =>
    if d.digits = 0 ∨ first ≤ point ∧ point ≤ last then s.writePositional ds point
    else writeScientific ds point
  | none => s.writePositional ds point

/-- The characters of a rank: a word for infinity and for the NaN, else the shortest decimal. -/
def writeRank (s : NumberStyle) (rank : Nat) : List Char :=
  if infinityRank < rank then ['N', 'a', 'N']
  else if rank = infinityRank then ['i', 'n', 'f']
  else if rank = 0 then s.writeDecimal ⟨0, 0⟩
  else s.writeDecimal (.shortest rank)

/-- The characters of a number; a NaN has no sign. -/
def writeChars (s : NumberStyle) (x : Float) : List Char :=
  if isNegative x then '-' :: s.writeRank (rank x) else s.writeRank (rank x)

/-- A number's text. -/
def write (s : NumberStyle) (x : Float) : String :=
  String.ofList (s.writeChars x)

end NumberStyle
end ParametricPlan
