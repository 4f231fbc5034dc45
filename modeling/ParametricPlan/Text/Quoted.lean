/-
ParametricPlan/Text/Quoted.lean

Text between quotation marks.

A quoted text can hold any characters: the quotation mark and the backslash are written with a
backslash before them, a few controls by a letter, and every other character that could not be
seen by its number in hexadecimal digits, between braces.  All others stand for themselves.

The escape of a character never begins with the quotation mark, so a quoted text ends at the first
mark that no escape covers.
-/
import ParametricPlan.Text.Printable

namespace ParametricPlan.Quoted

/-- How a character is written between quotation marks. -/
def escape (c : Char) : List Char :=
  match c with
  | '\x00' => ['\\', '0']
  | '\t' => ['\\', 't']
  | '\n' => ['\\', 'n']
  | '\r' => ['\\', 'r']
  | '"' => ['\\', '"']
  | '\\' => ['\\', '\\']
  | c =>
    if isPrintable c then [c]
    else '\\' :: 'u' :: '\x7b' :: (Nat.toDigits 16 c.toNat ++ ['\x7d'])

/-- A text between quotation marks. -/
def quote (text : String) : String :=
  String.ofList ('"' :: (text.toList.flatMap escape ++ ['"']))

end ParametricPlan.Quoted
