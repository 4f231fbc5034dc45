/-
ParametricPlan/Text/Dump.lean

Dumps: the structure of a value spelled out in full.

A `Dump` is what is to be shown: words, values in parentheses after a name, labelled values in
braces after a name, and lists in brackets.  It can be written in two ways.  `Dump.plain` puts all
of it in one line,

    Unary { op: Negate, operand: Reference(R7) }

and `Dump.indented` each item on a line of its own, four blanks deeper than the line that opens
its bracket and with a comma after it:

    Unary {
        op: Negate,
        operand: Reference(
            R7,
        ),
    }

A list without items is `[]` in both.
-/
namespace ParametricPlan

/-- A value to be shown in full. -/
inductive Dump where
  /-- A text that is shown as it is. -/
  | word (text : String)
  /-- An item with a label before it. -/
  | labelled (label : String) (item : Dump)
  /-- Items in parentheses after a name. -/
  | tuple (name : String) (items : List Dump)
  /-- Items in braces after a name. -/
  | record (name : String) (items : List Dump)
  /-- Items in brackets. -/
  | list (items : List Dump)

namespace Dump

/-! ### In one line -/

mutual

/-- A dump in one line, before the characters that follow it. -/
def plainOnto : Dump → List Char → List Char
  | word text, rest => text.toList ++ rest
  | labelled label item, rest => label.toList ++ ':' :: ' ' :: item.plainOnto rest
  | tuple name items, rest => name.toList ++ '(' :: plainItemsOnto items (')' :: rest)
  | record name items, rest =>
    name.toList ++ ' ' :: '\x7b' :: ' ' :: plainItemsOnto items (' ' :: '\x7d' :: rest)
  | list items, rest => '[' :: plainItemsOnto items (']' :: rest)

/-- Items with commas between them. -/
def plainItemsOnto : List Dump → List Char → List Char
  | [], rest => rest
  | [item], rest => item.plainOnto rest
  | item :: items, rest => item.plainOnto (',' :: ' ' :: plainItemsOnto items rest)

end

/-- A dump in one line. -/
def plain (d : Dump) : String :=
  String.ofList (d.plainOnto [])

/-! ### One item a line -/

/-- The start of a line at a depth of nesting. -/
def newline (depth : Nat) : List Char :=
  '\n' :: List.replicate (4 * depth) ' '

mutual

/-- A dump with its items on lines of their own, before the characters that follow it. -/
def indentedOnto (depth : Nat) : Dump → List Char → List Char
  | word text, rest => text.toList ++ rest
  | labelled label item, rest => label.toList ++ ':' :: ' ' :: item.indentedOnto depth rest
  | tuple name items, rest =>
    name.toList ++ '(' :: indentedItemsOnto (depth + 1) items (newline depth ++ ')' :: rest)
  | record name items, rest =>
    name.toList ++ ' ' :: '\x7b' ::
      indentedItemsOnto (depth + 1) items (newline depth ++ '\x7d' :: rest)
  | list [], rest => '[' :: ']' :: rest
  | list items, rest => '[' :: indentedItemsOnto (depth + 1) items (newline depth ++ ']' :: rest)

/-- Items on lines of their own, with a comma after each. -/
def indentedItemsOnto (depth : Nat) : List Dump → List Char → List Char
  | [], rest => rest
  | item :: items, rest =>
    newline depth ++ item.indentedOnto depth (',' :: indentedItemsOnto depth items rest)

end

/-- A dump with its items on lines of their own. -/
def indented (d : Dump) : String :=
  String.ofList (d.indentedOnto 0 [])

/-- A dump in either layout. -/
def render (d : Dump) (pretty : Bool) : String :=
  if pretty then d.indented else d.plain

end Dump
end ParametricPlan
