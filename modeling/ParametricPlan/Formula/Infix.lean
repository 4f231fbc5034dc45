/-
ParametricPlan/Formula/Infix.lean

Formulas as people write them, with as few parentheses as the operators allow.

A formula becomes a list of tokens, and the text of the formula is the texts of its tokens in a
row.  An operand is put in parentheses when

* it is an infix formula under a prefix operator,
* it is an infix formula that binds more loosely than the operator it belongs to, or as tightly and
  stands on the side to which that operator does not group, or
* it begins with a sign and is the base of a power: `-a ^ b` is the opposite of a power.

References are shown by the names given to them, the others as `R` and a number; a constant with a
name is shown by its name alone.  A `Printer` holds the names and may set a limit to the length of
a text, beyond which it gives none.
-/
import ParametricPlan.Formula.Basic

namespace ParametricPlan

/-! ### Tokens -/

/-- The smallest parts of a written formula. -/
inductive Token where
  /-- A number without its sign, a truth value, or a name. -/
  | atom (text : String)
  | sign (op : UnaryOp)
  | operator (op : BinaryOp)
  | opening
  | closing
  | comma
deriving DecidableEq, Repr

namespace Token

/-- The text of a token, with the blanks that go with it. -/
def text : Token → String
  | atom text => text
  | sign op => op.symbol
  | operator op => " " ++ op.symbol ++ " "
  | opening => "("
  | closing => ")"
  | comma => ", "

/-- The text of tokens in a row. -/
def textAll (tokens : List Token) : String :=
  tokens.foldl (fun text token => text ++ token.text) ""

end Token

/-- The tokens of a number, before those that follow it. -/
def numberTokensOnto (x : Float) (rest : List Token) : List Token :=
  let atom := .atom (String.ofList (Value.numberStyle.writeRank (Binary64.rank x)))
  if Binary64.isNegative x then .sign .negate :: atom :: rest else atom :: rest

/-- The tokens of a value, before those that follow it. -/
def Value.tokensOnto : Value → List Token → List Token
  | bool b, rest => .atom (if b then "true" else "false") :: rest
  | number x, rest => numberTokensOnto x rest
  | vector x y, rest =>
    .opening :: numberTokensOnto x (.comma :: numberTokensOnto y (.closing :: rest))

/-! ### Parentheses -/

/-- The sides of an infix operator. -/
inductive Side where
  | left
  | right
deriving DecidableEq, Repr

namespace Formula

/-- Whether the text of a formula begins with a sign. -/
def startsWithSign : Formula → Bool
  | unary .. => true
  | constant (.number x) => Binary64.isNegative x
  | _ => false

/-- Whether a formula needs parentheses after a prefix operator. -/
def wrapsUnderSign : Formula → Bool
  | binary .. => true
  | _ => false

/-- Whether a formula needs parentheses as an operand of an infix operator. -/
def wrapsUnder (parent : BinaryOp) (side : Side) (e : Formula) : Bool :=
  if parent = .power ∧ side = .left ∧ e.startsWithSign then true
  else match e with
    | binary op _ _ =>
      if op.level = parent.level then
        match side with
        | .left => parent.groupsRight
        | .right => !parent.groupsRight
      else parent.level < op.level
    | _ => false

/-- An opening parenthesis where one is wanted. -/
def openIf (wrap : Bool) (rest : List Token) : List Token :=
  if wrap then .opening :: rest else rest

/-- A closing parenthesis where one is wanted. -/
def closeIf (wrap : Bool) (rest : List Token) : List Token :=
  if wrap then .closing :: rest else rest

/-! ### Formulas -/

mutual

/-- The tokens of a formula, before those that follow it. -/
def tokensOnto (nameOf : Ref → String) : Formula → List Token → List Token
  | constant value, rest => value.tokensOnto rest
  | named name _, rest => .atom name :: rest
  | reference r, rest => .atom (nameOf r) :: rest
  | unary op operand, rest =>
    let wrap := operand.wrapsUnderSign
    .sign op :: openIf wrap (operand.tokensOnto nameOf (closeIf wrap rest))
  | binary op left right, rest =>
    let wrapLeft := left.wrapsUnder op .left
    let wrapRight := right.wrapsUnder op .right
    openIf wrapLeft (left.tokensOnto nameOf (closeIf wrapLeft
      (.operator op :: openIf wrapRight (right.tokensOnto nameOf (closeIf wrapRight rest)))))
  | call function args, rest =>
    .atom function.name :: .opening :: argTokensOnto nameOf args (.closing :: rest)

/-- The tokens of arguments with commas between them, before those that follow them. -/
def argTokensOnto (nameOf : Ref → String) : List Formula → List Token → List Token
  | [], rest => rest
  | [e], rest => e.tokensOnto nameOf rest
  | e :: es, rest => e.tokensOnto nameOf (.comma :: argTokensOnto nameOf es rest)

end

/-- The text of a formula. -/
def infixText (e : Formula) (nameOf : Ref → String) : String :=
  Token.textAll (e.tokensOnto nameOf [])

end Formula

/-! ### Printers -/

/-- A way to show formulas; some may show none for a formula. -/
abbrev Renderer := Formula → Option String

/-- The names of references, the latest first, and a limit to the length of a text. -/
structure Printer where
  names : List (Ref × String)
  maxWidth : Option Nat

namespace Printer

/-- The printer without names or limit. -/
def plain : Printer := ⟨[], none⟩

/-- Gives a reference a name, in place of the one it had. -/
def withName (p : Printer) (r : Ref) (name : String) : Printer :=
  ⟨(r, name) :: p.names, p.maxWidth⟩

/-- What a reference is shown as. -/
def nameOf (p : Printer) (r : Ref) : String :=
  (p.names.lookup r).getD r.text

/-- The text of a formula, unless it is longer than the limit. -/
def render (p : Printer) : Renderer := fun e =>
  let text := e.infixText p.nameOf
  match p.maxWidth with
  | some width => if text.length ≤ width then some text else none
  | none => some text

end Printer
end ParametricPlan
