/-
ParametricPlan/Proofs/Formula/Grammar.lean

The grammar of written formulas.

What a text says is a `Phrase`, a formula whose leaves are texts.  `Grammar n ls t` says that the
lexemes `ls` form the phrase `t`, and that no operator in them outside of brackets binds more
loosely than level `n`.  The levels of operators and the side to which they group decide what may
stand beside an operator: on that side a phrase as loose as the operator, on the other side only a
tighter one.  A sign takes a phrase of the level of powers, so that it binds tighter than any other
operator, but a power binds tighter than a sign before its base, and an exponent may begin with a
sign:

    -a ^ b = -(a ^ b)        -a * b = (-a) * b        a ^ -b ^ c = a ^ (-(b ^ c))

The grammar is declarative; that no text has two readings is proved in `Unambiguous`.
-/
import ParametricPlan.Proofs.Formula.Lexeme

namespace ParametricPlan

/-! ### Phrases -/

/-- What a text says: a formula whose leaves are texts. -/
inductive Phrase where
  | atom (text : String)
  | vector (x y : String)
  | unary (op : UnaryOp) (operand : Phrase)
  | binary (op : BinaryOp) (left right : Phrase)
  | call (function : Func) (args : List Phrase)

/-! ### Levels -/

/-- The level of the operands of signs. -/
def signLevel : Nat := BinaryOp.power.level

/-- The level of all operators together. -/
def loosest : Nat := BinaryOp.or.level

namespace BinaryOp

/-- The level of the phrases before an operator. -/
def leftLevel (op : BinaryOp) : Nat :=
  if op.groupsRight then op.level - 1 else op.level

/-- The level of the phrases after an operator. -/
def rightLevel (op : BinaryOp) : Nat :=
  if op.groupsRight then op.level else op.level - 1

end BinaryOp

/-! ### The grammar -/

/-- A number in a vector, with its text. -/
inductive Component : List Lexeme → String → Prop
  | plain (text : String) : Component [.word text] text
  | signed (text : String) :
      Component [.symbol UnaryOp.negate.symbol, .word text] (UnaryOp.negate.symbol ++ text)

/-- `Grammar n ls t`: the lexemes `ls` form the phrase `t`, with no operator outside of brackets
that binds more loosely than level `n`. -/
inductive Grammar : Nat → List Lexeme → Phrase → Prop
  | atom (n : Nat) (text : String) : Grammar n [.word text] (.atom text)
  | vector (n : Nat) {l r : List Lexeme} {x y : String} :
      Component l x → Component r y →
      Grammar n (.opening :: (l ++ .comma :: (r ++ [.closing]))) (.vector x y)
  | brackets (n : Nat) {ls : List Lexeme} {t : Phrase} :
      Grammar loosest ls t → Grammar n (.opening :: (ls ++ [.closing])) t
  | call (n : Nat) (function : Func) (args : List (List Lexeme × Phrase)) :
      (∀ arg ∈ args, Grammar loosest arg.1 arg.2) →
      Grammar n
        (.word function.name :: .opening ::
          ([Lexeme.comma].intercalate (args.map Prod.fst) ++ [.closing]))
        (.call function (args.map Prod.snd))
  | sign {n : Nat} (op : UnaryOp) {ls : List Lexeme} {t : Phrase} :
      signLevel ≤ n → Grammar signLevel ls t →
      Grammar n (.symbol op.symbol :: ls) (.unary op t)
  | operator {n : Nat} (op : BinaryOp) {l r : List Lexeme} {a b : Phrase} :
      op.level ≤ n → Grammar op.leftLevel l a → Grammar op.rightLevel r b →
      Grammar n (l ++ .symbol op.symbol :: r) (.binary op a b)

/-- A phrase is also one of every looser level. -/
theorem Grammar.mono {m n : Nat} {ls : List Lexeme} {t : Phrase} (h : Grammar m ls t)
    (hmn : m ≤ n) : Grammar n ls t := by
  cases h with
  | atom _ text => exact .atom n text
  | vector _ hx hy => exact .vector n hx hy
  | brackets _ h => exact .brackets n h
  | call _ function args h => exact .call n function args h
  | sign op hop h => exact .sign op (Nat.le_trans hop hmn) h
  | operator op hop hl hr => exact .operator op (Nat.le_trans hop hmn) hl hr

/-- The readings of a text. -/
def ReadsAs (text : String) (t : Phrase) : Prop :=
  ∃ ls, Lexeme.scan text = some ls ∧ Grammar loosest ls t

end ParametricPlan
