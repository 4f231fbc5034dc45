/-
ParametricPlan/Proofs/Formula/Tokens.lean

The tokens of a formula, part by part.

Tokens are written onto those that follow.  What follows is only ever appended to
(`tokensOnto_eq_append`), and so the tokens of a formula are those of its parts in a row, with
parentheses around an operand that its parent wraps (`Parent.tokens`): `tokens_unary`,
`tokens_binary` and `tokens_call`.  These equations are what later proofs use of the writing.

The lexemes of a formula form its phrase at the level of its loosest operator
(`grammar_lexemes`).
-/
import ParametricPlan.Proofs.Formula.ReadBack

namespace ParametricPlan

/-- A number is appended to what follows, with its sign. -/
theorem numberTokensOnto_eq_append (x : Float) (rest : List Token) :
    numberTokensOnto x rest = numberTokensOnto x [] ++ rest := by
  unfold numberTokensOnto
  split <;> rfl

theorem Value.tokensOnto_eq_append (v : Value) (rest : List Token) :
    v.tokensOnto rest = v.tokensOnto [] ++ rest := by
  rcases v with b | x | ⟨x, y⟩
  · rfl
  · exact numberTokensOnto_eq_append x rest
  · simp only [Value.tokensOnto]
    rw [numberTokensOnto_eq_append x, numberTokensOnto_eq_append x (.comma :: _),
      numberTokensOnto_eq_append y, numberTokensOnto_eq_append y [_]]
    simp only [List.cons_append, List.append_assoc, List.nil_append]

/-- A separator between elements is one before each but the first. -/
theorem intercalate_cons_eq_append_flatMap {α : Type} (separator : α) (l : List α)
    (ls : List (List α)) :
    [separator].intercalate (l :: ls) = l ++ ls.flatMap (separator :: ·) := by
  induction ls generalizing l with
  | nil => simp
  | cons l' ls ih =>
    rw [List.intercalate_cons_cons, ih, List.flatMap_cons, List.append_assoc]
    rfl

namespace Formula

variable {nameOf : Ref → String}

/-- The tokens of a formula. -/
def tokens (nameOf : Ref → String) (e : Formula) : List Token :=
  e.tokensOnto nameOf []

/-- Tokens in parentheses where these are wanted. -/
def wrapIf (wrap : Bool) (ts : List Token) : List Token :=
  if wrap then .opening :: (ts ++ [.closing]) else ts

/-- Parentheses that are opened and closed separately stand around what is between. -/
theorem openIf_append_closeIf (wrap : Bool) (ts rest : List Token) :
    openIf wrap (ts ++ closeIf wrap rest) = wrapIf wrap ts ++ rest := by
  cases wrap with
  | false => rfl
  | true => simp [openIf, closeIf, wrapIf]

/-! ### What follows is appended to -/

/-- Arguments append to what follows, with commas between them, if each of them does. -/
theorem argTokensOnto_eq_append_of {args : List Formula}
    (h : ∀ arg ∈ args, ∀ rest, arg.tokensOnto nameOf rest = arg.tokens nameOf ++ rest)
    (rest : List Token) :
    argTokensOnto nameOf args rest = [.comma].intercalate (args.map (tokens nameOf)) ++ rest := by
  induction args with
  | nil => rfl
  | cons e es ih =>
    have hes := ih fun arg ha => h arg (List.mem_cons_of_mem e ha)
    rcases es with - | ⟨e', es⟩
    · rw [argTokensOnto, h e List.mem_cons_self, List.map_singleton, List.intercalate_singleton]
    · rw [argTokensOnto, h e List.mem_cons_self, hes]
      · simp only [List.map_cons, List.intercalate_cons_cons, List.append_assoc, List.cons_append,
          List.nil_append]
      · exact List.cons_ne_nil e' es

/-- **What follows a formula is appended to, and not looked at.** -/
theorem tokensOnto_eq_append (e : Formula) (rest : List Token) :
    e.tokensOnto nameOf rest = e.tokens nameOf ++ rest := by
  induction e generalizing rest with
  | constant v => exact v.tokensOnto_eq_append rest
  | named name v => rfl
  | reference r => rfl
  | unary op operand ih =>
    simp only [tokens, tokensOnto]
    -- the closing parenthesis is part of what follows the operand
    rw [ih, ih (closeIf _ []), openIf_append_closeIf, openIf_append_closeIf, List.append_nil]
    rfl
  | binary op left right ihl ihr =>
    -- after the left operand come the operator and the right operand
    simp only [tokens, tokensOnto]
    rw [ihr, ihl, ihr (closeIf _ []), ihl (closeIf _ (_ :: _)), openIf_append_closeIf,
      openIf_append_closeIf, openIf_append_closeIf, openIf_append_closeIf]
    simp only [List.append_nil, List.append_assoc, List.cons_append]
  | call function args ih =>
    simp only [tokens, tokensOnto]
    rw [argTokensOnto_eq_append_of ih, argTokensOnto_eq_append_of ih]
    simp only [List.append_assoc, List.cons_append, List.nil_append]

end Formula

/-! ### Operands -/

/-- What an operand belongs to. -/
inductive Parent where
  | sign (op : UnaryOp)
  | operator (op : BinaryOp) (side : Side)

namespace Parent

/-- Whether an operand is put in parentheses. -/
def wraps : Parent → Formula → Bool
  | sign _, operand => operand.wrapsUnderSign
  | operator op side, operand => operand.wrapsUnder op side

/-- The tokens of an operand, with its parentheses. -/
def tokens (nameOf : Ref → String) (parent : Parent) (operand : Formula) : List Token :=
  Formula.wrapIf (parent.wraps operand) (operand.tokens nameOf)

end Parent

namespace Formula

variable {nameOf : Ref → String}

/-! ### The tokens of the parts -/

theorem tokens_unary (op : UnaryOp) (operand : Formula) :
    (unary op operand).tokens nameOf = .sign op :: (Parent.sign op).tokens nameOf operand := by
  simp only [tokens, tokensOnto]
  rw [tokensOnto_eq_append, openIf_append_closeIf, List.append_nil]
  rfl

/-- An operator comes between its operands. -/
theorem tokens_binary (op : BinaryOp) (left right : Formula) :
    (binary op left right).tokens nameOf =
      (Parent.operator op .left).tokens nameOf left ++
        .operator op :: (Parent.operator op .right).tokens nameOf right := by
  simp only [tokens, tokensOnto]
  rw [tokensOnto_eq_append right, tokensOnto_eq_append left, openIf_append_closeIf,
    openIf_append_closeIf, List.append_nil]
  rfl

/-- The arguments of a call stand in brackets behind its name, with commas between them. -/
theorem tokens_call (function : Func) (args : List Formula) :
    (call function args).tokens nameOf =
      .atom function.name :: .opening ::
        ([.comma].intercalate (args.map (tokens nameOf)) ++ [.closing]) := by
  show Token.atom _ :: .opening :: argTokensOnto nameOf args [.closing] = _
  rw [argTokensOnto_eq_append_of fun arg _ => arg.tokensOnto_eq_append]

/-! ### Lexemes -/

/-- The lexemes of a formula. -/
def lexemes (nameOf : Ref → String) (e : Formula) : List Lexeme :=
  (e.tokens nameOf).map Token.lexeme

/-- The lexemes of a formula form its phrase. -/
theorem grammar_lexemes (e : Formula) :
    Grammar e.outerLevel (e.lexemes nameOf) (e.phrase nameOf) := by
  have hwrites : Writes e.outerLevel (e.phrase nameOf) (e.tokensOnto nameOf) := e.writes_tokensOnto
  obtain ⟨ls, hg, hwrite⟩ := hwrites
  have hls : e.lexemes nameOf = ls := (hwrite []).trans (List.append_nil ls)
  rwa [hls]

end Formula

/-- The lexemes of an operand, with its parentheses. -/
def Parent.lexemes (nameOf : Ref → String) (parent : Parent) (operand : Formula) : List Lexeme :=
  (parent.tokens nameOf operand).map Token.lexeme

/-- An operand that is wrapped has brackets around its lexemes. -/
theorem Parent.lexemes_eq (nameOf : Ref → String) (parent : Parent) (operand : Formula) :
    parent.lexemes nameOf operand =
      if parent.wraps operand then .opening :: (operand.lexemes nameOf ++ [.closing])
      else operand.lexemes nameOf := by
  unfold Parent.lexemes Parent.tokens Formula.wrapIf
  split
  · rw [List.map_cons, List.map_append]
    rfl
  · rfl

end ParametricPlan
