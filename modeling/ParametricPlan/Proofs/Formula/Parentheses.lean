/-
ParametricPlan/Proofs/Formula/Parentheses.lean

The parentheses around operands.

A pair of parentheses is given by the operand in it and the tokens before and after it, so that the
tokens can be put together with the pair (`Parentheses.kept`) and without it
(`Parentheses.dropped`).  `Formula.parentheses` lists the pairs around operands in the tokens of a
formula, following the formula: a pair of an operand is one of the whole, with more before and after
it (`Parentheses.within`).

The list is right.  Each of its pairs is in the tokens, around an operand that is wrapped
(`parentheses_in`), the pairs begin at different places, one after the other
(`oneAfterAnother_parentheses`), and no other parenthesis is opened in the tokens but those of
vectors and calls (`openings_tokens`).
-/
import ParametricPlan.Proofs.Formula.Tokens

namespace ParametricPlan

/-! ### Pairs -/

/-- A pair of parentheses around an operand, with the tokens before and after it. -/
structure Parentheses where
  before : List Token
  parent : Parent
  operand : Formula
  after : List Token

namespace Parentheses

/-- The pair with more before and after it. -/
def within (before after : List Token) (q : Parentheses) : Parentheses :=
  ⟨before ++ q.before, q.parent, q.operand, q.after ++ after⟩

/-- The tokens with the pair. -/
def kept (nameOf : Ref → String) (q : Parentheses) : List Token :=
  q.before ++ .opening :: (q.operand.tokens nameOf ++ .closing :: q.after)

/-- The tokens without the pair. -/
def dropped (nameOf : Ref → String) (q : Parentheses) : List Token :=
  q.before ++ (q.operand.tokens nameOf ++ q.after)

/-- The pair begins before another one. -/
def Ahead (q q' : Parentheses) : Prop :=
  q.before.length < q'.before.length

end Parentheses

open Formula Parentheses

/-- The pairs of an operand: the one around it, if it is wrapped, and those in it. -/
def Parent.pairs (parent : Parent) (operand : Formula) (inner : List Parentheses) :
    List Parentheses :=
  if parent.wraps operand then
    ⟨[], parent, operand, []⟩ :: inner.map (within [.opening] [.closing])
  else inner

namespace Formula

/-- The tokens of further arguments. -/
def moreTokens (nameOf : Ref → String) (args : List Formula) : List Token :=
  args.flatMap fun arg => .comma :: arg.tokens nameOf

mutual

/-- The pairs of parentheses around operands in the tokens of a formula. -/
def parentheses (nameOf : Ref → String) : Formula → List Parentheses
  | constant _ | named _ _ | reference _ => []
  | unary op operand =>
    ((Parent.sign op).pairs operand (operand.parentheses nameOf)).map (within [.sign op] [])
  | binary op left right =>
    let leftTokens := (Parent.operator op .left).tokens nameOf left
    let rightTokens := (Parent.operator op .right).tokens nameOf right
    ((Parent.operator op .left).pairs left (left.parentheses nameOf)).map
        (within [] (.operator op :: rightTokens)) ++
      ((Parent.operator op .right).pairs right (right.parentheses nameOf)).map
        (within (leftTokens ++ [.operator op]) [])
  | call function args =>
    (argParentheses nameOf args).map (within [.atom function.name, .opening] [.closing])

/-- The pairs of parentheses around operands in the tokens of arguments. -/
def argParentheses (nameOf : Ref → String) : List Formula → List Parentheses
  | [] => []
  | e :: es =>
    (e.parentheses nameOf).map (within [] (moreTokens nameOf es)) ++
      (argParentheses nameOf es).map (within (e.tokens nameOf ++ [.comma]) [])

end

end Formula

variable {nameOf : Ref → String} {q : Parentheses} {ts before after : List Token}

/-! ### Where a pair stands -/

namespace Token

/-- Whether the last of some tokens is an atom. -/
def endsWithAtom (ts : List Token) : Bool :=
  match ts.getLast? with
  | some (.atom _) => true
  | _ => false

/-- No atom is last, be there a second part or not. -/
theorem endsWithAtom_append {ts us : List Token} (h : endsWithAtom ts = false)
    (h' : endsWithAtom us = false) : endsWithAtom (ts ++ us) = false := by
  rcases List.eq_nil_or_concat us with rfl | ⟨us, t, rfl⟩
  · rwa [List.append_nil]
  · simpa [endsWithAtom, ← List.append_assoc] using h'

/-- No atom is first, be there a first part or not. -/
theorem startsWithAtom_append {ts us : List Token} (h : startsWithAtom ts = false)
    (h' : startsWithAtom us = false) : startsWithAtom (ts ++ us) = false := by
  rcases ts with - | ⟨t, ts⟩
  · exact h'
  · cases t with
    | atom => cases h
    | sign | operator | opening | closing | comma => rfl

end Token

open Token

/-- A pair is in some tokens, around an operand that is wrapped, with no atom beside it. -/
structure Parentheses.In (nameOf : Ref → String) (q : Parentheses) (ts : List Token) : Prop where
  kept : q.kept nameOf = ts
  wraps : q.parent.wraps q.operand = true
  before : endsWithAtom q.before = false
  after : startsWithAtom q.after = false

/-- A pair stays in the tokens when more are written around them. -/
theorem Parentheses.In.within (h : q.In nameOf ts) (hb : endsWithAtom before = false)
    (ha : startsWithAtom after = false) :
    (q.within before after).In nameOf (before ++ (ts ++ after)) where
  kept := by
    rw [← h.kept]
    simp only [Parentheses.kept, Parentheses.within, List.append_assoc, List.cons_append]
  wraps := h.wraps
  before := endsWithAtom_append hb h.before
  after := startsWithAtom_append h.after ha

/-- A pair stays in the tokens when more are written before them. -/
theorem Parentheses.In.following (h : q.In nameOf ts) (hb : endsWithAtom before = false) :
    (q.within before []).In nameOf (before ++ ts) := by
  have hin := h.within hb (show startsWithAtom [] = false from rfl)
  rwa [List.append_nil] at hin

/-- A pair begins before the tokens end. -/
theorem Parentheses.In.length_lt (h : q.In nameOf ts) : q.before.length < ts.length := by
  rw [← h.kept, Parentheses.kept, List.length_append, List.length_cons]
  omega

/-- The pairs of an operand are in its tokens, the one around it included. -/
theorem pairs_in {parent : Parent} {operand : Formula} {inner : List Parentheses}
    (h : ∀ q ∈ inner, q.In nameOf (operand.tokens nameOf)) :
    ∀ q ∈ parent.pairs operand inner, q.In nameOf (parent.tokens nameOf operand) := by
  intro q hq
  unfold Parent.pairs at hq
  unfold Parent.tokens wrapIf
  split at hq
  case isTrue hw =>
    rw [if_pos hw]
    rcases List.mem_cons.mp hq with rfl | hq
    · exact ⟨rfl, hw, rfl, rfl⟩
    · obtain ⟨q', hq', rfl⟩ := List.mem_map.mp hq
      have hb : endsWithAtom [.opening] = false := rfl
      exact (h q' hq').within hb rfl
  case isFalse hw =>
    rw [if_neg hw]
    exact h q hq

namespace Formula

/-- The first argument, and the further ones with a comma before each. -/
theorem intercalate_tokens_cons (e : Formula) (es : List Formula) :
    [.comma].intercalate ((e :: es).map (tokens nameOf)) =
      e.tokens nameOf ++ moreTokens nameOf es := by
  rw [List.map_cons, intercalate_cons_eq_append_flatMap, List.flatMap_map]
  rfl

theorem startsWithAtom_moreTokens (args : List Formula) :
    startsWithAtom (moreTokens nameOf args) = false := by
  cases args <;> rfl

/-- The pairs of arguments are in their tokens. -/
theorem argParentheses_in {args : List Formula}
    (h : ∀ arg ∈ args, ∀ q ∈ arg.parentheses nameOf, q.In nameOf (arg.tokens nameOf)) :
    ∀ q ∈ argParentheses nameOf args,
      q.In nameOf ([.comma].intercalate (args.map (tokens nameOf))) := by
  induction args with
  | nil => exact fun q hq => absurd hq List.not_mem_nil
  | cons e es ih =>
    intro q hq
    rcases List.mem_append.mp hq with hq | hq
    · obtain ⟨q', hq', rfl⟩ := List.mem_map.mp hq
      have hin := h e List.mem_cons_self q' hq'
      rw [intercalate_tokens_cons]
      exact hin.within rfl (startsWithAtom_moreTokens es)
    · obtain ⟨q', hq', rfl⟩ := List.mem_map.mp hq
      have hin := ih (fun arg ha => h arg (List.mem_cons_of_mem e ha)) q' hq'
      rcases es with - | ⟨e', es⟩
      · exact absurd hq' List.not_mem_nil
      · -- what comes before is another argument and a comma, which is no atom
        have hcomma : endsWithAtom (e.tokens nameOf ++ [.comma]) = false := by simp [endsWithAtom]
        simp only [List.map_cons, List.intercalate_cons_cons] at hin ⊢
        exact hin.following hcomma

/-- **The pairs of a formula are in its tokens.** -/
theorem parentheses_in (e : Formula) :
    ∀ q ∈ e.parentheses nameOf, q.In nameOf (e.tokens nameOf) := by
  induction e with
  | constant | named | reference => exact fun q hq => absurd hq List.not_mem_nil
  | unary op operand ih =>
    intro q hq
    obtain ⟨q', hq', rfl⟩ := List.mem_map.mp hq
    have hsign : endsWithAtom [.sign op] = false := rfl
    rw [tokens_unary]
    exact (pairs_in ih q' hq').following hsign
  | binary op left right ihl ihr =>
    intro q hq
    rw [tokens_binary]
    rcases List.mem_append.mp hq with hq | hq
    · obtain ⟨q', hq', rfl⟩ := List.mem_map.mp hq
      exact (pairs_in ihl q' hq').within rfl rfl
    · obtain ⟨q', hq', rfl⟩ := List.mem_map.mp hq
      have hoperator : endsWithAtom ((Parent.operator op .left).tokens nameOf left ++
          [.operator op]) = false := by simp [endsWithAtom]
      have hin := (pairs_in ihr q' hq').following hoperator
      rwa [List.append_assoc] at hin
  | call function args ih =>
    intro q hq
    obtain ⟨q', hq', rfl⟩ := List.mem_map.mp hq
    have hopening : endsWithAtom [.atom function.name, .opening] = false := rfl
    rw [tokens_call]
    exact (argParentheses_in ih q' hq').within hopening rfl

end Formula

/-! ### The order of pairs -/

/-- The pairs begin one after the other. -/
abbrev OneAfterAnother (qs : List Parentheses) : Prop :=
  qs.Pairwise Ahead

/-- More before and after does not change the order. -/
theorem oneAfterAnother_within {qs : List Parentheses} (h : OneAfterAnother qs)
    (before after : List Token) : OneAfterAnother (qs.map (within before after)) := by
  refine List.pairwise_map.mpr (h.imp ?_)
  intro q q' hahead
  simpa [Ahead, within] using hahead

/-- Pairs of what is written first come before pairs of what is written after it. -/
theorem oneAfterAnother_append {qs qs' : List Parentheses} {ts after before more : List Token}
    (hqs : OneAfterAnother qs) (hqs' : OneAfterAnother qs') (hin : ∀ q ∈ qs, q.In nameOf ts)
    (hle : ts.length ≤ before.length) :
    OneAfterAnother (qs.map (within [] after) ++ qs'.map (within before more)) := by
  refine List.pairwise_append.mpr
    ⟨oneAfterAnother_within hqs [] after, oneAfterAnother_within hqs' before more, ?_⟩
  intro a ha b hb
  obtain ⟨q, hq, rfl⟩ := List.mem_map.mp ha
  obtain ⟨q', -, rfl⟩ := List.mem_map.mp hb
  have hlt : q.before.length < ts.length := (hin q hq).length_lt
  simp only [Ahead, within, List.nil_append, List.length_append]
  omega

/-- The pair around an operand begins before those in it. -/
theorem oneAfterAnother_pairs {parent : Parent} {operand : Formula} {inner : List Parentheses}
    (h : OneAfterAnother inner) : OneAfterAnother (parent.pairs operand inner) := by
  unfold Parent.pairs
  split
  case isFalse => exact h
  case isTrue =>
    refine List.pairwise_cons.mpr ⟨?_, oneAfterAnother_within h _ _⟩
    intro a ha
    obtain ⟨q, -, rfl⟩ := List.mem_map.mp ha
    exact Nat.succ_pos _

namespace Formula

/-- The pairs of one argument begin before those of the next. -/
theorem oneAfterAnother_argParentheses {args : List Formula}
    (h : ∀ arg ∈ args, OneAfterAnother (arg.parentheses nameOf)) :
    OneAfterAnother (argParentheses nameOf args) := by
  induction args with
  | nil => exact List.Pairwise.nil
  | cons e es ih =>
    have hes := ih fun arg ha => h arg (List.mem_cons_of_mem e ha)
    refine oneAfterAnother_append (h e List.mem_cons_self) hes e.parentheses_in ?_
    simp

/-- **The pairs of a formula begin one after the other.** -/
theorem oneAfterAnother_parentheses (e : Formula) : OneAfterAnother (e.parentheses nameOf) := by
  induction e with
  | constant | named | reference => exact List.Pairwise.nil
  | unary op operand ih => exact oneAfterAnother_within (oneAfterAnother_pairs ih) _ _
  | binary op left right ihl ihr =>
    refine oneAfterAnother_append (oneAfterAnother_pairs ihl) (oneAfterAnother_pairs ihr)
      (pairs_in left.parentheses_in) ?_
    simp
  | call function args ih => exact oneAfterAnother_within (oneAfterAnother_argParentheses ih) _ _

end Formula

/-! ### The number of pairs -/

namespace Token

/-- How often a parenthesis is opened. -/
def openings (ts : List Token) : Nat :=
  ts.count .opening

@[simp] theorem openings_nil : openings [] = 0 :=
  rfl

@[simp] theorem openings_append (ts us : List Token) :
    openings (ts ++ us) = openings ts + openings us :=
  List.count_append

@[simp] theorem openings_cons (t : Token) (ts : List Token) :
    openings (t :: ts) = openings ts + if t = .opening then 1 else 0 := by
  simp [openings, List.count_cons]

end Token

namespace Formula

mutual

/-- The number of vectors and calls in a formula, which have brackets of their own. -/
def brackets : Formula → Nat
  | constant (.vector _ _) => 1
  | constant _ | named _ _ | reference _ => 0
  | unary _ operand => operand.brackets
  | binary _ left right => left.brackets + right.brackets
  | call _ args => 1 + argBrackets args

/-- The number of vectors and calls in several formulas. -/
def argBrackets : List Formula → Nat
  | [] => 0
  | e :: es => e.brackets + argBrackets es

end

theorem openings_numberTokensOnto (x : Float) (rest : List Token) :
    openings (numberTokensOnto x rest) = openings rest := by
  unfold numberTokensOnto
  split <;> simp

/-- A vector opens a bracket, and no other value does. -/
theorem openings_value (v : Value) : openings (v.tokensOnto []) = (constant v).brackets := by
  rcases v with b | x | ⟨x, y⟩
  · rfl
  · exact openings_numberTokensOnto x []
  · simp [Value.tokensOnto, openings_numberTokensOnto, brackets]

/-- An operand that is wrapped has one parenthesis more, and one pair more. -/
theorem openings_operand (parent : Parent) {operand : Formula} {inner : List Parentheses} {n : Nat}
    (h : openings (operand.tokens nameOf) = inner.length + n) :
    openings (parent.tokens nameOf operand) = (parent.pairs operand inner).length + n := by
  unfold Parent.tokens wrapIf Parent.pairs
  split
  · simp [h]
    omega
  · exact h

/-- Commas open nothing. -/
theorem openings_args {args : List Formula}
    (h : ∀ arg ∈ args, openings (arg.tokens nameOf) =
      (arg.parentheses nameOf).length + arg.brackets) :
    openings ([.comma].intercalate (args.map (tokens nameOf))) =
      (argParentheses nameOf args).length + argBrackets args := by
  induction args with
  | nil => rfl
  | cons e es ih =>
    have he := h e List.mem_cons_self
    have hes := ih fun arg ha => h arg (List.mem_cons_of_mem e ha)
    rcases es with - | ⟨e', es⟩
    · simpa [argParentheses, argBrackets] using he
    · simp only [List.map_cons] at hes
      simp only [List.map_cons, List.intercalate_cons_cons, openings_append, he, hes,
        argParentheses, argBrackets, List.length_append, List.length_map]
      simp
      omega

/-- **Every parenthesis of a text is one of a pair around an operand**, or opens a vector or the
arguments of a call. -/
theorem openings_tokens (e : Formula) :
    openings (e.tokens nameOf) = (e.parentheses nameOf).length + e.brackets := by
  induction e with
  | constant v => exact (openings_value v).trans (Nat.zero_add _).symm
  | named | reference => rfl
  | unary op operand ih =>
    have hoperand := openings_operand (.sign op) ih
    simpa [tokens_unary, parentheses, brackets] using hoperand
  | binary op left right ihl ihr =>
    have hleft := openings_operand (.operator op .left) ihl
    have hright := openings_operand (.operator op .right) ihr
    simp [tokens_binary, parentheses, brackets, hleft, hright]
    omega
  | call function args ih =>
    have hargs := openings_args ih
    simp [tokens_call, parentheses, brackets, hargs]
    omega

end Formula
end ParametricPlan
