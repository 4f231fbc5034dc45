/-
ParametricPlan/Proofs/Formula/ReadBack.lean

The text of a formula reads back as the formula.

A text shows less than the formula it was written for: a named constant, a reference and a truth
value are words like any other, and a negative number is the opposite of a positive one.  The
phrase of a formula (`Formula.phrase`) is what remains.  Main result: the text of a formula reads
as its phrase, and as nothing else (`render_readsAs_iff`), which is to say that the printer leaves
out no parenthesis that is needed.

The proof follows the formula.  With the level of its loosest operator (`outerLevel`) every formula
is a phrase of the grammar, and an operand without parentheses is one of the level that its place
allows (`outerLevel_le_leftLevel`, `outerLevel_le_rightLevel`).
-/
import ParametricPlan.Proofs.Formula.Legible
import ParametricPlan.Proofs.Formula.Unambiguous

namespace ParametricPlan

/-! ### What a text shows of a formula -/

/-- The text of a number without its sign. -/
def magnitudeText (x : Float) : String :=
  String.ofList (Value.numberStyle.writeRank (Binary64.rank x))

/-- What a text shows of a value. -/
def Value.phrase : Value → Phrase
  | number x =>
    if Binary64.isNegative x then .unary .negate (.atom (magnitudeText x))
    else .atom (number x).text
  | vector x y => .vector (number x).text (number y).text
  | v => .atom v.text

namespace Formula

mutual

/-- What a text shows of a formula. -/
def phrase (nameOf : Ref → String) : Formula → Phrase
  | constant value => value.phrase
  | named name _ => .atom name
  | reference r => .atom (nameOf r)
  | unary op operand => .unary op (operand.phrase nameOf)
  | binary op left right => .binary op (left.phrase nameOf) (right.phrase nameOf)
  | call function args => .call function (phraseAll nameOf args)

/-- What a text shows of several formulas. -/
def phraseAll (nameOf : Ref → String) : List Formula → List Phrase
  | [] => []
  | e :: es => e.phrase nameOf :: phraseAll nameOf es

end

variable {nameOf : Ref → String}

/-! ### Writing a phrase -/

/-- What is written before some tokens forms a phrase of level `n`, whatever these tokens are. -/
def Writes (n : Nat) (t : Phrase) (write : List Token → List Token) : Prop :=
  ∃ ls, Grammar n ls t ∧ ∀ rest, (write rest).map Token.lexeme = ls ++ rest.map Token.lexeme

/-- A sign before a phrase of the level of powers is one of that level. -/
theorem writes_sign (op : UnaryOp) {t : Phrase} {write : List Token → List Token}
    (h : Writes signLevel t write) :
    Writes signLevel (.unary op t) fun rest => .sign op :: write rest := by
  obtain ⟨ls, hg, hw⟩ := h
  refine ⟨.symbol op.symbol :: ls, .sign op (Nat.le_refl _) hg, fun rest => ?_⟩
  rw [List.map_cons, hw]
  rfl

/-- An operator between two phrases of the levels that it allows is one of its own level. -/
theorem writes_operator (op : BinaryOp) {a b : Phrase} {left right : List Token → List Token}
    (hl : Writes op.leftLevel a left) (hr : Writes op.rightLevel b right) :
    Writes op.level (.binary op a b) fun rest => left (.operator op :: right rest) := by
  obtain ⟨l, hgl, hwl⟩ := hl
  obtain ⟨r, hgr, hwr⟩ := hr
  refine ⟨l ++ .symbol op.symbol :: r, .operator op (Nat.le_refl _) hgl hgr, fun rest => ?_⟩
  rw [hwl, List.map_cons, hwr, List.append_assoc]
  rfl

/-- With parentheses a phrase may stand anywhere, without them only where its level may. -/
theorem writes_operand {m n : Nat} {t : Phrase} {write : List Token → List Token}
    (h : Writes m t write) (hm : m ≤ loosest) {wrap : Bool} (hw : wrap = false → m ≤ n) :
    Writes n t fun rest => openIf wrap (write (closeIf wrap rest)) := by
  obtain ⟨ls, hg, hwrite⟩ := h
  cases wrap with
  | false => exact ⟨ls, hg.mono (hw rfl), hwrite⟩
  | true =>
    refine ⟨.opening :: (ls ++ [.closing]), .brackets n (hg.mono hm), fun rest => ?_⟩
    simp [openIf, closeIf, hwrite, Token.lexeme]

/-- Arguments are written with commas between them, each as its phrase. -/
theorem exists_lexemes_args {args : List Formula}
    (h : ∀ arg ∈ args, Writes loosest (arg.phrase nameOf) (arg.tokensOnto nameOf)) :
    ∃ parts : List (List Lexeme × Phrase),
      (∀ part ∈ parts, Grammar loosest part.1 part.2) ∧
      parts.map Prod.snd = phraseAll nameOf args ∧
      ∀ rest, (argTokensOnto nameOf args rest).map Token.lexeme =
        [Lexeme.comma].intercalate (parts.map Prod.fst) ++ rest.map Token.lexeme := by
  induction args with
  | nil => exact ⟨[], by simp, rfl, fun rest => rfl⟩
  | cons e es ih =>
    obtain ⟨ls, hg, hwrite⟩ := h e List.mem_cons_self
    obtain ⟨parts, hparts, hphrase, hrest⟩ := ih fun arg ha => h arg (List.mem_cons_of_mem e ha)
    refine ⟨(ls, e.phrase nameOf) :: parts, ?_, ?_, ?_⟩
    · intro part hpart
      rcases List.mem_cons.mp hpart with rfl | hpart
      · exact hg
      · exact hparts part hpart
    · rw [List.map_cons, hphrase, phraseAll]
    · intro rest
      rcases es with - | ⟨e', es⟩
      · obtain rfl : parts = [] := by simpa [phraseAll] using hphrase
        simpa [argTokensOnto] using hwrite rest
      · rcases parts with - | ⟨part, parts⟩
        · simp [phraseAll] at hphrase
        · rw [argTokensOnto, hwrite, List.map_cons, hrest]
          · simp [List.intercalate_cons_cons, Token.lexeme]
          · simp

/-! ### Writing a value -/

/-- The text of a number is that of its magnitude, with the symbol of a sign before it. -/
theorem text_number (x : Float) :
    (Value.number x).text =
      if Binary64.isNegative x then UnaryOp.negate.symbol ++ magnitudeText x
      else magnitudeText x := by
  rw [← String.toList_inj]
  cases h : Binary64.isNegative x <;>
    simp [Value.text, magnitudeText, NumberStyle.write, NumberStyle.writeChars, UnaryOp.symbol, h]

/-- A number can be written alone and as a part of a vector. -/
theorem exists_lexemes_number (x : Float) :
    ∃ ls, Component ls (Value.number x).text ∧
      Grammar (if Binary64.isNegative x then signLevel else 0) ls (Value.number x).phrase ∧
      ∀ rest, (numberTokensOnto x rest).map Token.lexeme = ls ++ rest.map Token.lexeme := by
  have htext := text_number x
  cases hx : Binary64.isNegative x with
  | false =>
    rw [hx, if_neg Bool.false_ne_true] at htext
    refine ⟨[.word (magnitudeText x)], htext ▸ .plain _, ?_, fun rest => ?_⟩
    · simp only [Value.phrase, hx, Bool.false_eq_true, if_false, htext]
      exact .atom _ _
    · simp [numberTokensOnto, hx, Token.lexeme, magnitudeText]
  | true =>
    rw [hx, if_pos rfl] at htext
    -- the sign of a number is written like that of an opposite, and reads as one
    refine ⟨[.symbol UnaryOp.negate.symbol, .word (magnitudeText x)], htext ▸ .signed _, ?_,
      fun rest => ?_⟩
    · simp only [Value.phrase, hx, if_true]
      exact .sign _ (Nat.le_refl _) (.atom _ _)
    · simp [numberTokensOnto, hx, Token.lexeme, magnitudeText]

/-! ### Levels of formulas -/

/-- The level of the phrase that a formula is written as. -/
def outerLevel : Formula → Nat
  | binary op _ _ => op.level
  | e => if e.startsWithSign then signLevel else 0

/-- No formula is looser than all operators. -/
theorem outerLevel_le_loosest (e : Formula) : e.outerLevel ≤ loosest := by
  unfold outerLevel
  split
  case h_1 op _ _ => cases op <;> decide
  case h_2 => split <;> decide

/-- What stands after a sign without parentheses is a phrase of the level of powers. -/
theorem outerLevel_le_signLevel {e : Formula} (h : e.wrapsUnderSign = false) :
    e.outerLevel ≤ signLevel := by
  unfold outerLevel
  split
  -- an infix operator would be wrapped
  case h_1 => simp [wrapsUnderSign] at h
  case h_2 => split <;> decide

/-- Only before a power a sign is too loose. -/
theorem signLevel_le_leftLevel {op : BinaryOp} (h : op ≠ .power) : signLevel ≤ op.leftLevel := by
  revert h
  cases op <;> decide

/-- After any operator a sign may stand. -/
theorem signLevel_le_rightLevel (op : BinaryOp) : signLevel ≤ op.rightLevel := by
  cases op <;> decide

/-- What stands before an operator without parentheses is a phrase of the level allowed there. -/
theorem outerLevel_le_leftLevel {op : BinaryOp} {e : Formula}
    (h : e.wrapsUnder op .left = false) : e.outerLevel ≤ op.leftLevel := by
  cases e with
  | binary op' l r =>
    show op'.level ≤ op.leftLevel
    by_cases heq : op'.level = op.level
    · -- of one level with its parent, it is on the side to which the operator groups
      have hg : op.groupsRight = false := by simpa [wrapsUnder, startsWithSign, heq] using h
      simp [BinaryOp.leftLevel, hg, heq]
    · -- otherwise it binds tighter than its parent
      have hle : op'.level ≤ op.level := by simpa [wrapsUnder, startsWithSign, heq] using h
      unfold BinaryOp.leftLevel
      split <;> omega
  | constant | named | reference | unary | call =>
    simp only [outerLevel]
    split
    case isTrue hs =>
      -- a sign without parentheses is not the base of a power
      have hop : op ≠ .power := by
        rintro rfl
        simp [wrapsUnder, hs] at h
      exact signLevel_le_leftLevel hop
    case isFalse => exact Nat.zero_le _

/-- What stands after an operator without parentheses is a phrase of the level allowed there. -/
theorem outerLevel_le_rightLevel {op : BinaryOp} {e : Formula}
    (h : e.wrapsUnder op .right = false) : e.outerLevel ≤ op.rightLevel := by
  cases e with
  | binary op' l r =>
    show op'.level ≤ op.rightLevel
    by_cases heq : op'.level = op.level
    · have hg : op.groupsRight = true := by simpa [wrapsUnder, heq] using h
      simp [BinaryOp.rightLevel, hg, heq]
    · have hle : op'.level ≤ op.level := by simpa [wrapsUnder, heq] using h
      unfold BinaryOp.rightLevel
      split <;> omega
  | constant | named | reference | unary | call =>
    simp only [outerLevel]
    split
    case isTrue => exact signLevel_le_rightLevel op
    case isFalse => exact Nat.zero_le _

/-! ### Writing a formula -/

/-- Every value is written as its phrase. -/
theorem writes_value (v : Value) :
    Writes (constant v).outerLevel v.phrase v.tokensOnto := by
  cases v with
  | bool b => exact ⟨[.word (Value.bool b).text], .atom _ _, fun rest => rfl⟩
  | number x =>
    obtain ⟨ls, -, hg, hwrite⟩ := exists_lexemes_number x
    exact ⟨ls, hg, hwrite⟩
  | vector x y =>
    obtain ⟨l, hx, -, hl⟩ := exists_lexemes_number x
    obtain ⟨r, hy, -, hr⟩ := exists_lexemes_number y
    refine ⟨.opening :: (l ++ .comma :: (r ++ [.closing])), .vector _ hx hy, fun rest => ?_⟩
    simp [Value.tokensOnto, hl, hr, Token.lexeme]

/-- **Every formula is written as its phrase**, with the level of its loosest operator. -/
theorem writes_tokensOnto (e : Formula) :
    Writes e.outerLevel (e.phrase nameOf) (e.tokensOnto nameOf) := by
  induction e with
  | constant v => exact writes_value v
  | named name v => exact ⟨[.word name], .atom _ _, fun rest => rfl⟩
  | reference r => exact ⟨[.word (nameOf r)], .atom _ _, fun rest => rfl⟩
  | unary op operand ih =>
    exact writes_sign op
      (writes_operand ih operand.outerLevel_le_loosest outerLevel_le_signLevel)
  | binary op left right ihl ihr =>
    exact writes_operator op
      (writes_operand ihl left.outerLevel_le_loosest outerLevel_le_leftLevel)
      (writes_operand ihr right.outerLevel_le_loosest outerLevel_le_rightLevel)
  | call function args ih =>
    obtain ⟨parts, hparts, hphrase, hrest⟩ := exists_lexemes_args fun arg ha => by
      obtain ⟨ls, hg, hwrite⟩ := ih arg ha
      exact ⟨ls, hg.mono arg.outerLevel_le_loosest, hwrite⟩
    refine ⟨.word function.name :: .opening ::
      ([Lexeme.comma].intercalate (parts.map Prod.fst) ++ [.closing]), ?_, fun rest => ?_⟩
    · rw [phrase, ← hphrase]
      exact .call _ function parts hparts
    · simp [tokensOnto, hrest, Token.lexeme]

end Formula

/-! ### Reading back -/

namespace Printer

open Formula

/-- **The text of a formula reads as its phrase, and as nothing else.** -/
theorem render_readsAs_iff (p : Printer) (hp : p.maxWidth = none) (e : Formula)
    (hn : e.WellNamed p) :
    ∃ text, p.render e = some text ∧ ∀ t, ReadsAs text t ↔ t = e.phrase p.nameOf := by
  refine ⟨e.infixText p.nameOf, by simp [render, hp], fun t => ?_⟩
  have hwrites : Writes e.outerLevel (e.phrase p.nameOf) (e.tokensOnto p.nameOf) :=
    writes_tokensOnto e
  -- the lexemes that form the phrase are those that the text scans as
  obtain ⟨ls, hg, hwrite⟩ := hwrites
  have hlegible : Token.Legible (e.tokensOnto p.nameOf []) := legible_tokensOnto e hn trivial rfl
  have hscan : Lexeme.scan (e.infixText p.nameOf) = some ls := by
    rw [infixText, Token.scan_textAll hlegible, hwrite, List.map_nil, List.append_nil]
  have hreads : ReadsAs (e.infixText p.nameOf) (e.phrase p.nameOf) :=
    ⟨ls, hscan, hg.mono e.outerLevel_le_loosest⟩
  exact ⟨fun ht => ht.unique hreads, fun ht => ht ▸ hreads⟩

/-- A negative base keeps its parentheses, and a named constant is read as its name. -/
theorem render_readsAs_iff_negative_base :
    (plain.withName ⟨1⟩ "width").maxWidth = none ∧
    (binary .power (unary .negate (reference ⟨1⟩)) (named "gap_2" (.number 3))).WellNamed
      (plain.withName ⟨1⟩ "width") ∧
    ∀ t, ReadsAs "(-width) ^ gap_2" t ↔
      t = .binary .power (.unary .negate (.atom "width")) (.atom "gap_2") := by
  have hn : (binary .power (unary .negate (reference ⟨1⟩)) (named "gap_2" (.number 3))).WellNamed
      (plain.withName ⟨1⟩ "width") := by decide
  obtain ⟨text, htext, hreads⟩ := render_readsAs_iff (plain.withName ⟨1⟩ "width") rfl _ hn
  obtain rfl : "(-width) ^ gap_2" = text := Option.some.inj htext
  exact ⟨rfl, hn, hreads⟩

end Printer
end ParametricPlan
