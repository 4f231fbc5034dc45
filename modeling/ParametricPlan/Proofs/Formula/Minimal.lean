/-
ParametricPlan/Proofs/Formula/Minimal.lean

Which parentheses a text needs.

Without one of its pairs of parentheses a text still has a reading, since there is no operator that
does not group, but in general not the same one.  Whether it is the same is decided where the
operand stands.  A place for an operand has a limit (`Parent.limit`), which the level of a phrase
without brackets must not exceed.  What is around an operand and its parentheses reads the same with
and without them as far as the operand itself does, at whatever depth (`readsWithoutSpare`): the
last rule of each derivation is known, and its premises speak of the same lexemes as before.  So a
pair can be left out if and only if its operand keeps to the limit of its place, and that a wrapped
operand does only if it is a power after a sign (`spare_iff`).

Main result: every pair is needed, but for those around a power after a sign, and these are not
(`parentheses_needed`).
-/
import ParametricPlan.Proofs.Formula.Inversion
import ParametricPlan.Proofs.Formula.Parentheses

namespace ParametricPlan

open Formula Parentheses Token

/-! ### Places of operands -/

/-- The level of the phrases that may stand at the place of an operand. -/
def Parent.limit : Parent → Nat
  | sign _ => signLevel
  | operator op .left => op.leftLevel
  | operator op .right => op.rightLevel

/-- What is not wrapped may stand at its place. -/
theorem outerLevel_le_limit {parent : Parent} {operand : Formula}
    (h : parent.wraps operand = false) : operand.outerLevel ≤ parent.limit := by
  rcases parent with op | ⟨op, - | -⟩
  · exact outerLevel_le_signLevel h
  · exact outerLevel_le_leftLevel h
  · exact outerLevel_le_rightLevel h

/-- Before an operator that groups to the right, one of its own level may not stand. -/
theorem leftLevel_lt_level {op : BinaryOp} (h : op.groupsRight = true) :
    op.leftLevel < op.level := by
  revert h
  cases op <;> decide

/-- After an operator that groups to the left, one of its own level may not stand. -/
theorem rightLevel_lt_level {op : BinaryOp} (h : op.groupsRight = false) :
    op.rightLevel < op.level := by
  revert h
  cases op <;> decide

/-- Nothing looser than an operator may stand beside it. -/
theorem limit_le_level (op : BinaryOp) (side : Side) :
    (Parent.operator op side).limit ≤ op.level := by
  cases side with
  | left =>
    show op.leftLevel ≤ op.level
    unfold BinaryOp.leftLevel
    split <;> omega
  | right =>
    show op.rightLevel ≤ op.level
    unfold BinaryOp.rightLevel
    split <;> omega

/-- A wrapped operand of an infix operator is too loose for its place. -/
theorem limit_lt_outerLevel {op : BinaryOp} {side : Side} {operand : Formula}
    (h : operand.wrapsUnder op side = true) :
    (Parent.operator op side).limit < operand.outerLevel := by
  unfold wrapsUnder at h
  split at h
  case isTrue hsign =>
    -- the base of a power begins with a sign
    obtain ⟨rfl, rfl, hs⟩ := hsign
    have hlevel : operand.outerLevel = signLevel := by
      cases operand with
      | binary => cases hs
      | constant | named | reference | unary | call => simp only [outerLevel, hs, if_true]
    rw [hlevel]
    have hpower : BinaryOp.power.groupsRight = true := rfl
    exact leftLevel_lt_level hpower
  case isFalse =>
    cases operand with
    | binary op' l r =>
      show (Parent.operator op side).limit < op'.level
      by_cases heq : op'.level = op.level
      · rw [heq]
        cases side with
        | left =>
          have hg : op.groupsRight = true := by simpa [heq] using h
          exact leftLevel_lt_level hg
        | right =>
          have hg : op.groupsRight = false := by simpa [heq] using h
          exact rightLevel_lt_level hg
      · have hlt : op.level < op'.level := by simpa [heq] using h
        exact Nat.lt_of_le_of_lt (limit_le_level op side) hlt
    | constant | named | reference | unary | call => cases h

/-- No operators but powers may stand after a sign without parentheses. -/
theorem level_le_signLevel_iff {op : BinaryOp} : op.level ≤ signLevel ↔ op = .power := by
  cases op <;> decide

namespace Parentheses

/-- The operand may stand at its place without the pair. -/
def Spare (q : Parentheses) : Prop :=
  q.operand.outerLevel ≤ q.parent.limit

/-- The pair encloses a power, and stands after a sign. -/
def EnclosesSignedPower (q : Parentheses) : Prop :=
  ∃ op base exponent, q.parent = .sign op ∧ q.operand = binary .power base exponent

/-- **Only a power after a sign is wrapped without need.** -/
theorem spare_iff {q : Parentheses} (h : q.parent.wraps q.operand = true) :
    q.Spare ↔ q.EnclosesSignedPower := by
  obtain ⟨before, parent, operand, after⟩ := q
  constructor
  · intro hspare
    rcases parent with op | ⟨op, side⟩
    · cases operand with
      | binary op' l r =>
        -- what is wrapped after a sign has an infix operator, and only a power is tight enough
        obtain rfl : op' = .power := level_le_signLevel_iff.mp hspare
        exact ⟨op, l, r, rfl, rfl⟩
      | constant | named | reference | unary | call => cases h
    · exact absurd hspare (Nat.not_le.mpr (limit_lt_outerLevel h))
  · rintro ⟨op, base, exponent, hparent, hoperand⟩
    obtain rfl : parent = .sign op := hparent
    obtain rfl : operand = binary .power base exponent := hoperand
    exact level_le_signLevel_iff.mpr rfl

end Parentheses

/-! ### Reading without a pair -/

variable {nameOf : Ref → String} {q : Parentheses} {n : Nat}

/-- An operand may stand at its place, with its parentheses if it is wrapped. -/
theorem grammar_operand (parent : Parent) (operand : Formula) :
    Grammar parent.limit (parent.lexemes nameOf operand) (operand.phrase nameOf) := by
  rw [parent.lexemes_eq]
  split
  case isTrue =>
    exact .brackets _ (operand.grammar_lexemes.mono operand.outerLevel_le_loosest)
  case isFalse hw =>
    exact operand.grammar_lexemes.mono (outerLevel_le_limit (Bool.eq_false_iff.mpr hw))

/-- The lexemes of a formula form its phrase from the level of its loosest operator on. -/
theorem Formula.grammar_lexemes_iff {e : Formula} :
    Grammar n (e.lexemes nameOf) (e.phrase nameOf) ↔ e.outerLevel ≤ n := by
  constructor
  · intro h
    -- only an operator or a sign at the outside asks for a level
    cases e with
    | constant v =>
      rcases v with b | x | ⟨x, y⟩
      · exact Nat.zero_le n
      · cases hx : Binary64.isNegative x with
        | false => simp [outerLevel, startsWithSign, hx]
        | true =>
          simp only [lexemes, Formula.tokens, tokensOnto, Value.tokensOnto, numberTokensOnto,
            phrase, Value.phrase, hx, if_true] at h
          simpa [outerLevel, startsWithSign, hx] using ((grammar_sign_iff .negate).mp h).1
      · exact Nat.zero_le n
    | named | reference | call => exact Nat.zero_le n
    | unary op operand =>
      rw [lexemes, tokens_unary] at h
      exact ((grammar_sign_iff op).mp h).1
    | binary op left right =>
      have hleft : Grammar op.leftLevel ((Parent.operator op .left).lexemes nameOf left)
        (left.phrase nameOf) := grammar_operand (.operator op .left) left
      rw [lexemes, tokens_binary, List.map_append, List.map_cons] at h
      exact ((grammar_operator_iff op hleft.balanced hleft.width_eq).mp h).1
  · exact e.grammar_lexemes.mono

/-- The lexemes that remain without a pair. -/
def Parentheses.remaining (nameOf : Ref → String) (q : Parentheses) : List Lexeme :=
  (q.dropped nameOf).map lexeme

@[simp] theorem remaining_within (before after : List Token) :
    (q.within before after).remaining nameOf =
      before.map lexeme ++ (q.remaining nameOf ++ after.map lexeme) := by
  simp only [remaining, dropped, within, List.map_append, List.append_assoc]

/-- What is read with a pair is balanced without it, and as wide. -/
theorem balanced_width_remaining {ts : List Token} {t : Phrase} (hin : q.In nameOf ts)
    (h : Grammar n (ts.map lexeme) t) :
    Balanced (q.remaining nameOf) ∧ width (q.remaining nameOf) = t.width := by
  have hoperand : Balanced (q.operand.lexemes nameOf) := q.operand.grammar_lexemes.balanced
  have hkept : ts.map lexeme = q.before.map lexeme ++
      .opening :: (q.operand.lexemes nameOf ++ .closing :: q.after.map lexeme) := by
    rw [← hin.kept]
    simp only [kept, lexemes, List.map_append, List.map_cons, Token.lexeme]
  have hremaining : q.remaining nameOf =
      q.before.map lexeme ++ (q.operand.lexemes nameOf ++ q.after.map lexeme) := by
    simp only [remaining, dropped, lexemes, List.map_append]
  have hbalanced := h.balanced
  have hwidth := h.width_eq
  rw [hkept] at hbalanced hwidth
  rw [hremaining]
  refine ⟨hbalanced.without_brackets hoperand, ?_⟩
  rw [← hwidth]
  simp [Lexeme.width]

/-- Nothing that is put in parentheses is a vector. -/
theorem phrase_ne_vector {parent : Parent} {operand : Formula}
    (h : parent.wraps operand = true) (x y : String) : operand.phrase nameOf ≠ .vector x y := by
  intro hphrase
  -- only a vector is written as one, and a vector is never wrapped
  have hconstant : ∃ a b, operand = constant (.vector a b) := by
    cases operand with
    | constant v =>
      rcases v with b | a | ⟨a, b⟩
      · cases hphrase
      · simp only [phrase, Value.phrase] at hphrase
        split at hphrase <;> cases hphrase
      · exact ⟨a, b, rfl⟩
    | named | reference | unary | binary | call => cases hphrase
  obtain ⟨a, b, rfl⟩ := hconstant
  rcases parent with op | ⟨op, side⟩
  · cases h
  · simp [Parent.wraps, wrapsUnder, startsWithSign] at h

/-- Without one of its pairs a formula is read as before if and only if the pair is spare, at the
levels from that of its loosest operator on. -/
abbrev Formula.ReadsWithoutSpare (nameOf : Ref → String) (e : Formula) : Prop :=
  ∀ q ∈ e.parentheses nameOf, ∀ n,
    Grammar n (q.remaining nameOf) (e.phrase nameOf) ↔ e.outerLevel ≤ n ∧ q.Spare

/-- At its place an operand without one of its pairs is read as before if and only if the pair is
spare, the pair around it included. -/
theorem grammar_pairs_iff {parent : Parent} {operand : Formula}
    (ih : operand.ReadsWithoutSpare nameOf) :
    ∀ q ∈ parent.pairs operand (operand.parentheses nameOf),
      Grammar parent.limit (q.remaining nameOf) (operand.phrase nameOf) ↔ q.Spare := by
  intro q hq
  unfold Parent.pairs at hq
  split at hq
  case isTrue hw =>
    rcases List.mem_cons.mp hq with rfl | hq
    · -- the operand's own pair
      have hown : remaining nameOf ⟨[], parent, operand, []⟩ = operand.lexemes nameOf := by
        simp only [remaining, dropped, lexemes, List.nil_append, List.append_nil]
      rw [hown]
      exact grammar_lexemes_iff
    · -- a pair in the operand, within the parentheses of the operand
      obtain ⟨q', hq', rfl⟩ := List.mem_map.mp hq
      have hin := operand.parentheses_in q' hq'
      have hbalanced := (balanced_width_remaining hin operand.grammar_lexemes).1
      have hremaining : remaining nameOf (within [.opening] [.closing] q') =
          .opening :: (q'.remaining nameOf ++ [.closing]) := remaining_within ..
      rw [hremaining, grammar_brackets_iff hbalanced (phrase_ne_vector hw), ih q' hq']
      exact and_iff_right operand.outerLevel_le_loosest
  case isFalse hw =>
    rw [ih q hq]
    exact and_iff_right (outerLevel_le_limit (Bool.eq_false_iff.mpr hw))

/-- The phrases of arguments are those of each of them. -/
theorem phraseAll_eq_map (args : List Formula) :
    phraseAll nameOf args = args.map (phrase nameOf) := by
  induction args with
  | nil => rfl
  | cons e es ih => rw [phraseAll, ih, List.map_cons]

/-- The lexemes of arguments, cut into parts that are read as the arguments if and only if `spare`
holds. -/
structure ArgParts (nameOf : Ref → String) (args : List Formula) (ls : List Lexeme) (spare : Prop)
    (parts : List (List Lexeme × Phrase)) : Prop where
  lexemes : ls = [Lexeme.comma].intercalate (parts.map Prod.fst)
  phrases : args.map (phrase nameOf) = parts.map Prod.snd
  width : ∀ part ∈ parts, width part.1 = part.2.width
  reads : (∀ part ∈ parts, Grammar loosest part.1 part.2) ↔ spare

/-- An argument may be as loose as any operator. -/
theorem grammar_argument (arg : Formula) :
    Grammar loosest (arg.lexemes nameOf) (arg.phrase nameOf) :=
  arg.grammar_lexemes.mono arg.outerLevel_le_loosest

/-- The lexemes of arguments, of which the first is given. -/
theorem intercalate_lexemes_cons (nameOf : Ref → String) (ls : List Lexeme) (args : List Formula) :
    [Lexeme.comma].intercalate (ls :: args.map (lexemes nameOf)) =
      ls ++ (moreTokens nameOf args).map lexeme := by
  rw [intercalate_cons_eq_append_flatMap, moreTokens, List.map_flatMap, List.flatMap_map]
  rfl

/-- The pair is one of the first argument. -/
theorem argParts_first {e : Formula} {ls : List Lexeme} {spare : Prop} (es : List Formula)
    (hw : width ls = (e.phrase nameOf).width) (h : Grammar loosest ls (e.phrase nameOf) ↔ spare) :
    ArgParts nameOf (e :: es) (ls ++ (moreTokens nameOf es).map lexeme) spare
      ((ls, e.phrase nameOf) :: es.map fun arg => (arg.lexemes nameOf, arg.phrase nameOf)) where
  lexemes := by
    rw [← intercalate_lexemes_cons]
    simp [Function.comp_def]
  phrases := by simp
  width := by
    refine List.forall_mem_cons.mpr ⟨hw, ?_⟩
    intro part hpart
    obtain ⟨arg, -, rfl⟩ := List.mem_map.mp hpart
    exact (grammar_argument arg).width_eq
  reads := by
    rw [List.forall_mem_cons, h]
    refine and_iff_left ?_
    intro part hpart
    obtain ⟨arg, -, rfl⟩ := List.mem_map.mp hpart
    exact grammar_argument arg

/-- The pair is one of the arguments after the first. -/
theorem ArgParts.cons {es : List Formula} {ls : List Lexeme} {spare : Prop}
    {parts : List (List Lexeme × Phrase)} (h : ArgParts nameOf es ls spare parts) (hes : es ≠ [])
    (e : Formula) :
    ArgParts nameOf (e :: es) (e.lexemes nameOf ++ .comma :: ls) spare
      ((e.lexemes nameOf, e.phrase nameOf) :: parts) where
  lexemes := by
    rcases parts with - | ⟨part, parts⟩
    · exact absurd (List.map_eq_nil_iff.mp h.phrases) hes
    · rw [h.lexemes]
      simp
  phrases := by rw [List.map_cons, List.map_cons, h.phrases]
  width := List.forall_mem_cons.mpr ⟨(grammar_argument e).width_eq, h.width⟩
  reads := by
    rw [List.forall_mem_cons, h.reads]
    exact and_iff_right (grammar_argument e)

/-- Without a pair arguments are read as before, each by itself, if and only if the pair is
spare. -/
theorem exists_argParts {args : List Formula}
    (ih : ∀ arg ∈ args, arg.ReadsWithoutSpare nameOf) :
    ∀ q ∈ argParentheses nameOf args,
      ∃ parts, ArgParts nameOf args (q.remaining nameOf) q.Spare parts := by
  induction args with
  | nil => exact fun q hq => absurd hq List.not_mem_nil
  | cons e es ihs =>
    intro q hq
    rcases List.mem_append.mp hq with hq | hq
    · obtain ⟨q', hq', rfl⟩ := List.mem_map.mp hq
      -- the pair is one of the first argument, which alone is changed
      have hwidth := (balanced_width_remaining (e.parentheses_in q' hq') e.grammar_lexemes).2
      have hreads := ih e List.mem_cons_self q' hq' loosest
      rw [and_iff_right e.outerLevel_le_loosest] at hreads
      have hremaining : remaining nameOf (within [] (moreTokens nameOf es) q') =
          q'.remaining nameOf ++ (moreTokens nameOf es).map lexeme := remaining_within ..
      rw [hremaining]
      exact ⟨_, argParts_first es hwidth hreads⟩
    · obtain ⟨q', hq', rfl⟩ := List.mem_map.mp hq
      obtain ⟨parts, hparts⟩ := ihs (fun arg ha => ih arg (List.mem_cons_of_mem e ha)) q' hq'
      -- the pair is one of the further arguments, so that there are some
      have hes : es ≠ [] := by
        rintro rfl
        exact List.not_mem_nil hq'
      have hremaining : remaining nameOf (within (e.tokens nameOf ++ [.comma]) [] q') =
          e.lexemes nameOf ++ .comma :: q'.remaining nameOf := by
        simp [lexemes, Token.lexeme]
      rw [hremaining]
      exact ⟨_, hparts.cons hes e⟩

/-- **Without a pair a formula is read as before if and only if the pair is spare**, at whatever
depth it is. -/
theorem readsWithoutSpare (e : Formula) : e.ReadsWithoutSpare nameOf := by
  -- each kind of formula has one last rule, and its premises are the hypotheses of the induction
  induction e with
  | constant | named | reference => exact fun q hq => absurd hq List.not_mem_nil
  | unary op operand ih =>
    intro q hq n
    obtain ⟨q', hq', rfl⟩ := List.mem_map.mp hq
    have hoperand : Grammar signLevel (q'.remaining nameOf) (operand.phrase nameOf) ↔
      q'.Spare := grammar_pairs_iff ih q' hq'
    have hremaining : remaining nameOf (within [.sign op] [] q') =
        .symbol op.symbol :: q'.remaining nameOf := by
      simp [Token.lexeme]
    rw [hremaining, phrase, grammar_sign_iff, hoperand]
    rfl
  | binary op left right ihl ihr =>
    intro q hq n
    have hleft : Grammar op.leftLevel ((Parent.operator op .left).lexemes nameOf left)
      (left.phrase nameOf) := grammar_operand (.operator op .left) left
    have hright : Grammar op.rightLevel ((Parent.operator op .right).lexemes nameOf right)
      (right.phrase nameOf) := grammar_operand (.operator op .right) right
    rcases List.mem_append.mp hq with hq | hq
    · obtain ⟨q', hq', rfl⟩ := List.mem_map.mp hq
      have hoperand : Grammar op.leftLevel (q'.remaining nameOf) (left.phrase nameOf) ↔
        q'.Spare := grammar_pairs_iff ihl q' hq'
      obtain ⟨hbalanced, hwidth⟩ :=
        balanced_width_remaining (pairs_in left.parentheses_in q' hq') hleft
      have hremaining : remaining nameOf (within [] (.operator op ::
            (Parent.operator op .right).tokens nameOf right) q') =
          q'.remaining nameOf ++ .symbol op.symbol ::
            (Parent.operator op .right).lexemes nameOf right := remaining_within ..
      rw [hremaining, phrase, grammar_operator_iff op hbalanced hwidth, hoperand]
      exact and_congr_right' (and_iff_left hright)
    · obtain ⟨q', hq', rfl⟩ := List.mem_map.mp hq
      have hoperand : Grammar op.rightLevel (q'.remaining nameOf) (right.phrase nameOf) ↔
        q'.Spare := grammar_pairs_iff ihr q' hq'
      have hremaining : remaining nameOf (within ((Parent.operator op .left).tokens nameOf left ++
            [.operator op]) [] q') =
          (Parent.operator op .left).lexemes nameOf left ++ .symbol op.symbol ::
            q'.remaining nameOf := by
        simp [Parent.lexemes, Token.lexeme]
      rw [hremaining, phrase, grammar_operator_iff op hleft.balanced hleft.width_eq, hoperand]
      exact and_congr_right' (and_iff_right hleft)
  | call function args ih =>
    intro q hq n
    obtain ⟨q', hq', rfl⟩ := List.mem_map.mp hq
    obtain ⟨parts, hparts⟩ := exists_argParts ih q' hq'
    have hremaining : remaining nameOf (within [.atom function.name, .opening] [.closing] q') =
        .word function.name :: .opening ::
          ([Lexeme.comma].intercalate (parts.map Prod.fst) ++ [.closing]) := by
      rw [← hparts.lexemes, remaining_within]
      rfl
    rw [hremaining, phrase, phraseAll_eq_map, hparts.phrases,
      grammar_call_iff function hparts.width, hparts.reads]
    exact (and_iff_right (Nat.zero_le n)).symm

/-! ### Texts -/

namespace Token

variable {ts us : List Token}

theorem textAll_append (ts us : List Token) : textAll (ts ++ us) = textAll ts ++ textAll us := by
  rw [← String.toList_inj, String.toList_append]
  simp only [toList_textAll, chars, List.flatMap_append]

/-- What tokens start with is not changed by more of them behind. -/
theorem startsWithAtom_cons_append (t : Token) (ts us : List Token) :
    startsWithAtom (t :: ts ++ us) = startsWithAtom (t :: ts) := by
  cases t <;> rfl

/-- The beginning of legible tokens is legible. -/
theorem Legible.of_append_left (h : Legible (ts ++ us)) : Legible ts := by
  induction ts with
  | nil => trivial
  | cons t ts ih =>
    cases t with
    | atom text =>
      refine ⟨h.1, ?_, ih h.2.2⟩
      rcases ts with - | ⟨t', ts⟩
      · rfl
      · exact (startsWithAtom_cons_append t' ts us).symm.trans h.2.1
    | sign | operator | opening | closing | comma => exact ih h

/-- The end of legible tokens is legible. -/
theorem Legible.of_append_right (h : Legible (ts ++ us)) : Legible us := by
  induction ts with
  | nil => exact h
  | cons t ts ih => exact ih h.tail

/-- Legible tokens in a row are legible, if not two atoms come together. -/
theorem Legible.append (h : Legible ts) (h' : Legible us)
    (hs : endsWithAtom ts = true → startsWithAtom us = false) : Legible (ts ++ us) := by
  induction ts with
  | nil => exact h'
  | cons t ts ih =>
    have htail : Legible (ts ++ us) := by
      refine ih h.tail ?_
      intro hend
      rcases ts with - | ⟨t', ts⟩
      · cases hend
      · exact hs hend
    cases t with
    | atom text =>
      refine ⟨h.1, ?_, htail⟩
      rcases ts with - | ⟨t', ts⟩
      · exact hs rfl
      · exact (startsWithAtom_cons_append t' ts us).trans h.2.1
    | sign | operator | opening | closing | comma => exact htail

end Token

/-- Without a pair what is left is legible, since there are no atoms beside the pair. -/
theorem legible_dropped {ts : List Token} (hin : q.In nameOf ts) (h : Legible ts) :
    Legible (q.dropped nameOf) := by
  rw [← hin.kept] at h
  have hbefore : Legible q.before := h.of_append_left
  have hinside : Legible (q.operand.tokens nameOf ++ .closing :: q.after) :=
    h.of_append_right.tail
  have hafter : Legible q.after := hinside.of_append_right.tail
  refine hbefore.append (hinside.of_append_left.append hafter fun _ => hin.after) ?_
  intro hend
  rw [hin.before] at hend
  cases hend

/-- The text with a pair, cut at its parentheses. -/
theorem textAll_kept (q : Parentheses) :
    textAll (q.kept nameOf) = textAll q.before ++ "(" ++ textAll (q.operand.tokens nameOf) ++ ")" ++
      textAll q.after := by
  have hbrackets : textAll [.opening] = "(" ∧ textAll [.closing] = ")" := ⟨rfl, rfl⟩
  rw [← hbrackets.1, ← hbrackets.2]
  simp only [← textAll_append, kept, List.append_assoc, List.cons_append, List.nil_append]

/-- The text without a pair, cut where its parentheses were. -/
theorem textAll_dropped (q : Parentheses) :
    textAll (q.dropped nameOf) =
      textAll q.before ++ textAll (q.operand.tokens nameOf) ++ textAll q.after := by
  simp only [dropped, textAll_append, String.append_assoc]

/-! ### The parentheses of a printer -/

namespace Printer

/-- **Every pair of parentheses around an operand is needed, but for those around a power after a
sign**: without it the text of a formula no longer reads as its phrase.  The pairs are all that
there are besides the brackets of vectors and calls. -/
theorem parentheses_needed (p : Printer) (hp : p.maxWidth = none) (e : Formula)
    (hn : e.WellNamed p) :
    OneAfterAnother (e.parentheses p.nameOf) ∧
    openings (e.tokens p.nameOf) = (e.parentheses p.nameOf).length + e.brackets ∧
    ∀ q ∈ e.parentheses p.nameOf,
      let before := textAll q.before
      let inside := textAll (q.operand.tokens p.nameOf)
      let after := textAll q.after
      p.render e = some (before ++ "(" ++ inside ++ ")" ++ after) ∧
      (ReadsAs (before ++ inside ++ after) (e.phrase p.nameOf) ↔ q.EnclosesSignedPower) := by
  refine ⟨e.oneAfterAnother_parentheses, e.openings_tokens, ?_⟩
  intro q hq
  have hin := e.parentheses_in q hq
  have hlegible : Legible (e.tokens p.nameOf) := legible_tokensOnto e hn trivial rfl
  -- what is left scans as the lexemes that remain, so that reading it is a matter of the grammar
  have hscan : Lexeme.scan (textAll (q.dropped p.nameOf)) = some (q.remaining p.nameOf) :=
    scan_textAll (legible_dropped hin hlegible)
  refine ⟨?_, ?_⟩
  · rw [← textAll_kept, hin.kept]
    simp only [render, hp]
    rfl
  · rw [← textAll_dropped]
    calc ReadsAs (textAll (q.dropped p.nameOf)) (e.phrase p.nameOf)
        ↔ Grammar loosest (q.remaining p.nameOf) (e.phrase p.nameOf) := by
          simp only [ReadsAs, hscan, Option.some.injEq, exists_eq_left']
      _ ↔ q.Spare :=
          (readsWithoutSpare e q hq loosest).trans (and_iff_right e.outerLevel_le_loosest)
      _ ↔ q.EnclosesSignedPower := spare_iff hin.wraps

/-- A sum that is a factor needs its parentheses, a power after a sign does not. -/
theorem parentheses_needed_factor :
    plain.maxWidth = none ∧
    (binary .multiply (binary .add (reference ⟨1⟩) (reference ⟨2⟩))
      (unary .negate (binary .power (reference ⟨1⟩) (reference ⟨2⟩)))).WellNamed plain ∧
    ¬ ReadsAs "R1 + R2 * -(R1 ^ R2)" (.binary .multiply (.binary .add (.atom "R1") (.atom "R2"))
      (.unary .negate (.binary .power (.atom "R1") (.atom "R2")))) ∧
    ReadsAs "(R1 + R2) * -R1 ^ R2" (.binary .multiply (.binary .add (.atom "R1") (.atom "R2"))
      (.unary .negate (.binary .power (.atom "R1") (.atom "R2")))) := by
  have hn : (binary .multiply (binary .add (reference ⟨1⟩) (reference ⟨2⟩))
      (unary .negate (binary .power (reference ⟨1⟩) (reference ⟨2⟩)))).WellNamed plain := by decide
  obtain ⟨-, -, hpairs⟩ := parentheses_needed plain rfl _ hn
  have hsum := (hpairs _ (.head _)).2
  have hpower := (hpairs _ (.tail _ (.head _))).2
  refine ⟨rfl, hn, ?_, ?_⟩
  · intro hreads
    obtain ⟨op, base, exponent, hparent, -⟩ := hsum.mp hreads
    cases hparent
  · exact hpower.mpr ⟨.negate, reference ⟨1⟩, reference ⟨2⟩, rfl, rfl⟩

end Printer
end ParametricPlan
