/-
ParametricPlan/Proofs/Formula/Unambiguous.lean

No text has two readings.

The grammar is left-recursive, so that two derivations of the same lexemes are hard to compare.  A
`Reader` takes the lexemes one by one instead.  It keeps a stack of frames, the beginnings of
phrases that are not complete yet, and either wants an operand or holds one.  When an operator
comes it first completes every frame to which the operand belongs rather than to the operator
(`Frame.fold`), and a bracket that closes completes all frames up to the one that opened it.

Main results: a reader that wants an operand and is given a phrase of the grammar comes to hold
that phrase, up to frames that are completed later (`brings_of_grammar`), and so the lexemes
determine the phrase (`Grammar.unique`, `ReadsAs.unique`).  The reader need not refuse what is not
in the grammar.
-/
import ParametricPlan.Proofs.Formula.Grammar

namespace ParametricPlan

/-! ### Symbols -/

/-- The prefix operator of a symbol. -/
def UnaryOp.ofSymbol? (symbol : String) : Option UnaryOp :=
  UnaryOp.all.find? fun op => op.symbol == symbol

/-- The infix operator of a symbol. -/
def BinaryOp.ofSymbol? (symbol : String) : Option BinaryOp :=
  BinaryOp.all.find? fun op => op.symbol == symbol

/-- The function of a name. -/
def Func.ofName? (name : String) : Option Func :=
  Func.all.find? fun f => f.name == name

@[simp] theorem UnaryOp.ofSymbol?_symbol (op : UnaryOp) : ofSymbol? op.symbol = some op := by
  cases op <;> rfl

@[simp] theorem BinaryOp.ofSymbol?_symbol (op : BinaryOp) : ofSymbol? op.symbol = some op := by
  cases op <;> rfl

@[simp] theorem Func.ofName?_name (f : Func) : ofName? f.name = some f := by
  cases f <;> rfl

/-! ### Frames -/

/-- The beginning of a phrase whose next operand has not been read. -/
inductive Frame where
  | sign (op : UnaryOp)
  | operator (op : BinaryOp) (left : Phrase)
  /-- A bracket; the text of the first number is there once it is known to be a vector. -/
  | bracket (component : Option String)
  | call (function : Func) (args : List Phrase)

namespace Frame

/-- Completes the frames whose operand an operator of level `n` cannot belong to. -/
def fold (n : Nat) : List Frame → Phrase → List Frame × Phrase
  | sign op :: frames, t =>
    if n ≤ signLevel then (sign op :: frames, t) else fold n frames (.unary op t)
  | operator op a :: frames, t =>
    if n ≤ op.rightLevel then (operator op a :: frames, t) else fold n frames (.binary op a t)
  | frames, t => (frames, t)

/-- Completes all frames up to a bracket. -/
def foldAll : List Frame → Phrase → List Frame × Phrase :=
  fold (loosest + 1)

/-- An operand of level `n` on these frames is completed before any of them. -/
def Holds (frames : List Frame) (n : Nat) : Prop :=
  ∀ k ≤ n, ∀ t, fold k frames t = (frames, t)

/-- Frames that hold against an operator hold against tighter ones. -/
theorem Holds.mono {frames : List Frame} {m n : Nat} (h : Holds frames n) (hmn : m ≤ n) :
    Holds frames m :=
  fun k hk => h k (Nat.le_trans hk hmn)

theorem holds_nil (n : Nat) : Holds [] n :=
  fun _ _ _ => rfl

/-- No operator completes what a bracket began. -/
theorem holds_bracket (component : Option String) (frames : List Frame) (n : Nat) :
    Holds (bracket component :: frames) n :=
  fun _ _ _ => rfl

/-- No operator completes what a call began. -/
theorem holds_call (f : Func) (args : List Phrase) (frames : List Frame) (n : Nat) :
    Holds (call f args :: frames) n :=
  fun _ _ _ => rfl

/-- A power does not complete a sign. -/
theorem holds_sign (op : UnaryOp) (frames : List Frame) : Holds (sign op :: frames) signLevel :=
  fun _ hk _ => if_pos hk

/-- An operator waits for what may stand after it. -/
theorem holds_operator (op : BinaryOp) (a : Phrase) (frames : List Frame) :
    Holds (operator op a :: frames) op.rightLevel :=
  fun _ hk _ => if_pos hk

end Frame

/-! ### Readers -/

/-- A reader between two lexemes. -/
inductive Reader where
  /-- The next lexeme begins an operand. -/
  | wants (frames : List Frame)
  /-- An operand has been read. -/
  | has (frames : List Frame) (operand : Phrase)

/-- The text of a phrase that is a number. -/
def Phrase.component? : Phrase → Option String
  | .atom text => some text
  | .unary .negate (.atom text) => some (UnaryOp.negate.symbol ++ text)
  | _ => none

namespace Reader

open ParametricPlan.Frame

/-- Begins or goes on with what stands between brackets. -/
def afterComma : List Frame × Phrase → Option Reader
  | (.bracket none :: frames, t) => t.component?.map fun x => wants (.bracket (some x) :: frames)
  | (.call f args :: frames, t) => some (wants (.call f (args ++ [t]) :: frames))
  | _ => none

/-- Completes what stands between brackets. -/
def afterClosing : List Frame × Phrase → Option Reader
  | (.bracket none :: frames, t) => some (has frames t)
  | (.bracket (some x) :: frames, t) => t.component?.map fun y => has frames (.vector x y)
  | (.call f args :: frames, t) => some (has frames (.call f (args ++ [t])))
  | _ => none

/-- Takes a lexeme. -/
def step : Reader → Lexeme → Option Reader
  | wants frames, .word text => some (has frames (.atom text))
  | wants frames, .symbol s => (UnaryOp.ofSymbol? s).map fun op => wants (.sign op :: frames)
  | wants frames, .opening => some (wants (.bracket none :: frames))
  | wants (.call f [] :: frames), .closing => some (has frames (.call f []))
  | has frames (.atom name), .opening =>
    (Func.ofName? name).map fun f => wants (.call f [] :: frames)
  | has frames t, .symbol s =>
    (BinaryOp.ofSymbol? s).map fun op =>
      let (frames, t) := fold op.level frames t
      wants (.operator op t :: frames)
  | has frames t, .comma => afterComma (foldAll frames t)
  | has frames t, .closing => afterClosing (foldAll frames t)
  | _, _ => none

/-- Takes lexemes in order. -/
def run (reader : Reader) (ls : List Lexeme) : Option Reader :=
  ls.foldlM step reader

theorem run_cons (reader : Reader) (l : Lexeme) (ls : List Lexeme) :
    reader.run (l :: ls) = (reader.step l).bind fun reader => reader.run ls :=
  rfl

/-- A reader takes lexemes in parts. -/
theorem run_append (reader : Reader) (ls ls' : List Lexeme) :
    reader.run (ls ++ ls') = (reader.run ls).bind fun reader => reader.run ls' := by
  simp [run, List.foldlM_append]

/-! ### Reading a phrase -/

/-- An operator of level `k` after a phrase of level `n` does not belong to its last operand. -/
def Ends (n k : Nat) : Prop :=
  n < k ∨ n = k ∧ k ≠ signLevel

/-- What ends a signed phrase is looser than a sign. -/
theorem signLevel_lt_of_ends {n k : Nat} (hn : signLevel ≤ n) (h : Ends n k) : signLevel < k := by
  rcases h with h | ⟨rfl, h⟩ <;> omega

/-- What ends a phrase with an operator is looser than what may stand after the operator. -/
theorem rightLevel_lt_of_ends {op : BinaryOp} {n k : Nat} (hn : op.level ≤ n) (h : Ends n k) :
    op.rightLevel < k := by
  -- an operator that groups to the right is a power, and another power after it does not end it
  have hlt : op.rightLevel < op.level ∨ op.rightLevel = op.level ∧ op.level = signLevel := by
    cases op <;> decide
  rcases h with h | ⟨rfl, h⟩ <;> omega

/-- An operator ends the phrase before it. -/
theorem ends_leftLevel (op : BinaryOp) : Ends op.leftLevel op.level := by
  cases op <;> simp [Ends, BinaryOp.leftLevel, BinaryOp.groupsRight, BinaryOp.level, signLevel]

/-- What may stand before an operator is not looser than the operator. -/
theorem leftLevel_le (op : BinaryOp) : op.leftLevel ≤ op.level := by
  cases op <;> decide

/-- From some frames on the lexemes bring a reader to a phrase, up to what an operator that ends a
phrase of level `n` completes. -/
def Brings (frames : List Frame) (ls : List Lexeme) (n : Nat) (t : Phrase) : Prop :=
  ∃ frames' t', (wants frames).run ls = some (has frames' t') ∧
    ∀ k, Ends n k → fold k frames' t' = fold k frames t

/-- A reader that holds the phrase itself has been brought to it. -/
theorem brings_of_run {frames : List Frame} {ls : List Lexeme} {n : Nat} {t : Phrase}
    (h : (wants frames).run ls = some (has frames t)) : Brings frames ls n t :=
  ⟨frames, t, h, fun _ _ => rfl⟩

/-- A bracket that closes completes all that was left open since its partner. -/
theorem Brings.run_closing {frames : List Frame} {ls : List Lexeme} {t : Phrase}
    (h : Brings frames ls loosest t) (hf : Holds frames (loosest + 1)) :
    (wants frames).run (ls ++ [.closing]) = afterClosing (frames, t) := by
  obtain ⟨frames', t', hrun, hfold⟩ := h
  have hall : foldAll frames' t' = (frames, t) := by
    rw [foldAll, hfold _ (.inl (Nat.lt_succ_self _)), hf _ (Nat.le_refl _)]
  rw [run_append, hrun, Option.bind_some, run_cons, step, hall]
  rcases afterClosing (frames, t) with - | r <;> rfl

/-- A comma completes all that was left open since the bracket. -/
theorem Brings.run_comma {frames : List Frame} {ls rest : List Lexeme} {t : Phrase}
    (h : Brings frames ls loosest t) (hf : Holds frames (loosest + 1)) :
    (wants frames).run (ls ++ .comma :: rest) =
      (afterComma (frames, t)).bind fun reader => reader.run rest := by
  obtain ⟨frames', t', hrun, hfold⟩ := h
  have hall : foldAll frames' t' = (frames, t) := by
    rw [foldAll, hfold _ (.inl (Nat.lt_succ_self _)), hf _ (Nat.le_refl _)]
  rw [run_append, hrun, Option.bind_some, run_cons, step, hall]

/-- A number in a vector is read as a phrase that has its text, be it signed or not. -/
theorem brings_component {ls : List Lexeme} {x : String} (h : Component ls x)
    (frames : List Frame) (component : Option String) :
    ∃ t, t.component? = some x ∧ Brings (.bracket component :: frames) ls loosest t := by
  cases h with
  | plain => exact ⟨.atom x, rfl, brings_of_run rfl⟩
  | signed text =>
    exact ⟨.unary .negate (.atom text), rfl, _, _, rfl,
      fun k hk => if_neg (Nat.not_le.mpr (signLevel_lt_of_ends (by decide) hk))⟩

/-- Two numbers in brackets are read as a vector. -/
theorem brings_vector {l r : List Lexeme} {x y : String} (hx : Component l x)
    (hy : Component r y) (frames : List Frame) (n : Nat) :
    Brings frames (.opening :: (l ++ .comma :: (r ++ [.closing]))) n (.vector x y) := by
  obtain ⟨tx, htx, hl⟩ := brings_component hx frames none
  obtain ⟨ty, hty, hr⟩ := brings_component hy frames (some x)
  apply brings_of_run
  calc (wants frames).run (.opening :: (l ++ .comma :: (r ++ [.closing])))
      = (wants (.bracket none :: frames)).run (l ++ .comma :: (r ++ [.closing])) := rfl
    _ = (wants (.bracket (some x) :: frames)).run (r ++ [.closing]) := by
        rw [hl.run_comma (holds_bracket _ _ _), afterComma, htx]
        rfl
    _ = some (has frames (.vector x y)) := by
        rw [hr.run_closing (holds_bracket _ _ _), afterClosing, hty]
        rfl

/-- A phrase in brackets is read as the phrase. -/
theorem brings_brackets {ls : List Lexeme} {t : Phrase}
    (ih : ∀ frames, Holds frames loosest → Brings frames ls loosest t)
    (frames : List Frame) (n : Nat) : Brings frames (.opening :: (ls ++ [.closing])) n t := by
  have h := ih (.bracket none :: frames) (holds_bracket _ _ _)
  exact brings_of_run (h.run_closing (holds_bracket _ _ _))

/-- Arguments in brackets behind a name are read as a call. -/
theorem brings_call {args : List (List Lexeme × Phrase)} (f : Func)
    (ih : ∀ arg ∈ args, ∀ frames, Holds frames loosest → Brings frames arg.1 loosest arg.2)
    (frames : List Frame) (n : Nat) :
    Brings frames
      (.word f.name :: .opening ::
        ([Lexeme.comma].intercalate (args.map Prod.fst) ++ [.closing])) n
      (.call f (args.map Prod.snd)) := by
  -- `done` are the arguments before these; a call may close without an operand only if it has none
  have aux : ∀ done, (args = [] → done = []) →
      (wants (.call f done :: frames)).run
        ([Lexeme.comma].intercalate (args.map Prod.fst) ++ [.closing]) =
      some (has frames (.call f (done ++ args.map Prod.snd))) := by
    induction args with
    | nil =>
      intro done hdone
      obtain rfl := hdone rfl
      rfl
    | cons arg args ihs =>
      intro done _
      have harg := ih arg List.mem_cons_self (.call f done :: frames) (holds_call _ _ _ _)
      have hargs := ihs (fun a ha => ih a (List.mem_cons_of_mem arg ha)) (done ++ [arg.2])
      rcases args with - | ⟨arg', args⟩
      · simpa [afterClosing] using harg.run_closing (holds_call _ _ _ _)
      · have hrest := hargs (fun h => absurd h (List.cons_ne_nil _ _))
        rw [List.map_cons, List.map_cons, List.intercalate_cons_cons, List.append_assoc,
          List.append_assoc, List.singleton_append, ← List.map_cons,
          harg.run_comma (holds_call _ _ _ _), afterComma, Option.bind_some, hrest]
        simp
  apply brings_of_run
  have hcall : (wants frames).run (.word f.name :: .opening ::
      ([Lexeme.comma].intercalate (args.map Prod.fst) ++ [.closing])) =
      (wants (.call f [] :: frames)).run
        ([Lexeme.comma].intercalate (args.map Prod.fst) ++ [.closing]) := by
    rw [run_cons, step, Option.bind_some, run_cons, step, Func.ofName?_name]
    rfl
  rw [hcall, aux [] fun _ => rfl]
  rfl

/-- **A reader that wants an operand is brought to every phrase of the grammar.** -/
theorem brings_of_grammar {n : Nat} {ls : List Lexeme} {t : Phrase} (h : Grammar n ls t) :
    ∀ frames, Holds frames n → Brings frames ls n t := by
  induction h with
  | atom n text => exact fun frames _ => brings_of_run rfl
  | vector n hx hy => exact fun frames _ => brings_vector hx hy frames n
  | brackets n _ ih => exact fun frames _ => brings_brackets ih frames n
  | call n f args _ ih => exact fun frames _ => brings_call f ih frames n
  | @sign n op ls t hn _ ih =>
    intro frames _
    obtain ⟨frames', t', hrun, hfold⟩ := ih _ (holds_sign op frames)
    refine ⟨frames', t', ?_, ?_⟩
    · rw [run_cons, step, UnaryOp.ofSymbol?_symbol]
      exact hrun
    · -- what ends the signed phrase ends its operand, and then completes the sign
      intro k hk
      have hlt := signLevel_lt_of_ends hn hk
      rw [hfold k (.inl hlt)]
      exact if_neg (Nat.not_le.mpr hlt)
  | @operator n op l r a b hn _ _ ihl ihr =>
    intro frames hf
    -- the operator completes what the left operand left open, and nothing of `frames`
    obtain ⟨frames₁, t₁, hrun₁, hfold₁⟩ :=
      ihl frames (hf.mono (Nat.le_trans (leftLevel_le op) hn))
    obtain ⟨frames₂, t₂, hrun₂, hfold₂⟩ := ihr _ (holds_operator op a frames)
    have hfold : fold op.level frames₁ t₁ = (frames, a) := by
      rw [hfold₁ _ (ends_leftLevel op), hf _ hn]
    refine ⟨frames₂, t₂, ?_, ?_⟩
    · rw [run_append, hrun₁, Option.bind_some, run_cons, step, BinaryOp.ofSymbol?_symbol,
        Option.map_some, hfold]
      exact hrun₂
    · intro k hk
      have hlt := rightLevel_lt_of_ends hn hk
      rw [hfold₂ k (.inl hlt)]
      exact if_neg (Nat.not_le.mpr hlt)

end Reader

/-! ### Uniqueness -/

open Reader ParametricPlan.Frame

/-- **Lexemes form one phrase at most.** -/
theorem Grammar.unique {n n' : Nat} {ls : List Lexeme} {t t' : Phrase} (h : Grammar n ls t)
    (h' : Grammar n' ls t') : t = t' := by
  obtain ⟨frames₁, t₁, hrun₁, hfold₁⟩ := brings_of_grammar h [] (holds_nil n)
  obtain ⟨frames₂, t₂, hrun₂, hfold₂⟩ := brings_of_grammar h' [] (holds_nil n')
  rw [hrun₁] at hrun₂
  simp only [Option.some.injEq, Reader.has.injEq] at hrun₂
  obtain ⟨rfl, rfl⟩ := hrun₂
  -- both readers come to hold the same, and the loosest operator completes it to either phrase
  have h₁ := hfold₁ (n + n' + 1) (.inl (by omega))
  have h₂ := hfold₂ (n + n' + 1) (.inl (by omega))
  exact congrArg Prod.snd (h₁.symm.trans h₂)

/-- **A text has one reading at most.** -/
theorem ReadsAs.unique {text : String} {t t' : Phrase} (h : ReadsAs text t)
    (h' : ReadsAs text t') : t = t' := by
  obtain ⟨ls, hls, hg⟩ := h
  obtain ⟨ls', hls', hg'⟩ := h'
  rw [hls, Option.some.injEq] at hls'
  subst hls'
  exact hg.unique hg'

end ParametricPlan
