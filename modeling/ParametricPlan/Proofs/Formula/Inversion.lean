/-
ParametricPlan/Proofs/Formula/Inversion.lean

The last rule of a derivation, from what it derives.

The rules of the grammar say how a phrase may be built up.  Here they are read backwards.  Given the
lexemes and the phrase, there is mostly one rule that can have been the last, and its premises are
as good as its conclusion: `grammar_sign_iff`, `grammar_brackets_iff`, `grammar_operator_iff` and
`grammar_call_iff`.  Two measures decide where a phrase has to be cut into its parts.

* The *width* of lexemes counts their characters but those of brackets.  A phrase has one width,
  however many brackets there are (`Grammar.width_eq`), so that a part of known width can end at one
  place only, if what comes next is not a bracket (`eq_of_width_eq`).
* The *depth* counts the brackets that are open.  What is derived is *balanced*
  (`Grammar.balanced`), and so a bracket at the beginning that closes at the end belongs to no
  proper part (`not_bracketed`).
-/
import ParametricPlan.Proofs.Formula.Grammar

namespace ParametricPlan

/-! ### Width -/

/-- The number of characters of a lexeme; those of brackets do not count. -/
def Lexeme.width : Lexeme → Nat
  | word text | symbol text => text.length
  | comma => 1
  | opening | closing => 0

/-- The width of some lexemes. -/
def width : List Lexeme → Nat
  | [] => 0
  | l :: ls => l.width + width ls

@[simp] theorem width_nil : width [] = 0 :=
  rfl

@[simp] theorem width_cons (l : Lexeme) (ls : List Lexeme) :
    width (l :: ls) = l.width + width ls :=
  rfl

@[simp] theorem width_append (ls ls' : List Lexeme) : width (ls ++ ls') = width ls + width ls' := by
  induction ls with
  | nil => exact (Nat.zero_add _).symm
  | cons l ls ih => rw [List.cons_append, width_cons, ih, width_cons, Nat.add_assoc]

/-- The symbol of an operator is not empty. -/
theorem width_symbol_pos (op : BinaryOp) : 0 < (Lexeme.symbol op.symbol).width := by
  cases op <;> decide

mutual

/-- The width of the lexemes that form a phrase. -/
def Phrase.width : Phrase → Nat
  | .atom text => text.length
  | .vector x y => x.length + 1 + y.length
  | .unary op operand => op.symbol.length + operand.width
  | .binary op left right => left.width + op.symbol.length + right.width
  | .call function args => function.name.length + widthAll args

/-- The width of phrases with commas between them. -/
def widthAll : List Phrase → Nat
  | [] => 0
  | [t] => t.width
  | t :: ts => t.width + 1 + widthAll ts

end

/-- The commas between parts count as well. -/
theorem width_intercalate {parts : List (List Lexeme × Phrase)}
    (h : ∀ part ∈ parts, width part.1 = part.2.width) :
    width ([Lexeme.comma].intercalate (parts.map Prod.fst)) = widthAll (parts.map Prod.snd) := by
  induction parts with
  | nil => rfl
  | cons part parts ih =>
    have hpart := h part List.mem_cons_self
    have hparts := ih fun p hp => h p (List.mem_cons_of_mem part hp)
    rcases parts with - | ⟨next, parts⟩
    · simpa [widthAll] using hpart
    · simp only [List.map_cons] at hparts
      simp only [List.map_cons, List.intercalate_cons_cons, width_append, width_cons, hparts, hpart,
        widthAll, Lexeme.width, width_nil]

/-- A number in a vector is as wide as its text, with its sign. -/
theorem width_component {ls : List Lexeme} {x : String} (h : Component ls x) :
    width ls = x.length := by
  cases h with
  | plain => rfl
  | signed text => simp [Lexeme.width]

/-- **A phrase has one width**, whatever lexemes form it. -/
theorem Grammar.width_eq {n : Nat} {ls : List Lexeme} {t : Phrase} (h : Grammar n ls t) :
    width ls = t.width := by
  induction h with
  | atom n text => rfl
  | vector n hx hy =>
    simp [Phrase.width, Lexeme.width, width_component hx, width_component hy, Nat.add_assoc]
  -- brackets are not counted, and this is the one rule that adds them without need
  | brackets n _ ih => simpa [Lexeme.width] using ih
  | call n function args _ ih =>
    simp [Phrase.width, Lexeme.width, width_intercalate ih]
  | sign op _ _ ih => simp [Phrase.width, Lexeme.width, ih]
  | operator op _ _ _ ihl ihr => simp [Phrase.width, Lexeme.width, ihl, ihr, Nat.add_assoc]

/-- The next lexeme is not a bracket. -/
def StartsWide (ls : List Lexeme) : Prop :=
  ∀ l ∈ ls.head?, 0 < l.width

/-- What begins with anything but a bracket begins wide. -/
theorem startsWide_cons {l : Lexeme} (h : 0 < l.width) (ls : List Lexeme) :
    StartsWide (l :: ls) := by
  intro l' hl'
  obtain rfl : l = l' := Option.some.inj hl'
  exact h

/-- Lexemes without width are brackets, and none of them comes first. -/
theorem eq_nil_of_width_eq_zero {more rest : List Lexeme} (hw : width more = 0)
    (h : StartsWide (more ++ rest)) : more = [] := by
  rcases more with - | ⟨l, more⟩
  · rfl
  · have hl : 0 < l.width := h l rfl
    rw [width_cons] at hw
    omega

/-- Lexemes of one width that begin alike, and end where no bracket follows, are the same. -/
theorem eq_of_width_eq {ls ls' rest rest' : List Lexeme} (h : ls ++ rest = ls' ++ rest')
    (hw : width ls = width ls') (hr : StartsWide rest) (hr' : StartsWide rest') :
    ls = ls' ∧ rest = rest' := by
  -- what one of them has more than the other would begin with a wide lexeme
  rcases List.append_eq_append_iff.mp h with ⟨more, rfl, rfl⟩ | ⟨more, rfl, rfl⟩
  · rw [width_append] at hw
    have hmore : width more = 0 := by omega
    obtain rfl := eq_nil_of_width_eq_zero hmore hr
    exact ⟨(List.append_nil ls).symm, rfl⟩
  · rw [width_append] at hw
    have hmore : width more = 0 := by omega
    obtain rfl := eq_nil_of_width_eq_zero hmore hr'
    exact ⟨List.append_nil ls', rfl⟩

/-! ### Depth -/

/-- What a lexeme does to the number of open brackets. -/
def Lexeme.rise : Lexeme → Int
  | opening => 1
  | closing => -1
  | word _ | symbol _ | comma => 0

/-- The number of brackets that some lexemes open and do not close. -/
def bracketDepth : List Lexeme → Int
  | [] => 0
  | l :: ls => l.rise + bracketDepth ls

@[simp] theorem bracketDepth_nil : bracketDepth [] = 0 :=
  rfl

@[simp] theorem bracketDepth_cons (l : Lexeme) (ls : List Lexeme) :
    bracketDepth (l :: ls) = l.rise + bracketDepth ls :=
  rfl

@[simp] theorem bracketDepth_append (ls ls' : List Lexeme) :
    bracketDepth (ls ++ ls') = bracketDepth ls + bracketDepth ls' := by
  induction ls with
  | nil => exact (Int.zero_add _).symm
  | cons l ls ih =>
    rw [List.cons_append, bracketDepth_cons, ih, bracketDepth_cons, Int.add_assoc]

/-- Every bracket is closed, and none that was not opened. -/
structure Balanced (ls : List Lexeme) : Prop where
  closed : bracketDepth ls = 0
  nested : ∀ start rest, ls = start ++ rest → 0 ≤ bracketDepth start

theorem balanced_nil : Balanced [] where
  closed := rfl
  nested start rest h := by
    obtain ⟨rfl, -⟩ := List.append_eq_nil_iff.mp h.symm
    exact Int.le_refl 0

/-- Balanced lexemes in a row are balanced. -/
theorem Balanced.append {ls ls' : List Lexeme} (h : Balanced ls) (h' : Balanced ls') :
    Balanced (ls ++ ls') where
  -- the beginning ends in the second part, and the first one has closed all it opened
  closed := by rw [bracketDepth_append, h.closed, h'.closed, Int.add_zero]
  nested start rest heq := by
    rcases List.append_eq_append_iff.mp heq with ⟨more, rfl, hls'⟩ | ⟨more, hls, -⟩
    · rw [bracketDepth_append, h.closed, Int.zero_add]
      exact h'.nested more rest hls'
    · exact h.nested start more hls

/-- A lexeme that is no bracket is balanced. -/
theorem balanced_singleton {l : Lexeme} (h : l.rise = 0) : Balanced [l] where
  closed := by rw [bracketDepth_cons, h, bracketDepth_nil, Int.add_zero]
  nested start rest heq := by
    rcases start with - | ⟨l', start⟩
    · exact Int.le_refl 0
    · obtain ⟨rfl, hnil⟩ := List.cons.inj heq
      obtain ⟨rfl, -⟩ := List.append_eq_nil_iff.mp hnil.symm
      exact Int.le_of_eq (by rw [bracketDepth_cons, h, bracketDepth_nil, Int.add_zero])

/-- A lexeme that is no bracket may come before. -/
theorem Balanced.cons {l : Lexeme} {ls : List Lexeme} (h : Balanced ls) (hl : l.rise = 0) :
    Balanced (l :: ls) :=
  (balanced_singleton hl).append h

/-- A pair of brackets around balanced lexemes is balanced. -/
theorem Balanced.brackets {ls : List Lexeme} (h : Balanced ls) :
    Balanced (.opening :: (ls ++ [.closing])) where
  closed := by
    rw [bracketDepth_cons, bracketDepth_append, h.closed]
    rfl
  nested start rest heq := by
    rcases start with - | ⟨l, start⟩
    · exact Int.le_refl 0
    · obtain ⟨rfl, htail⟩ := List.cons.inj heq
      rw [bracketDepth_cons, Lexeme.rise]
      -- up to the last bracket nothing in `ls` takes away the first one
      rcases List.append_eq_append_iff.mp htail with ⟨more, rfl, hclosing⟩ | ⟨more, hls, -⟩
      · rw [bracketDepth_append, h.closed]
        rcases more with - | ⟨l, more⟩
        · exact (by decide : (0 : Int) ≤ 1 + (0 + 0))
        · obtain ⟨rfl, hnil⟩ := List.cons.inj hclosing
          obtain ⟨rfl, -⟩ := List.append_eq_nil_iff.mp hnil.symm
          exact (by decide : (0 : Int) ≤ 1 + (0 + (-1 + 0)))
      · have hstart := h.nested start more hls
        omega

/-- Balanced lexemes remain balanced without a pair of brackets around balanced ones. -/
theorem Balanced.without_brackets {before inside after : List Lexeme}
    (h : Balanced (before ++ .opening :: (inside ++ .closing :: after))) (hi : Balanced inside) :
    Balanced (before ++ (inside ++ after)) where
  closed := by
    have hclosed := h.closed
    simp only [bracketDepth_append, bracketDepth_cons, Lexeme.rise] at hclosed ⊢
    omega
  nested start rest heq := by
    rcases List.append_eq_append_iff.mp heq with ⟨more, rfl, htail⟩ | ⟨more, rfl, -⟩
    · rcases List.append_eq_append_iff.mp htail with ⟨more', rfl, rfl⟩ | ⟨more', rfl, -⟩
      · -- beyond the pair, which changes nothing in all
        have hstart := h.nested (before ++ .opening :: (inside ++ .closing :: more')) rest (by simp)
        simp only [bracketDepth_append, bracketDepth_cons, Lexeme.rise] at hstart ⊢
        omega
      · -- between the brackets
        have hbefore := h.nested before _ rfl
        have hmore := hi.nested more more' rfl
        rw [bracketDepth_append]
        omega
    · exact h.nested start _ (List.append_assoc ..)

/-- Balanced parts with commas between them are balanced. -/
theorem balanced_intercalate {parts : List (List Lexeme)} (h : ∀ part ∈ parts, Balanced part) :
    Balanced ([Lexeme.comma].intercalate parts) := by
  induction parts with
  | nil => exact balanced_nil
  | cons part parts ih =>
    have hpart := h part List.mem_cons_self
    have hparts := ih fun p hp => h p (List.mem_cons_of_mem part hp)
    rcases parts with - | ⟨next, parts⟩
    · rwa [List.intercalate_singleton]
    · rw [List.intercalate_cons_cons]
      exact (hpart.append (balanced_singleton rfl)).append hparts

/-- A number in a vector has no brackets. -/
theorem balanced_component {ls : List Lexeme} {x : String} (h : Component ls x) : Balanced ls := by
  cases h with
  | plain => exact balanced_singleton rfl
  | signed => exact (balanced_singleton rfl).cons rfl

/-- **What is derived is balanced.** -/
theorem Grammar.balanced {n : Nat} {ls : List Lexeme} {t : Phrase} (h : Grammar n ls t) :
    Balanced ls := by
  induction h with
  | atom n text => exact balanced_singleton rfl
  | vector n hx hy =>
    have hparts := (balanced_component hx).append ((balanced_component hy).cons (l := .comma) rfl)
    simpa only [List.append_assoc, List.cons_append] using hparts.brackets
  | brackets n _ ih => exact ih.brackets
  | call n function args _ ih =>
    refine (Balanced.brackets (balanced_intercalate ?_)).cons rfl
    intro part hpart
    obtain ⟨arg, harg, rfl⟩ := List.mem_map.mp hpart
    exact ih arg harg
  | sign op _ _ ih => exact ih.cons rfl
  | operator op _ _ _ ihl ihr => exact ihl.append (ihr.cons rfl)

/-- A pair of brackets around balanced lexemes does not end within them: no balanced part of the
whole is followed by anything but a bracket. -/
theorem not_bracketed {ls part rest : List Lexeme} {l : Lexeme} (hls : Balanced ls)
    (hpart : Balanced part) (hl : 0 < l.width) :
    .opening :: (ls ++ [.closing]) ≠ part ++ l :: rest := by
  intro heq
  rcases part with - | ⟨first, part⟩
  · obtain ⟨rfl, -⟩ := List.cons.inj heq
    exact Nat.lt_irrefl 0 hl
  · obtain ⟨rfl, htail⟩ := List.cons.inj heq
    -- after the opening bracket the part would have to close one bracket more than it opens
    have hdepth : bracketDepth part = -1 := by
      have hclosed := hpart.closed
      rw [bracketDepth_cons, Lexeme.rise] at hclosed
      omega
    -- the part ends behind the brackets or within them, and there is no such place
    rcases List.append_eq_append_iff.mp htail with ⟨more, rfl, hclosing⟩ | ⟨more, hls', -⟩
    · rcases more with - | ⟨last, more⟩
      · obtain ⟨rfl, -⟩ := List.cons.inj hclosing
        exact Nat.lt_irrefl 0 hl
      · obtain ⟨-, hnil⟩ := List.cons.inj hclosing
        exact absurd hnil.symm (by simp)
    · have hnested := hls.nested part more hls'
      omega

/-! ### The last rule -/

variable {n : Nat} {ls : List Lexeme} {t : Phrase}

/-- What begins with a sign is the opposite of the rest, if it is an opposite at all. -/
theorem grammar_sign_iff (op : UnaryOp) :
    Grammar n (.symbol op.symbol :: ls) (.unary op t) ↔ signLevel ≤ n ∧ Grammar signLevel ls t := by
  constructor
  · -- the lexemes are made a variable, so that the rules can be told apart by them
    generalize hls' : Lexeme.symbol op.symbol :: ls = ls'
    generalize ht' : Phrase.unary op t = t'
    intro h
    cases h with
    | atom | vector | call | operator => cases ht'
    | brackets => cases hls'
    | sign op' hn h =>
      obtain ⟨-, rfl⟩ := List.cons.inj hls'
      obtain ⟨-, rfl⟩ := Phrase.unary.inj ht'
      exact ⟨hn, h⟩
  · rintro ⟨hn, h⟩
    exact .sign op hn h

/-- Brackets around balanced lexemes tell nothing, but for those of a vector. -/
theorem grammar_brackets_iff (hls : Balanced ls) (ht : ∀ x y, t ≠ .vector x y) :
    Grammar n (.opening :: (ls ++ [.closing])) t ↔ Grammar loosest ls t := by
  constructor
  · generalize hls' : Lexeme.opening :: (ls ++ [.closing]) = ls'
    intro h
    cases h with
    | atom | call | sign => cases hls'
    | vector => exact absurd rfl (ht _ _)
    | brackets _ h =>
      obtain ⟨-, htail⟩ := List.cons.inj hls'
      rwa [List.append_cancel_right htail]
    -- the brackets would have to belong to the left operand
    | operator op _ hl _ => exact absurd hls' (not_bracketed hls hl.balanced (width_symbol_pos op))
  · intro h
    exact .brackets n h

/-- Where the left operand ends is known from its width. -/
theorem grammar_operator_iff (op : BinaryOp) {l r : List Lexeme} {a b : Phrase} (hl : Balanced l)
    (hw : width l = a.width) :
    Grammar n (l ++ .symbol op.symbol :: r) (.binary op a b) ↔
      op.level ≤ n ∧ Grammar op.leftLevel l a ∧ Grammar op.rightLevel r b := by
  constructor
  · generalize hls' : l ++ .symbol op.symbol :: r = ls'
    generalize ht' : Phrase.binary op a b = t'
    intro h
    cases h with
    | atom | vector | call | sign => cases ht'
    -- the brackets would have to begin in the left operand and end in the right one
    | brackets _ h => exact absurd hls'.symm (not_bracketed h.balanced hl (width_symbol_pos op))
    | operator op' hn hl' hr' =>
      obtain ⟨rfl, rfl, rfl⟩ := Phrase.binary.inj ht'
      have hsymbol : ∀ rest, StartsWide (.symbol op.symbol :: rest) :=
        startsWide_cons (width_symbol_pos op)
      -- both left operands are as wide as the phrase, and end before the symbol
      obtain ⟨rfl, hrest⟩ :=
        eq_of_width_eq hls' (hw.trans hl'.width_eq.symm) (hsymbol _) (hsymbol _)
      obtain ⟨-, rfl⟩ := List.cons.inj hrest
      exact ⟨hn, hl', hr'⟩
  · rintro ⟨hn, hl, hr⟩
    exact .operator op hn hl hr

/-- Arguments in a row are known from their widths. -/
theorem eq_of_intercalate_eq {parts parts' : List (List Lexeme × Phrase)}
    (hw : ∀ part ∈ parts, width part.1 = part.2.width)
    (hw' : ∀ part ∈ parts', width part.1 = part.2.width)
    (ht : parts.map Prod.snd = parts'.map Prod.snd)
    (h : [Lexeme.comma].intercalate (parts.map Prod.fst) =
      [Lexeme.comma].intercalate (parts'.map Prod.fst)) : parts = parts' := by
  induction parts generalizing parts' with
  | nil => exact (List.map_eq_nil_iff.mp ht.symm).symm
  | cons part parts ih =>
    rcases parts' with - | ⟨part', parts'⟩
    · exact absurd ht nofun
    · obtain ⟨hphrase, hphrases⟩ := List.cons.inj ht
      have hlength : parts.length = parts'.length := by simpa using congrArg List.length hphrases
      have hwidth : width part.1 = width part'.1 := by
        rw [hw part List.mem_cons_self, hw' part' List.mem_cons_self, hphrase]
      rcases parts with - | ⟨next, parts⟩
      · obtain rfl := List.eq_nil_of_length_eq_zero hlength.symm
        have hfst : part.1 = part'.1 := by simpa using h
        rw [Prod.ext hfst hphrase]
      · rcases parts' with - | ⟨next', parts'⟩
        · exact absurd hlength nofun
        · simp only [List.map_cons, List.intercalate_cons_cons, List.append_assoc,
            List.cons_append, List.nil_append] at h
          -- the first arguments end where the first comma is
          have hcomma : ∀ rest, StartsWide (.comma :: rest) := startsWide_cons (by decide)
          obtain ⟨hfst, hrest⟩ := eq_of_width_eq h hwidth (hcomma _) (hcomma _)
          have hparts := ih (fun p hp => hw p (List.mem_cons_of_mem part hp))
            (fun p hp => hw' p (List.mem_cons_of_mem part' hp)) hphrases (List.cons.inj hrest).2
          rw [Prod.ext hfst hphrase, hparts]

/-- What is written as a call is a call, with the arguments that the widths of the phrases tell. -/
theorem grammar_call_iff (function : Func) {parts : List (List Lexeme × Phrase)}
    (hw : ∀ part ∈ parts, width part.1 = part.2.width) :
    Grammar n
        (.word function.name :: .opening ::
          ([Lexeme.comma].intercalate (parts.map Prod.fst) ++ [.closing]))
        (.call function (parts.map Prod.snd)) ↔
      ∀ part ∈ parts, Grammar loosest part.1 part.2 := by
  constructor
  · generalize hls' : Lexeme.word function.name :: .opening ::
      ([Lexeme.comma].intercalate (parts.map Prod.fst) ++ [.closing]) = ls'
    generalize ht' : Phrase.call function (parts.map Prod.snd) = t'
    intro h
    cases h with
    | atom | vector | sign | operator => cases ht'
    | brackets => cases hls'
    | call _ function' args h =>
      obtain ⟨-, hphrases⟩ := Phrase.call.inj ht'
      obtain ⟨-, htail⟩ := List.cons.inj (List.cons.inj hls').2
      have hargs : parts = args := eq_of_intercalate_eq hw (fun arg ha => (h arg ha).width_eq)
        hphrases (List.append_cancel_right htail)
      rwa [hargs]
  · intro h
    exact .call n function parts h

end ParametricPlan
