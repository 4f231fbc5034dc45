/-
ParametricPlan/Proofs/Formula/Lexeme.lean

The texts of formulas, cut into lexemes.

A *lexeme* is what a reader can tell apart: a word, a bracket, a comma, or the symbol of an
operator.  It says less than the token it was written for, since one symbol `-` is the sign of an
opposite and the operator of a difference.  `scan` finds the lexemes of a text.  Letters, digits,
underscores and points in a row are one word, of two symbols that would fit the longer one is
taken, and blanks part lexemes and are left out.

A list of tokens is `Legible` if its atoms are words, with something between any two of them.
Main result: the text of legible tokens scans as their lexemes (`scan_textAll`).
-/
import ParametricPlan.Formula.Infix

namespace ParametricPlan

/-! ### Lexemes -/

/-- The parts of a text that a reader tells apart. -/
inductive Lexeme where
  | word (text : String)
  | symbol (text : String)
  | opening
  | closing
  | comma
deriving DecidableEq, Repr

/-- What a reader sees of a token. -/
def Token.lexeme : Token → Lexeme
  | atom text => .word text
  | sign op => .symbol op.symbol
  | operator op => .symbol op.symbol
  | opening => .opening
  | closing => .closing
  | comma => .comma

namespace Lexeme

/-- The symbols of all operators. -/
def symbols : List (List Char) :=
  (UnaryOp.all.map UnaryOp.symbol ++ BinaryOp.all.map BinaryOp.symbol).map String.toList

/-- The characters of names and numbers. -/
def isWordChar (c : Char) : Bool :=
  c.isAlphanum || c == '_' || c == '.'

/-- Whether a lexeme that was begun goes on with a character. -/
def goesOn (begun : List Char) (c : Char) : Bool :=
  (begun ++ [c]).all isWordChar || (begun ++ [c]) ∈ symbols

/-- The lexeme of some characters. -/
def ofChars? : List Char → Option Lexeme
  | ['('] => some opening
  | [')'] => some closing
  | [','] => some comma
  | cs =>
    if cs.all isWordChar then some (word (.ofList cs))
    else if cs ∈ symbols then some (symbol (.ofList cs))
    else none

/-- Ends the lexeme that was begun, if there is one, before those that follow it. -/
def finish (begun : List Char) (rest : Option (List Lexeme)) : Option (List Lexeme) :=
  if begun = [] then rest else (ofChars? begun).bind fun l => rest.map (l :: ·)

/-- The lexemes of a text, the first of which was begun before it. -/
def scanFrom : List Char → List Char → Option (List Lexeme)
  | begun, [] => finish begun (some [])
  | begun, c :: cs =>
    if goesOn begun c then scanFrom (begun ++ [c]) cs
    else finish begun (scanFrom (if c = ' ' then [] else [c]) cs)

/-- The lexemes of a text, if it consists of lexemes. -/
def scan (text : String) : Option (List Lexeme) :=
  scanFrom [] text.toList

/-! ### Scanning one lexeme -/

/-- A text that is one word. -/
def IsWord (text : String) : Prop :=
  text ≠ "" ∧ text.toList.all isWordChar = true

/-- No character that follows belongs to the lexeme that was begun. -/
def StopsAt (begun rest : List Char) : Prop :=
  ∀ c ∈ rest.head?, goesOn begun c = false

/-- A lexeme that does not go on is finished, and the rest is scanned afresh. -/
theorem scanFrom_of_stopsAt {begun rest : List Char} (h : StopsAt begun rest) :
    scanFrom begun rest = finish begun (scanFrom [] rest) := by
  rcases rest with - | ⟨c, cs⟩
  · rfl
  · have hc : goesOn begun c = false := h c rfl
    rw [scanFrom, hc]
    simp only [Bool.false_eq_true, if_false]
    -- the character begins the next lexeme, and a blank begins none
    congr 1
    rw [scanFrom]
    by_cases hn : goesOn [] c = true
    · have hb : c ≠ ' ' := by
        rintro rfl
        revert hn
        decide
      simp [hn, hb]
    · simp [hn, finish]

/-- A word goes on with all characters of words. -/
theorem scanFrom_word {cs : List Char} (h : cs.all isWordChar = true) (begun rest : List Char)
    (hb : begun.all isWordChar = true) :
    scanFrom begun (cs ++ rest) = scanFrom (begun ++ cs) rest := by
  induction cs generalizing begun with
  | nil => simp
  | cons c cs ih =>
    rw [List.all_cons, Bool.and_eq_true] at h
    have hc : (begun ++ [c]).all isWordChar = true := by simp [hb, h.1]
    have hgo : goesOn begun c = true := by simp [goesOn, hc]
    rw [List.cons_append, scanFrom, if_pos hgo, ih h.2 _ hc]
    simp

/-- A word before something that does not go on with it is one lexeme. -/
theorem scanFrom_atom {text : String} (h : IsWord text) {rest : List Char}
    (hr : StopsAt text.toList rest) :
    scanFrom [] (text.toList ++ rest) = (scanFrom [] rest).map (word text :: ·) := by
  have hne : text.toList ≠ [] := by simpa using h.1
  have hl : ofChars? text.toList = some (word text) := by
    have hw := h.2
    -- a word is none of the brackets and no comma
    rw [ofChars?, if_pos hw]
    · simp
    · rintro e; rw [e] at hw; revert hw; decide
    · rintro e; rw [e] at hw; revert hw; decide
    · rintro e; rw [e] at hw; revert hw; decide
  rw [scanFrom_word h.2 [] rest rfl, List.nil_append, scanFrom_of_stopsAt hr, finish, if_neg hne,
    hl]
  rfl

/-- A sign before something that does not go on with it is one lexeme. -/
theorem scanFrom_sign (op : UnaryOp) {rest : List Char} (h : StopsAt op.symbol.toList rest) :
    scanFrom [] (op.symbol.toList ++ rest) = (scanFrom [] rest).map (symbol op.symbol :: ·) := by
  have hgo : scanFrom [] (op.symbol.toList ++ rest) = scanFrom op.symbol.toList rest := by
    cases op <;> rfl
  rw [hgo, scanFrom_of_stopsAt h]
  cases op <;> rfl

/-- An operator has blanks on both sides, and so it needs no condition on what follows. -/
theorem scanFrom_operator (op : BinaryOp) (rest : List Char) :
    scanFrom [] ((Token.operator op).text.toList ++ rest) =
      (scanFrom [] rest).map (symbol op.symbol :: ·) := by
  have hgo : scanFrom [] ((Token.operator op).text.toList ++ rest) =
      finish op.symbol.toList (scanFrom [] rest) := by
    -- the blank after the symbol ends it, whatever the rest is
    cases op <;> rfl
  rw [hgo]
  cases op <;> rfl

/-- No symbol begins with a bracket. -/
theorem stopsAt_bracket {bracket : Char} (h : bracket = '(' ∨ bracket = ')')
    (rest : List Char) : StopsAt [bracket] rest := by
  intro c _
  rcases h with rfl | rfl <;>
    simp [goesOn, isWordChar, symbols, UnaryOp.all, BinaryOp.all, UnaryOp.symbol, BinaryOp.symbol]

theorem scanFrom_opening (rest : List Char) :
    scanFrom [] ('(' :: rest) = (scanFrom [] rest).map (opening :: ·) := by
  show scanFrom ['('] rest = _
  rw [scanFrom_of_stopsAt (stopsAt_bracket (.inl rfl) rest)]
  rfl

theorem scanFrom_closing (rest : List Char) :
    scanFrom [] (')' :: rest) = (scanFrom [] rest).map (closing :: ·) := by
  show scanFrom [')'] rest = _
  rw [scanFrom_of_stopsAt (stopsAt_bracket (.inr rfl) rest)]
  rfl

/-- The blank after a comma is left out. -/
theorem scanFrom_comma (rest : List Char) :
    scanFrom [] (',' :: ' ' :: rest) = (scanFrom [] rest).map (comma :: ·) :=
  rfl

end Lexeme

/-! ### Legible tokens -/

namespace Token

open Lexeme

/-- Whether the first of some tokens is an atom. -/
def startsWithAtom : List Token → Bool
  | .atom _ :: _ => true
  | _ => false

/-- Tokens that a reader can tell apart: atoms are words, and none follows another. -/
def Legible : List Token → Prop
  | [] => True
  | .atom text :: ts => IsWord text ∧ startsWithAtom ts = false ∧ Legible ts
  | _ :: ts => Legible ts

/-- The characters of some tokens. -/
def chars (ts : List Token) : List Char :=
  ts.flatMap fun t => t.text.toList

/-- The text of tokens has the characters of each of them, in order. -/
theorem toList_textAll (ts : List Token) : (textAll ts).toList = chars ts := by
  -- the texts are added to one that was begun
  have aux : ∀ begun : String,
      (ts.foldl (fun text t => text ++ t.text) begun).toList = begun.toList ++ chars ts := by
    induction ts with
    | nil => simp [chars]
    | cons t ts ih => intro begun; simp [ih, chars]
  simpa [textAll] using aux ""

/-- A word begins with a character of words. -/
theorem exists_chars_of_isWord {text : String} (h : IsWord text) :
    ∃ c cs, text.toList = c :: cs ∧ isWordChar c = true := by
  obtain ⟨c, cs, hcs⟩ := List.exists_cons_of_ne_nil (show text.toList ≠ [] by simpa using h.1)
  have hall := h.2
  rw [hcs, List.all_cons, Bool.and_eq_true] at hall
  exact ⟨c, cs, hcs, hall.1⟩

/-- What is no atom begins with another character, and not with that in which the longer symbols
end. -/
theorem exists_chars_of_not_atom {t : Token} (h : ∀ text, t ≠ .atom text) :
    ∃ c cs, t.text.toList = c :: cs ∧ isWordChar c = false ∧ c ≠ '=' := by
  cases t with
  | atom text => exact absurd rfl (h text)
  | sign op => cases op <;> exact ⟨_, _, rfl, rfl, by decide⟩
  | operator op => exact ⟨' ', (op.symbol ++ " ").toList, by simp [Token.text], rfl, by decide⟩
  | opening => exact ⟨_, _, rfl, rfl, by decide⟩
  | closing => exact ⟨_, _, rfl, rfl, by decide⟩
  | comma => exact ⟨_, _, rfl, rfl, by decide⟩

/-- The text of legible tokens does not go on with a symbol, nor, if it does not begin with an
atom, with a word. -/
theorem head_chars {ts : List Token} (h : Legible ts) {c : Char} (hc : c ∈ (chars ts).head?) :
    c ≠ '=' ∧ (startsWithAtom ts = false → isWordChar c = false) := by
  rcases ts with - | ⟨t, ts⟩
  · simp [chars] at hc
  · have hcons : chars (t :: ts) = t.text.toList ++ chars ts := rfl
    rw [hcons] at hc
    -- an atom begins with a character of words, any other token with one of its own
    by_cases ht : ∃ text, t = .atom text
    · obtain ⟨text, rfl⟩ := ht
      obtain ⟨d, ds, hds, hd⟩ := exists_chars_of_isWord h.1
      simp only [Token.text, hds, List.cons_append, List.head?_cons, Option.mem_some_iff] at hc
      subst hc
      refine ⟨?_, fun ha => by simp [startsWithAtom] at ha⟩
      rintro rfl
      exact absurd hd (by decide)
    · obtain ⟨d, ds, hds, hd, hne⟩ := exists_chars_of_not_atom (fun text e => ht ⟨text, e⟩)
      simp only [hds, List.cons_append, List.head?_cons, Option.mem_some_iff] at hc
      subst hc
      exact ⟨hne, fun _ => hd⟩

/-- An atom ends before the next token. -/
theorem stopsAt_atom {text : String} {ts : List Token} (h : Legible (.atom text :: ts)) :
    StopsAt text.toList (chars ts) := by
  intro c hc
  have hw : isWordChar c = false := (head_chars h.2.2 hc).2 h.2.1
  obtain ⟨d, ds, hds, hd⟩ := exists_chars_of_isWord h.1
  -- no symbol begins with a character of words, so an atom does not go on to become one
  have hsym : ∀ s ∈ symbols, s.head?.all isWordChar = false := by decide
  have hmem : (text.toList ++ [c]) ∉ symbols := by
    intro hm
    have := hsym _ hm
    simp [hds, hd] at this
  simp [goesOn, hw, hmem]

/-- A sign ends before the next token, since the longer symbol goes on with a character that begins
none. -/
theorem stopsAt_sign {op : UnaryOp} {ts : List Token} (h : Legible (.sign op :: ts)) :
    StopsAt op.symbol.toList (chars ts) := by
  intro c hc
  have hts : Legible ts := h
  have hne : c ≠ '=' := (head_chars hts hc).1
  cases op <;>
    simp [goesOn, isWordChar, symbols, UnaryOp.all, BinaryOp.all, UnaryOp.symbol, BinaryOp.symbol,
      hne]

theorem Legible.tail {t : Token} {ts : List Token} (h : Legible (t :: ts)) : Legible ts := by
  cases t with
  | atom text => exact h.2.2
  | sign | operator | opening | closing | comma => exact h

/-- The first token is scanned as its lexeme, whatever tokens follow. -/
theorem scanFrom_chars_cons {t : Token} {ts : List Token} (h : Legible (t :: ts)) :
    scanFrom [] (chars (t :: ts)) = (scanFrom [] (chars ts)).map (t.lexeme :: ·) := by
  cases t with
  | atom text => exact scanFrom_atom h.1 (stopsAt_atom h)
  | sign op => exact scanFrom_sign op (stopsAt_sign h)
  | operator op => exact scanFrom_operator op (chars ts)
  | opening => exact scanFrom_opening (chars ts)
  | closing => exact scanFrom_closing (chars ts)
  | comma => exact scanFrom_comma (chars ts)

/-- **The text of legible tokens scans as their lexemes.** -/
theorem scan_textAll {ts : List Token} (h : Legible ts) :
    scan (textAll ts) = some (ts.map lexeme) := by
  rw [scan, toList_textAll]
  induction ts with
  | nil => rfl
  | cons t ts ih =>
    rw [scanFrom_chars_cons h, ih h.tail]
    rfl

end Token

end ParametricPlan
