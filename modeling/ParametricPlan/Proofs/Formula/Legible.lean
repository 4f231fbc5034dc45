/-
ParametricPlan/Proofs/Formula/Legible.lean

The tokens of a formula are legible.

Three things are written into a text as they are: numbers, names that the formula or the printer
gives, and the texts of references without a name.  A number without its sign is a word, and so is
the text of a reference, so that only the names are in question.  Main result: if the names that a
printer shows in a formula are words, then the tokens of the formula are legible
(`legible_tokensOnto`).
-/
import ParametricPlan.Proofs.Formula.Induction
import ParametricPlan.Proofs.Formula.Lexeme
import ParametricPlan.Proofs.Number.Characters

namespace ParametricPlan

open Lexeme Token

/-! ### Words -/

theorem isWord_ofList {cs : List Char} (hne : cs ≠ []) (h : cs.all isWordChar = true) :
    IsWord (String.ofList cs) :=
  ⟨by simpa using hne, by rwa [String.toList_ofList]⟩

/-- What numbers are written with are characters of words, unless they have exponents. -/
theorem isWordChar_of_writes {s : NumberStyle} (hs : s.positional = none) {c : Char}
    (h : s.Writes c) : isWordChar c = true := by
  cases h with
  | digit h => simp [isWordChar, Char.isAlphanum, h]
  | point => rfl
  | letter h => exact List.all_eq_true.mp rfl c h
  | exponent hexponent _ => exact absurd hs hexponent

/-- A number without its sign is a word. -/
theorem isWord_writeRank (rank : Nat) :
    IsWord (String.ofList (Value.numberStyle.writeRank rank)) :=
  isWord_ofList (NumberStyle.writeRank_ne_nil _ rank) <| List.all_eq_true.mpr fun _ hc =>
    isWordChar_of_writes rfl (NumberStyle.writes_of_mem_writeRank hc)

/-- The text of a reference is a letter and digits. -/
theorem isWord_refText (r : Ref) : IsWord r.text := by
  have htext : r.text = String.ofList ('R' :: Nat.toDigits 10 r.index.toNat) := by
    rw [← String.toList_inj]
    simp [Ref.text]
  rw [htext]
  refine isWord_ofList (List.cons_ne_nil _ _) (List.all_eq_true.mpr ?_)
  intro c hc
  rcases List.mem_cons.mp hc with rfl | hc
  · decide
  · exact isWordChar_of_writes (s := Value.numberStyle) rfl (NumberStyle.writes_of_mem_toDigits hc)

/-! ### Names -/

/-- A text of letters, digits and underscores, with at least one of them. -/
def IsName (name : String) : Prop :=
  name ≠ "" ∧ ∀ c ∈ name.toList, c.isAlphanum ∨ c = '_'

instance (name : String) : Decidable (IsName name) :=
  @instDecidableAnd _ _ _ (List.decidableBAll _ _)

theorem IsName.isWord {name : String} (h : IsName name) : IsWord name := by
  refine ⟨h.1, List.all_eq_true.mpr fun c hc => ?_⟩
  rcases h.2 c hc with h | rfl
  · simp [isWordChar, h]
  · decide

namespace Formula

mutual

/-- The names that a printer shows in a formula: those of constants, and those that it was given
for references. -/
def shownNames (p : Printer) : Formula → List String
  | constant _ => []
  | named name _ => [name]
  | reference r => (p.names.lookup r).toList
  | unary _ operand => operand.shownNames p
  | binary _ left right => left.shownNames p ++ right.shownNames p
  | call _ args => shownNamesAll p args

/-- The names that a printer shows in several formulas. -/
def shownNamesAll (p : Printer) : List Formula → List String
  | [] => []
  | e :: es => e.shownNames p ++ shownNamesAll p es

end

/-- The names shown in arguments are those shown in each of them. -/
theorem mem_shownNamesAll {p : Printer} {args : List Formula} {name : String} :
    name ∈ shownNamesAll p args ↔ ∃ arg ∈ args, name ∈ arg.shownNames p := by
  induction args with
  | nil => simp [shownNamesAll]
  | cons e es ih => simp [shownNamesAll, ih]

/-- Every name that a printer shows in a formula is a name. -/
def WellNamed (p : Printer) (e : Formula) : Prop :=
  ∀ name ∈ e.shownNames p, IsName name

instance (p : Printer) (e : Formula) : Decidable (e.WellNamed p) :=
  inferInstanceAs (Decidable (∀ name ∈ e.shownNames p, IsName name))

variable {p : Printer}

/-- A reference is shown by its name, or by its text if it has none. -/
theorem isWord_nameOf {r : Ref} (h : (reference r).WellNamed p) : IsWord (p.nameOf r) := by
  unfold Printer.nameOf
  rcases hr : p.names.lookup r with - | name
  · exact isWord_refText r
  · have hname : name ∈ (reference r).shownNames p := by simp [shownNames, hr]
    exact (h name hname).isWord

theorem WellNamed.left {op : BinaryOp} {left right : Formula}
    (h : (binary op left right).WellNamed p) : left.WellNamed p :=
  fun name hn => h name (List.mem_append_left _ hn)

theorem WellNamed.right {op : BinaryOp} {left right : Formula}
    (h : (binary op left right).WellNamed p) : right.WellNamed p :=
  fun name hn => h name (List.mem_append_right _ hn)

theorem WellNamed.arg {function : Func} {args : List Formula}
    (h : (call function args).WellNamed p) {arg : Formula} (ha : arg ∈ args) : arg.WellNamed p :=
  fun name hn => h name (mem_shownNamesAll.mpr ⟨arg, ha, hn⟩)

/-! ### The tokens of a formula -/

theorem legible_openIf {wrap : Bool} {ts : List Token} (h : Legible ts) :
    Legible (openIf wrap ts) := by
  cases wrap <;> exact h

/-- A closing parenthesis does not matter. -/
theorem legible_closeIf {wrap : Bool} {ts : List Token} (h : Legible ts) :
    Legible (closeIf wrap ts) := by
  cases wrap <;> exact h

/-- A closing parenthesis is no atom. -/
theorem startsWithAtom_closeIf {wrap : Bool} {ts : List Token} (h : startsWithAtom ts = false) :
    startsWithAtom (closeIf wrap ts) = false := by
  cases wrap
  · exact h
  · rfl

/-- A number is a word, with a sign before it or without one. -/
theorem legible_numberTokensOnto (x : Float) {rest : List Token} (h : Legible rest)
    (hs : startsWithAtom rest = false) : Legible (numberTokensOnto x rest) := by
  have hatom : Legible (.atom (String.ofList (Value.numberStyle.writeRank (Binary64.rank x)))
      :: rest) := ⟨isWord_writeRank _, hs, h⟩
  unfold numberTokensOnto
  split
  · exact hatom
  · exact hatom

/-- The numbers in a vector have brackets and a comma around them. -/
theorem legible_valueTokensOnto (v : Value) {rest : List Token} (h : Legible rest)
    (hs : startsWithAtom rest = false) : Legible (v.tokensOnto rest) := by
  cases v with
  | bool b =>
    refine ⟨?_, hs, h⟩
    cases b <;> exact ⟨by decide, by decide⟩
  | number x => exact legible_numberTokensOnto x h hs
  | vector x y =>
    have hy : Legible (.comma :: numberTokensOnto y (.closing :: rest)) :=
      legible_numberTokensOnto y h rfl
    exact legible_numberTokensOnto x hy rfl

/-- Arguments have commas between them, so that no atom follows another. -/
theorem legible_argTokensOnto {args : List Formula}
    (ih : ∀ arg ∈ args, ∀ rest, Legible rest → startsWithAtom rest = false →
      Legible (arg.tokensOnto p.nameOf rest))
    {rest : List Token} (h : Legible rest) (hs : startsWithAtom rest = false) :
    Legible (argTokensOnto p.nameOf args rest) := by
  induction args with
  | nil => exact h
  | cons e es ihs =>
    have hes := ihs fun arg ha => ih arg (List.mem_cons_of_mem e ha)
    rcases es with - | ⟨e', es⟩
    · exact ih e List.mem_cons_self rest h hs
    · exact ih e List.mem_cons_self (.comma :: _) hes rfl

/-- **The tokens of a formula are legible if its names are words**, before anything that does not
start with an atom. -/
theorem legible_tokensOnto (e : Formula) (hn : e.WellNamed p) {rest : List Token}
    (h : Legible rest) (hs : startsWithAtom rest = false) :
    Legible (e.tokensOnto p.nameOf rest) := by
  induction e generalizing rest with
  | constant v => exact legible_valueTokensOnto v h hs
  | named name v => exact ⟨(hn name (List.mem_singleton.mpr rfl)).isWord, hs, h⟩
  | reference r => exact ⟨isWord_nameOf hn, hs, h⟩
  | unary op operand ih =>
    exact legible_openIf (ih hn (legible_closeIf h) (startsWithAtom_closeIf hs))
  | binary op left right ihl ihr =>
    -- what follows the left operand is the operator, and this is no atom
    have hright : Legible (.operator op :: openIf (right.wrapsUnder op .right)
        (right.tokensOnto p.nameOf (closeIf (right.wrapsUnder op .right) rest))) :=
      legible_openIf (ihr hn.right (legible_closeIf h) (startsWithAtom_closeIf hs))
    exact legible_openIf (ihl hn.left (legible_closeIf hright) (startsWithAtom_closeIf rfl))
  | call function args ih =>
    have hargs : Legible (argTokensOnto p.nameOf args (.closing :: rest)) :=
      legible_argTokensOnto (fun arg ha _ hr hsr => ih arg ha (hn.arg ha) hr hsr) h rfl
    refine ⟨?_, rfl, hargs⟩
    cases function <;> exact ⟨by decide, by decide⟩

end Formula
end ParametricPlan
