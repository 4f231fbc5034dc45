/-
ParametricPlan/Proofs/Number/Characters.lean

Which characters numbers are written with.

A style writes digits, the point, and the letters of two words, one for infinity and one for the
NaN; a style that writes exponents has a letter for them and a minus as well (`NumberStyle.Writes`).
Only the sign of the number itself stands apart, since it is written before the rest
(`eq_minus_or_writes_of_mem_writeChars`).

Whoever asks whether the text of a number is a word, in some sense, has to ask it of these
characters only, and not of the layouts: a text is never empty (`writeRank_ne_nil`), and what is
not one of the two words begins with a digit (`exists_digit_writeDecimal`).
-/
import ParametricPlan.Number.Style

namespace ParametricPlan

/-! ### Digits -/

namespace Literal

/-- Digits and nothing else. -/
def AllDigits (ds : List Char) : Prop :=
  ∀ c ∈ ds, c.isDigit = true

theorem allDigits_append {cs ds : List Char} :
    AllDigits (cs ++ ds) ↔ AllDigits cs ∧ AllDigits ds :=
  List.forall_mem_append

/-- A number is written with digits and nothing else. -/
theorem allDigits_toDigits (n : Nat) : AllDigits (Nat.toDigits 10 n) :=
  fun _ hc => Nat.isDigit_of_mem_toDigits (by decide) (by decide) hc

theorem allDigits_zeros (n : Nat) : AllDigits (NumberStyle.zeros n) := by
  intro c hc
  rw [List.eq_of_mem_replicate hc]
  rfl

/-- An integer is written with its digits, and a minus before them if it is negative. -/
theorem toList_toString (e : Int) :
    (toString e).toList =
      if e < 0 then '-' :: Nat.toDigits 10 e.natAbs else Nat.toDigits 10 e.natAbs := by
  obtain n | n := e
  · simp [toString, Int.repr]
  · simp [toString, Int.repr]

end Literal

namespace NumberStyle

open Literal

variable (s : NumberStyle) {ds : List Char}

/-! ### The first character -/

/-- A positional text begins with a digit, which is a zero if the point would come first. -/
theorem exists_digit_writePositional (hd : AllDigits ds) (hne : ds ≠ []) (point : Int) :
    ∃ c cs, s.writePositional ds point = c :: cs ∧ c.isDigit = true := by
  obtain ⟨d, ds, rfl⟩ := List.exists_cons_of_ne_nil hne
  have hfirst : d.isDigit = true := hd d List.mem_cons_self
  unfold writePositional
  split
  case isTrue => exact ⟨d, _, rfl, hfirst⟩
  case isFalse =>
    split
    case isTrue hpos =>
      -- the point does not come first, so that the first digit stays first
      obtain ⟨n, hn⟩ : ∃ n, point.toNat = n + 1 := ⟨point.toNat - 1, by omega⟩
      rw [hn]
      exact ⟨d, _, rfl, hfirst⟩
    case isFalse => exact ⟨'0', _, rfl, rfl⟩

/-- A decimal begins with a digit in either layout. -/
theorem exists_digit_writeDecimal (d : Decimal) :
    ∃ c cs, s.writeDecimal d = c :: cs ∧ c.isDigit = true := by
  have hd := allDigits_toDigits d.digits
  have hne : Nat.toDigits 10 d.digits ≠ [] := Nat.toDigits_ne_nil
  unfold writeDecimal
  -- that there are digits is all that matters of them
  generalize Nat.toDigits 10 d.digits = ds at *
  have hpositional := s.exists_digit_writePositional hd hne (ds.length + d.exponent)
  rcases s.positional with - | ⟨first, last⟩
  · exact hpositional
  · dsimp only
    split
    · exact hpositional
    · obtain ⟨c, cs, rfl⟩ := List.exists_cons_of_ne_nil hne
      exact ⟨c, _, rfl, hd c List.mem_cons_self⟩

/-- No number is written as nothing. -/
theorem writeDecimal_ne_nil (d : Decimal) : s.writeDecimal d ≠ [] := by
  obtain ⟨c, cs, htext, -⟩ := s.exists_digit_writeDecimal d
  rw [htext]
  exact List.cons_ne_nil c cs

theorem writeRank_ne_nil (rank : Nat) : s.writeRank rank ≠ [] := by
  unfold writeRank
  split
  · exact List.cons_ne_nil _ _
  · split
    · exact List.cons_ne_nil _ _
    · split
      · exact s.writeDecimal_ne_nil _
      · exact s.writeDecimal_ne_nil _

/-! ### Every character -/

/-- The characters that a style writes numbers with, but for their sign. -/
inductive Writes (s : NumberStyle) : Char → Prop
  | digit {c : Char} (h : c.isDigit = true) : Writes s c
  | point : Writes s '.'
  /-- The letters of the words for infinity and the NaN. -/
  | letter {c : Char} (h : c ∈ ['i', 'n', 'f', 'N', 'a']) : Writes s c
  /-- The letter of exponents, and the sign of one. -/
  | exponent {c : Char} (hs : s.positional ≠ none) (h : c ∈ ['e', '-']) : Writes s c

variable {s}

theorem writes_of_mem_toDigits {n : Nat} {c : Char} (h : c ∈ Nat.toDigits 10 n) : s.Writes c :=
  .digit (allDigits_toDigits n c h)

/-- The digits may be cut in two by the point, or have zeros on either side. -/
theorem writes_of_mem_writePositional (hds : ∀ c ∈ ds, s.Writes c) {point : Int} {c : Char}
    (h : c ∈ s.writePositional ds point) : s.Writes c := by
  have hzeros : ∀ n, ∀ c ∈ zeros n, s.Writes c := fun n c hc => .digit (allDigits_zeros n c hc)
  have hzero : s.Writes '0' := .digit rfl
  unfold writePositional at h
  split at h
  · rcases List.mem_append.mp h with h | h
    · exact (List.mem_append.mp h).elim (hds c) (hzeros _ c)
    · split at h
      · exact (List.forall_mem_cons.mpr ⟨.point, List.forall_mem_singleton.mpr hzero⟩) c h
      · cases h
  · split at h
    · rcases List.mem_append.mp h with h | h
      · exact hds c (List.mem_of_mem_take h)
      · rcases List.mem_cons.mp h with rfl | h
        · exact .point
        · exact hds c (List.mem_of_mem_drop h)
    · rcases List.mem_cons.mp h with rfl | h
      · exact hzero
      · rcases List.mem_cons.mp h with rfl | h
        · exact .point
        · exact (List.mem_append.mp h).elim (hzeros _ c) (hds c)

/-- Exponents are written by styles that have them, and with a minus at most. -/
theorem writes_of_mem_toString (hs : s.positional ≠ none) {e : Int} {c : Char}
    (h : c ∈ (toString e).toList) : s.Writes c := by
  rw [toList_toString] at h
  split at h
  · rcases List.mem_cons.mp h with rfl | h
    · exact .exponent hs (by decide)
    · exact writes_of_mem_toDigits h
  · exact writes_of_mem_toDigits h

theorem writes_of_mem_writeScientific (hs : s.positional ≠ none) (hds : ∀ c ∈ ds, s.Writes c)
    {point : Int} {c : Char} (h : c ∈ writeScientific ds point) : s.Writes c := by
  simp only [writeScientific, List.mem_append, List.mem_cons] at h
  rcases h with (h | h) | rfl | h
  · exact hds c (List.mem_of_mem_take h)
  · split at h
    · cases h
    · rcases List.mem_cons.mp h with rfl | h
      · exact .point
      · exact hds c (List.mem_of_mem_drop h)
  · exact .exponent hs (by decide)
  · exact writes_of_mem_toString hs h

theorem writes_of_mem_writeDecimal {d : Decimal} {c : Char} (h : c ∈ s.writeDecimal d) :
    s.Writes c := by
  have hds : ∀ c ∈ Nat.toDigits 10 d.digits, s.Writes c := fun _ => writes_of_mem_toDigits
  unfold writeDecimal at h
  split at h
  case h_1 hs =>
    dsimp only at h
    split at h
    · exact writes_of_mem_writePositional hds h
    · -- an exponent is written only by a style that has a range for the point
      exact writes_of_mem_writeScientific (by simp [hs]) hds h
  case h_2 => exact writes_of_mem_writePositional hds h

/-- **The characters of a number without its sign.** -/
theorem writes_of_mem_writeRank {rank : Nat} {c : Char} (h : c ∈ s.writeRank rank) :
    s.Writes c := by
  have hnan : ['N', 'a', 'N'] ⊆ ['i', 'n', 'f', 'N', 'a'] := by decide
  have hinf : ['i', 'n', 'f'] ⊆ ['i', 'n', 'f', 'N', 'a'] := by decide
  unfold writeRank at h
  split at h
  · exact .letter (hnan h)
  · split at h
    · exact .letter (hinf h)
    · split at h
      · exact writes_of_mem_writeDecimal h
      · exact writes_of_mem_writeDecimal h

/-- The characters of a number: a sign is a minus. -/
theorem eq_minus_or_writes_of_mem_writeChars {x : Float} {c : Char} (h : c ∈ s.writeChars x) :
    c = '-' ∨ s.Writes c := by
  unfold writeChars at h
  split at h
  · exact (List.mem_cons.mp h).imp_right writes_of_mem_writeRank
  · exact .inr (writes_of_mem_writeRank h)

theorem writeChars_ne_nil (x : Float) : s.writeChars x ≠ [] := by
  unfold writeChars
  split
  · exact List.cons_ne_nil _ _
  · exact s.writeRank_ne_nil _

end NumberStyle
end ParametricPlan
