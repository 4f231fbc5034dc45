/-
ParametricPlan/Proofs/Number/ReadBack.lean

Written numbers read back.

A number is written as the digits of its shortest decimal, and read as the double nearest to the
decimal that the text stands for.  The text may place the point elsewhere, with zeros on either
side of the digits, but it stands for the same value (`exists_readDecimal?_writeDecimal`).  The
sign and the rank that are read this way are all of a number.  Main result: in every style the text
of a number reads back as that number, to the last bit and with its sign, the zeros, the infinities
and the NaN among them (`readNumber?_writeChars`).
-/
import ParametricPlan.Number.Literal
import ParametricPlan.Proofs.Number.Characters
import ParametricPlan.Proofs.Number.Decimal
import ParametricPlan.Proofs.Number.Word
import ParametricPlan.Proofs.Text.Run

namespace ParametricPlan

namespace Literal

/-! ### Digits -/

/-- Digits are read as the core library reads them. -/
theorem digitsValue_eq_ofDigitChars (ds : List Char) :
    digitsValue ds = Nat.ofDigitChars 10 ds 0 :=
  Nat.ofDigitChars_eq_foldl.symm

theorem digitsValue_toDigits (n : Nat) : digitsValue (Nat.toDigits 10 n) = n := by
  rw [digitsValue_eq_ofDigitChars, Nat.ofDigitChars_ten_toDigits]

/-- Zeros behind digits multiply their value. -/
theorem digitsValue_append_zeros (ds : List Char) (n : Nat) :
    digitsValue (ds ++ NumberStyle.zeros n) = digitsValue ds * 10 ^ n := by
  rw [digitsValue_eq_ofDigitChars, Nat.ofDigitChars_append, NumberStyle.zeros,
    Nat.ofDigitChars_replicate_zero, digitsValue_eq_ofDigitChars, Nat.mul_comm]

/-- Zeros before digits do not matter. -/
theorem digitsValue_zeros_append (ds : List Char) (n : Nat) :
    digitsValue (NumberStyle.zeros n ++ ds) = digitsValue ds := by
  rw [digitsValue_eq_ofDigitChars, Nat.ofDigitChars_append, NumberStyle.zeros,
    Nat.ofDigitChars_replicate_zero, Nat.mul_zero, digitsValue_eq_ofDigitChars]

/-- A written number reads back. -/
theorem readDigits?_toDigits (n : Nat) : readDigits? (Nat.toDigits 10 n) = some n := by
  have hall : (Nat.toDigits 10 n).all Char.isDigit = true :=
    List.all_eq_true.mpr (allDigits_toDigits n)
  rw [readDigits?, if_pos ⟨Nat.toDigits_ne_nil, hall⟩, digitsValue_toDigits]

/-! ### Decimals -/

/-- No digit comes first. -/
def NoDigitFirst (cs : List Char) : Prop :=
  ∀ c ∈ cs.head?, c.isDigit = false

/-- Digits are read up to the first character that is none. -/
theorem span_digits {ds rest : List Char} (h : AllDigits ds) (hrest : NoDigitFirst rest) :
    (ds ++ rest).span Char.isDigit = (ds, rest) :=
  span_run h hrest

/-- Digits without a point, before an exponent or the end. -/
theorem readDecimal?_whole {whole : List Char} {e : Int} (rest : List Char) (h : AllDigits whole)
    (hne : whole ≠ []) (hrest : NoDigitFirst rest) (hpoint : rest.head? ≠ some '.')
    (he : readExponent? rest = some e) :
    readDecimal? (whole ++ rest) = some ⟨digitsValue whole, e⟩ := by
  simp only [readDecimal?, span_digits h hrest]
  rcases rest with - | ⟨c, cs⟩
  · simp [hne, he]
  · -- what follows is no point, and is read as the exponent
    have hc : c ≠ '.' := by simpa using hpoint
    simp [hne, hc, he]

/-- Digits on either side of a point; there may be none on one of the sides. -/
theorem readDecimal?_point {e : Int} (whole fraction rest : List Char) (hw : AllDigits whole)
    (hf : AllDigits fraction) (hne : whole ++ fraction ≠ []) (hrest : NoDigitFirst rest)
    (he : readExponent? rest = some e) :
    readDecimal? (whole ++ '.' :: (fraction ++ rest)) =
      some ⟨digitsValue (whole ++ fraction), e - fraction.length⟩ := by
  have hspan : (whole ++ '.' :: (fraction ++ rest)).span Char.isDigit =
      (whole, '.' :: (fraction ++ rest)) := span_digits hw (by rintro c ⟨⟩; rfl)
  simp only [readDecimal?, hspan, span_digits hf hrest, if_neg hne, he, Option.map_some]

/-! ### Exponents -/

/-- A digit is no sign. -/
theorem splitSign_of_isDigit {c : Char} (h : c.isDigit = true) (cs : List Char) :
    splitSign (c :: cs) = (false, c :: cs) := by
  unfold splitSign
  split
  case h_1 heq =>
    rw [(List.cons.inj heq).1] at h
    cases h
  case h_2 heq =>
    rw [(List.cons.inj heq).1] at h
    cases h
  case h_3 => rfl

theorem splitSign_toDigits (n : Nat) :
    splitSign (Nat.toDigits 10 n) = (false, Nat.toDigits 10 n) := by
  obtain ⟨c, cs, hcs⟩ := List.exists_cons_of_ne_nil (Nat.toDigits_ne_nil (b := 10) (n := n))
  have hc : c.isDigit = true := allDigits_toDigits n c (hcs ▸ List.mem_cons_self)
  rw [hcs, splitSign_of_isDigit hc]

/-- A written exponent reads back, with its sign. -/
theorem readExponent?_toString (e : Int) :
    readExponent? ('e' :: (toString e).toList) = some e := by
  rw [readExponent?, if_pos (.inl rfl), toList_toString]
  -- a minus is read as the sign, and a number that is not negative begins with a digit
  by_cases he : e < 0
  · have hneg : -(e.natAbs : Int) = e := by omega
    simp only [if_pos he, splitSign, readDigits?_toDigits, if_true]
    exact congrArg some hneg
  · have hpos : (e.natAbs : Int) = e := by omega
    simp only [if_neg he, splitSign_toDigits, readDigits?_toDigits, Bool.false_eq_true, if_false]
    exact congrArg some hpos

end Literal

/-! ### Written decimals -/

open Literal Binary64

namespace NumberStyle

variable (s : NumberStyle) {ds : List Char}

/-- A positional text stands for its digits with the point where it was put. -/
theorem exists_readDecimal?_writePositional (hd : AllDigits ds) (hne : ds ≠ []) (point : Int) :
    ∃ d, readDecimal? (s.writePositional ds point) = some d ∧
      d.rank = Decimal.rank ⟨digitsValue ds, point - ds.length⟩ := by
  unfold writePositional
  split
  case isTrue hwhole =>
    -- a whole number, with zeros after its digits
    have hall : AllDigits (ds ++ zeros (point.toNat - ds.length)) :=
      allDigits_append.mpr ⟨hd, allDigits_zeros _⟩
    have hexp : (0 : Int) + ((point.toNat - ds.length : Nat) : Int) = point - ds.length := by omega
    cases s.wholePoint with
    | false =>
      refine ⟨_, readDecimal?_whole [] hall (by simp [hne]) nofun nofun rfl, ?_⟩
      rw [digitsValue_append_zeros, Decimal.rank_mul_ten_pow, hexp]
    | true =>
      refine ⟨_, readDecimal?_point _ (zeros 1) [] hall (allDigits_zeros 1)
        (by simp [hne]) nofun rfl, ?_⟩
      have hone : (0 : Int) - ((zeros 1).length : Int) + (1 : Nat) = 0 := rfl
      rw [digitsValue_append_zeros, Decimal.rank_mul_ten_pow, hone, digitsValue_append_zeros,
        Decimal.rank_mul_ten_pow, hexp]
  case isFalse hlong =>
    split
    case isTrue hpos =>
      -- the point stands among the digits
      have hsplit : ds.take point.toNat ++ ds.drop point.toNat = ds := List.take_append_drop _ _
      have hall : AllDigits (ds.take point.toNat) ∧ AllDigits (ds.drop point.toNat) :=
        allDigits_append.mp (hsplit.symm ▸ hd)
      have hexp : (0 : Int) - ((ds.drop point.toNat).length : Int) = point - ds.length := by
        rw [List.length_drop]
        omega
      have hread := readDecimal?_point _ _ [] hall.1 hall.2 (by rwa [hsplit]) nofun rfl
      rw [List.append_nil, hsplit, hexp] at hread
      exact ⟨_, hread, rfl⟩
    case isFalse hneg =>
      -- zeros stand between the point and the digits
      have hall : AllDigits (zeros (-point).toNat ++ ds) :=
        allDigits_append.mpr ⟨allDigits_zeros _, hd⟩
      have hexp : (0 : Int) - ((zeros (-point).toNat ++ ds).length : Int) = point - ds.length := by
        rw [List.length_append, zeros, List.length_replicate]
        omega
      have hread := readDecimal?_point (zeros 1) _ [] (allDigits_zeros 1) hall
        (by simp [zeros]) nofun rfl
      rw [List.append_nil, digitsValue_zeros_append, digitsValue_zeros_append, hexp] at hread
      exact ⟨_, hread, rfl⟩

/-- A text with an exponent stands for its digits with the point after the first of them, moved by
the exponent. -/
theorem readDecimal?_writeScientific (hd : AllDigits ds) (hne : ds ≠ []) (point : Int) :
    readDecimal? (writeScientific ds point) = some ⟨digitsValue ds, point - ds.length⟩ := by
  have hrest : NoDigitFirst ('e' :: (toString (point - 1)).toList) := by rintro c ⟨⟩; rfl
  have hexp := readExponent?_toString (point - 1)
  obtain ⟨d, ds, rfl⟩ := List.exists_cons_of_ne_nil hne
  rcases ds with - | ⟨d', ds⟩
  · exact readDecimal?_whole _ hd hne hrest (by simp) hexp
  · have hread := readDecimal?_point [d] (d' :: ds) _
      (fun c hc => hd c (List.mem_append_left (d' :: ds) hc))
      (fun c hc => hd c (List.mem_cons_of_mem d hc)) (by simp) hrest hexp
    have hplaces : point - 1 - ((d' :: ds).length : Int) =
        point - ((d :: d' :: ds).length : Int) := by
      simp only [List.length_cons]
      omega
    rw [hplaces] at hread
    exact hread

/-- **The text of a decimal stands for a decimal of the same rank.** -/
theorem exists_readDecimal?_writeDecimal (d : Decimal) :
    ∃ d', readDecimal? (s.writeDecimal d) = some d' ∧ d'.rank = d.rank := by
  have hd := allDigits_toDigits d.digits
  have hne : Nat.toDigits 10 d.digits ≠ [] := Nat.toDigits_ne_nil
  have hvalue := digitsValue_toDigits d.digits
  unfold writeDecimal
  generalize Nat.toDigits 10 d.digits = ds at *
  have hplaces : (ds.length : Int) + d.exponent - ds.length = d.exponent := by omega
  have hpositional := s.exists_readDecimal?_writePositional hd hne (ds.length + d.exponent)
  have hscientific := readDecimal?_writeScientific hd hne (ds.length + d.exponent)
  rw [hvalue, hplaces] at hpositional hscientific
  rcases s.positional with - | ⟨first, last⟩
  · exact hpositional
  · dsimp only
    split
    · exact hpositional
    · exact ⟨d, hscientific, rfl⟩

end NumberStyle

/-! ### Written numbers -/

namespace Literal

/-- A digit has one case only. -/
theorem toLower_of_isDigit {c : Char} (h : c.isDigit = true) : c.toLower = c := by
  simp only [Char.isDigit, Bool.and_eq_true, decide_eq_true_eq] at h
  rw [Char.toLower, dif_neg]
  -- the capital letters come after the digits
  rintro ⟨hle, -⟩
  exact absurd (UInt32.le_trans hle h.2) (by decide)

/-- Nothing that begins with a digit is read as a word. -/
theorem ofList_toLower_ne {c : Char} (h : c.isDigit = true) (cs : List Char) {d : Char}
    (hd : d.isDigit = false) (ds : List Char) :
    String.ofList ((c :: cs).map Char.toLower) ≠ String.ofList (d :: ds) := by
  intro heq
  have hchars : c.toLower = d := (List.cons.inj (String.ofList_injective heq)).1
  rw [toLower_of_isDigit h] at hchars
  rw [hchars, hd] at h
  cases h

/-- A number may have a minus before it. -/
theorem readNumber?_signed (negative : Bool) {cs : List Char}
    (h : splitSign cs = (false, cs)) :
    readNumber? (if negative then '-' :: cs else cs) =
      let word := String.ofList (cs.map Char.toLower)
      if word = "inf" ∨ word = "infinity" then some (ofRank negative infinityRank)
      else if word = "nan" then some nan
      else (readDecimal? cs).map fun d => ofRank negative d.rank := by
  cases negative with
  | false =>
    rw [if_neg Bool.false_ne_true, readNumber?, h]
  | true => rfl

/-- What begins with a digit is read as a decimal. -/
theorem readNumber?_digits (negative : Bool) {c : Char} (hc : c.isDigit = true) (cs : List Char) :
    readNumber? (if negative then '-' :: c :: cs else c :: cs) =
      (readDecimal? (c :: cs)).map fun d => ofRank negative d.rank := by
  rw [readNumber?_signed negative (splitSign_of_isDigit hc cs)]
  have hinf : String.ofList ((c :: cs).map Char.toLower) ≠ "inf" :=
    ofList_toLower_ne hc cs rfl ['n', 'f']
  have hinfinity : String.ofList ((c :: cs).map Char.toLower) ≠ "infinity" :=
    ofList_toLower_ne hc cs rfl ['n', 'f', 'i', 'n', 'i', 't', 'y']
  have hnan : String.ofList ((c :: cs).map Char.toLower) ≠ "nan" :=
    ofList_toLower_ne hc cs rfl ['a', 'n']
  dsimp only
  rw [if_neg (not_or.mpr ⟨hinf, hinfinity⟩), if_neg hnan]

end Literal

namespace NumberStyle

variable (s : NumberStyle)

/-- A written decimal is read as the number of its rank, and of the sign before it. -/
theorem readNumber?_writeDecimal (negative : Bool) (d : Decimal) :
    readNumber? (if negative then '-' :: s.writeDecimal d else s.writeDecimal d) =
      some (ofRank negative d.rank) := by
  obtain ⟨c, cs, htext, hc⟩ := s.exists_digit_writeDecimal d
  obtain ⟨d', hread, hrank⟩ := s.exists_readDecimal?_writeDecimal d
  rw [htext] at hread ⊢
  rw [readNumber?_digits negative hc cs, hread, Option.map_some, hrank]

/-- **Every number reads back from its text**, whatever the style of the text is. -/
theorem readNumber?_writeChars (x : Float) : readNumber? (s.writeChars x) = some x := by
  have hx := ofRank_rank x
  rw [writeChars, writeRank]
  by_cases hnan : infinityRank < rank x
  · -- the NaN has no sign
    rw [if_pos hnan, eq_nan_of_infinityRank_lt hnan]
    rfl
  rw [if_neg hnan]
  by_cases hinf : rank x = infinityRank
  · -- the word for infinity, with the sign before it
    rw [if_pos hinf, readNumber?_signed (isNegative x) rfl]
    rw [hinf] at hx
    exact congrArg some hx
  rw [if_neg hinf]
  by_cases hzero : rank x = 0
  · rw [if_pos hzero, s.readNumber?_writeDecimal, Decimal.rank_zero_digits, ← hzero, hx]
  · -- the shortest decimal has the rank of the number by the way it was found
    have hfinite : rank x < infinityRank := by omega
    rw [if_neg hzero, s.readNumber?_writeDecimal, Decimal.rank_shortest hfinite, hx]

end NumberStyle
end ParametricPlan
