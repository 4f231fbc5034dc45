/-
ParametricPlan/Proofs/Command/BindingGrammar.lean

What the text of a binding reads as.

A text is cut at its first `=` (`CutAt`).  What stands before it has to name a reference: an `R`,
perhaps a plus, and digits, whose number has to fit into 32 bits (`Ref.NamedBy`).  What stands after
it has to give a value: one of the two truth values, or a finite number (`Value.GivenBy`).  For each
of these there is a reader, and it accepts just the texts in question
(`splitBinding?_eq_none_iff`, `Ref.read?_eq_some_iff`, `readValue?_eq_some_iff`).

So there are four things that a text can read as, and each text reads as one of them (`Reads`).
The name is looked at before the value, and neither is looked at if there is no `=`.
`parseBinding_eq_iff_reads` is the main result.
-/
import ParametricPlan.Proofs.Command.ReadBack

namespace ParametricPlan

open Literal

/-! ### Digits -/

/-- Digits are read as the number that they write, and nothing else is read as digits. -/
theorem Literal.readDigits?_eq_some_iff {cs : List Char} {n : Nat} :
    readDigits? cs = some n ↔ cs ≠ [] ∧ AllDigits cs ∧ Nat.ofDigitChars 10 cs 0 = n := by
  have hall : cs.all Char.isDigit = true ↔ AllDigits cs := List.all_eq_true
  rw [readDigits?, ← digitsValue_eq_ofDigitChars]
  split
  case isTrue h =>
    rw [Option.some.injEq]
    exact ⟨fun hn => ⟨h.1, hall.mp h.2, hn⟩, fun hn => hn.2.2⟩
  case isFalse h => exact ⟨fun hn => absurd hn (Option.some_ne_none n).symm,
    fun hn => absurd ⟨hn.1, hall.mpr hn.2.1⟩ h⟩

/-! ### References -/

namespace Ref

/-- A text that names a reference: an `R`, perhaps a plus, and digits that give its number. -/
def NamedBy (r : Ref) (name : String) : Prop :=
  ∃ plus ∈ ["", "+"], ∃ digits : List Char, digits ≠ [] ∧ AllDigits digits ∧
    Nat.ofDigitChars 10 digits 0 = r.index.toNat ∧ name = "R" ++ plus ++ String.ofList digits

/-- The digits of a number, after the plus that it may have. -/
def unsigned : List Char → List Char
  | '+' :: ds => ds
  | ds => ds

/-- A number is read if it fits into 32 bits, after a plus or without one. -/
theorem readIndex?_eq_some_iff {cs : List Char} {index : UInt32} :
    readIndex? cs = some index ↔ readDigits? (unsigned cs) = some index.toNat := by
  have hlt : index.toNat < UInt32.size := index.toNat_lt
  simp only [readIndex?]
  generalize hread : readDigits? _ = digits
  have hdigits : readDigits? (unsigned cs) = digits := hread
  rw [hdigits]
  cases digits with
  | none => simp
  | some n =>
    dsimp only
    rw [Option.some.injEq]
    constructor
    · intro h
      split at h
      case isTrue hn =>
        obtain rfl := Option.some.inj h
        exact (UInt32.toNat_ofNat_of_lt hn).symm
      case isFalse => cases h
    · rintro rfl
      rw [if_pos hlt, UInt32.ofNat_toNat]

/-- Digits do not begin with a plus. -/
theorem unsigned_of_allDigits {ds : List Char} (h : AllDigits ds) : unsigned ds = ds := by
  unfold unsigned
  split
  · have hplus : '+'.isDigit = true := h '+' List.mem_cons_self
    cases hplus
  · rfl

theorem eq_append_unsigned (cs : List Char) :
    ∃ plus ∈ ["", "+"], cs = plus.toList ++ unsigned cs := by
  unfold unsigned
  split
  · exact ⟨"+", by simp, rfl⟩
  · exact ⟨"", by simp, rfl⟩

/-- **References are read from the texts that name them**, and from no others. -/
theorem read?_eq_some_iff {name : String} {r : Ref} :
    read? name.toList = some r ↔ r.NamedBy name := by
  constructor
  · intro h
    unfold read? at h
    split at h
    case h_1 cs hname =>
      obtain ⟨index, hindex, rfl⟩ := Option.map_eq_some_iff.mp h
      obtain ⟨hne, hdigits, hvalue⟩ := readDigits?_eq_some_iff.mp (readIndex?_eq_some_iff.mp hindex)
      obtain ⟨plus, hplus, hcs⟩ := eq_append_unsigned cs
      have hchars : ("R" ++ plus ++ String.ofList (unsigned cs)).toList =
          'R' :: (plus.toList ++ unsigned cs) := by simp
      refine ⟨plus, hplus, unsigned cs, hne, hdigits, hvalue, String.toList_inj.mp ?_⟩
      rw [hname, hchars, ← hcs]
    case h_2 => cases h
  · rintro ⟨plus, hplus, digits, hne, hdigits, hvalue, rfl⟩
    have hchars : ("R" ++ plus ++ String.ofList digits).toList =
        'R' :: (plus.toList ++ digits) := by simp
    have hunsigned : unsigned (plus.toList ++ digits) = digits := by
      simp only [List.mem_cons, List.not_mem_nil, or_false] at hplus
      rcases hplus with rfl | rfl
      · exact unsigned_of_allDigits hdigits
      · rfl
    have hread : readIndex? (plus.toList ++ digits) = some r.index := by
      rw [readIndex?_eq_some_iff, hunsigned, readDigits?_eq_some_iff]
      exact ⟨hne, hdigits, hvalue⟩
    rw [hchars, read?, hread]
    rfl

end Ref

/-! ### Values -/

/-- A text that gives a value: a truth value by its name, or a number that is finite. -/
inductive Value.GivenBy : Value → String → Prop
  | yes : GivenBy (.bool true) "true"
  | no : GivenBy (.bool false) "false"
  | number {text : String} {x : Float} (read : readNumber? text.toList = some x)
      (finite : x.isFinite = true) : GivenBy (.number x) text

namespace RunOptions

/-- **Values are read from the texts that give them**, and from no others. -/
theorem readValue?_eq_some_iff {text : String} {v : Value} :
    readValue? text.toList = some v ↔ v.GivenBy text := by
  constructor
  · intro h
    unfold readValue? at h
    split at h
    case isTrue htext =>
      obtain rfl := String.toList_inj.mp htext
      obtain rfl := Option.some.inj h
      exact .yes
    case isFalse =>
      split at h
      case isTrue htext =>
        obtain rfl := String.toList_inj.mp htext
        obtain rfl := Option.some.inj h
        exact .no
      case isFalse =>
        split at h
        case h_1 x hread =>
          split at h
          case isTrue hfinite =>
            obtain rfl := Option.some.inj h
            exact .number hread hfinite
          case isFalse => cases h
        case h_2 => cases h
  · rintro (- | - | ⟨hread, hfinite⟩)
    · rfl
    · rfl
    · exact readValue?_of_readNumber? hread hfinite

/-! ### The first `=` -/

/-- A text is cut at its first `=`. -/
structure CutAt (text name value : String) : Prop where
  whole : text = name ++ "=" ++ value
  first : '=' ∉ name.toList

/-- Only a text without `=` is not split. -/
theorem splitBinding?_eq_none_iff {cs : List Char} : splitBinding? cs = none ↔ '=' ∉ cs := by
  fun_induction splitBinding? cs with
  | case1 => simp
  | case2 => simp
  | case3 c cs hc ih =>
    have hne : '=' ≠ c := fun h => hc h.symm
    rw [Option.map_eq_none_iff, ih, List.mem_cons, not_or]
    exact (and_iff_right hne).symm

/-- A text is split at an `=`, and there is none before it. -/
theorem eq_append_of_splitBinding? {cs name value : List Char}
    (h : splitBinding? cs = some (name, value)) : cs = name ++ '=' :: value ∧ '=' ∉ name := by
  fun_induction splitBinding? cs generalizing name value with
  | case1 => cases h
  | case2 =>
    cases h
    exact ⟨rfl, List.not_mem_nil⟩
  | case3 c cs hc ih =>
    obtain ⟨⟨name', value'⟩, hsplit, heq⟩ := Option.map_eq_some_iff.mp h
    cases heq
    obtain ⟨rfl, hname⟩ := ih hsplit
    exact ⟨rfl, mt List.mem_cons.mp (not_or.mpr ⟨fun h => hc h.symm, hname⟩)⟩

theorem CutAt.splitBinding? {text name value : String} (h : CutAt text name value) :
    RunOptions.splitBinding? text.toList = some (name.toList, value.toList) := by
  have hchars : text.toList = name.toList ++ '=' :: value.toList := by simp [h.whole]
  rw [hchars, splitBinding?_append h.first]

theorem exists_cutAt {text : String} (h : '=' ∈ text.toList) :
    ∃ name value, CutAt text name value := by
  rcases hsplit : RunOptions.splitBinding? text.toList with - | ⟨name, value⟩
  · -- not split at all, although there is an `=`
    exact absurd h (splitBinding?_eq_none_iff.mp hsplit)
  · obtain ⟨hwhole, hfirst⟩ := eq_append_of_splitBinding? hsplit
    refine ⟨String.ofList name, String.ofList value, String.toList_inj.mp ?_, ?_⟩
    · simp [hwhole]
    · rwa [String.toList_ofList]

/-! ### Bindings -/

/-- What a text reads as, by what stands on both sides of its first `=`. -/
inductive Reads (text : String) : Except UsageError (Ref × Value) → Prop
  | binding {name value : String} {r : Ref} {v : Value} (cut : CutAt text name value)
      (named : r.NamedBy name) (given : v.GivenBy value) : Reads text (.ok (r, v))
  | malformed (whole : '=' ∉ text.toList) : Reads text (.error (.malformedBinding text))
  | invalidReference {name value : String} (cut : CutAt text name value)
      (unnamed : ∀ r : Ref, ¬ r.NamedBy name) : Reads text (.error (.invalidReference name))
  | invalidValue {name value : String} {r : Ref} (cut : CutAt text name value)
      (named : r.NamedBy name) (none : ∀ v : Value, ¬ v.GivenBy value) :
      Reads text (.error (.invalidValue value))

/-- What a text reads as is what the parser makes of it. -/
theorem Reads.parseBinding_eq {text : String} {result : Except UsageError (Ref × Value)}
    (h : Reads text result) : parseBinding text = result := by
  cases h with
  | binding cut named given =>
    rw [parseBinding, cut.splitBinding?]
    dsimp only
    rw [Ref.read?_eq_some_iff.mpr named]
    dsimp only
    rw [readValue?_eq_some_iff.mpr given]
  | malformed whole => rw [parseBinding, splitBinding?_eq_none_iff.mpr whole]
  | invalidReference cut unnamed =>
    rw [parseBinding, cut.splitBinding?]
    dsimp only
    -- the name is looked at first, and the value no more
    rw [Option.eq_none_iff_forall_ne_some.mpr fun r h => unnamed r (Ref.read?_eq_some_iff.mp h),
      String.ofList_toList]
  | invalidValue cut named none =>
    rw [parseBinding, cut.splitBinding?]
    dsimp only
    rw [Ref.read?_eq_some_iff.mpr named]
    dsimp only
    rw [Option.eq_none_iff_forall_ne_some.mpr fun v h => none v (readValue?_eq_some_iff.mp h),
      String.ofList_toList]

/-- Every text reads as something. -/
theorem exists_reads (text : String) : ∃ result, Reads text result := by
  by_cases hcut : '=' ∈ text.toList
  · obtain ⟨name, value, cut⟩ := exists_cutAt hcut
    by_cases hname : ∃ r : Ref, r.NamedBy name
    · obtain ⟨r, named⟩ := hname
      by_cases hvalue : ∃ v : Value, v.GivenBy value
      · obtain ⟨v, given⟩ := hvalue
        exact ⟨_, .binding cut named given⟩
      · exact ⟨_, .invalidValue cut named (not_exists.mp hvalue)⟩
    · exact ⟨_, .invalidReference cut (not_exists.mp hname)⟩
  · exact ⟨_, .malformed hcut⟩

/-- A number that is not finite gives no value. -/
theorem not_givenBy_of_not_finite {text : String} {x : Float}
    (hread : readNumber? text.toList = some x) (hx : x.isFinite = false) (v : Value) :
    ¬ v.GivenBy text := by
  rintro (- | - | ⟨hread', hfinite⟩)
  · cases hread
  · cases hread
  · obtain rfl := Option.some.inj (hread.symm.trans hread')
    exact Bool.false_ne_true (hx.symm.trans hfinite)

/-- **Every text reads as a binding or as the error that it deserves.**  A text without `=` is no
binding.  Otherwise it is cut at the first `=`; if the part before it names no reference, then this
part is the error, whatever the part after it is, and if it names one and the part after it gives no
value, then the part after it is the error.  Else the text is a binding of that reference to that
value.  A number that is not finite is an error of the value, be it written as an infinity or a NaN
or too large to be finite. -/
theorem parseBinding_eq_iff_reads (text : String) :
    (∀ result, parseBinding text = result ↔ Reads text result) ∧
    ∀ (name value : String) (r : Ref) (x : Float), CutAt text name value → r.NamedBy name →
      readNumber? value.toList = some x → x.isFinite = false →
      parseBinding text = .error (.invalidValue value) := by
  constructor
  · intro result
    refine ⟨?_, Reads.parseBinding_eq⟩
    rintro rfl
    obtain ⟨result, hreads⟩ := exists_reads text
    exact hreads.parseBinding_eq ▸ hreads
  · intro name value r x cut named hread hx
    exact (Reads.invalidValue cut named (not_givenBy_of_not_finite hread hx)).parseBinding_eq

/-- A plus and zeros before the number of the reference, and a value that is too large to be finite
or has a second `=` in it. -/
theorem parseBinding_eq_iff_reads_overflow :
    CutAt "R+007=-1e400" "R+007" "-1e400" ∧ (⟨7⟩ : Ref).NamedBy "R+007" ∧
      readNumber? "-1e400".toList = some (Binary64.ofRank true Binary64.infinityRank) ∧
      (Binary64.ofRank true Binary64.infinityRank).isFinite = false ∧
      parseBinding "R+007=-1e400" = .error (.invalidValue "-1e400") ∧
      Reads "R4294967295=-0" (.ok (⟨4294967295⟩, .number (-0.0))) ∧
      Reads "R4294967296==" (.error (.invalidReference "R4294967296")) := by
  have cut : CutAt "R+007=-1e400" "R+007" "-1e400" := ⟨rfl, by decide⟩
  have named : (⟨7⟩ : Ref).NamedBy "R+007" :=
    ⟨"+", by simp, ['0', '0', '7'], nofun, by simp [AllDigits], rfl, rfl⟩
  have hread : readNumber? "-1e400".toList =
      some (Binary64.ofRank true Binary64.infinityRank) := by decide +kernel
  have hx : (Binary64.ofRank true Binary64.infinityRank).isFinite = false := by decide +kernel
  refine ⟨cut, named, hread, hx, (parseBinding_eq_iff_reads _).2 _ _ _ _ cut named hread hx, ?_, ?_⟩
  · exact ((parseBinding_eq_iff_reads _).1 _).mp (by decide +kernel)
  · exact ((parseBinding_eq_iff_reads _).1 _).mp (by decide +kernel)

end RunOptions
end ParametricPlan
