/-
ParametricPlan/Proofs/Formula/Dump.lean

The dump of a formula identifies it.

A formula that is spelled out in full is a readable dump: the names of its operators and functions
are words, and so are its numbers (`isWord_write`); names of constants are quoted, and no layout
has the name that references are written with.  Hence its one line tells the dump.  The dump tells
the formula in turn, since every number reads back from its digits and no two operators or
functions have one name (`dump_injective`).  Main result: formulas of one text are one formula,
whatever names they hold and whatever follows them (`dump_identifies`).
-/
import ParametricPlan.Proofs.Formula.Legible
import ParametricPlan.Proofs.Number.ReadBack
import ParametricPlan.Proofs.Number.Word
import ParametricPlan.Proofs.Text.Dump

namespace ParametricPlan

/-! ### Numbers -/

namespace NumberStyle

open Dump

variable (s : NumberStyle)

/-- What numbers are written with are characters of words, in every style. -/
theorem isWordChar_of_writes {c : Char} (h : s.Writes c) : isWordChar c = true := by
  cases h with
  | digit h => simp [isWordChar, Char.isAlphanum, h]
  | point => rfl
  | letter h => exact List.all_eq_true.mp rfl c h
  | exponent _ h => exact List.all_eq_true.mp rfl c h

/-- The text of a number is a word, with or without a sign and an exponent. -/
theorem isWord_write (x : Float) : IsWord (s.write x) := by
  have hlist : (s.write x).toList = s.writeChars x := String.toList_ofList
  refine ⟨fun hempty => s.writeChars_ne_nil x (by rw [← hlist, hempty]; rfl), fun c hc => ?_⟩
  rw [hlist] at hc
  rcases eq_minus_or_writes_of_mem_writeChars hc with rfl | h
  · rfl
  · exact s.isWordChar_of_writes h

/-- Numbers of one text are one number, since the text reads back. -/
theorem write_injective : Function.Injective s.write := by
  intro x y h
  have hchars : s.writeChars x = s.writeChars y := String.ofList_injective h
  have hread := s.readNumber?_writeChars x
  rw [hchars, s.readNumber?_writeChars] at hread
  exact (Option.some.inj hread).symm

end NumberStyle

/-! ### Names -/

theorem UnaryOp.name_injective : Function.Injective UnaryOp.name := by
  -- the names of all operators are listed without a repetition
  have hnodup : (all.map name).Nodup := by decide
  exact fun a b h => List.inj_on_of_nodup_map hnodup (by cases a <;> decide)
    (by cases b <;> decide) h

theorem BinaryOp.name_injective : Function.Injective BinaryOp.name := by
  have hnodup : (all.map name).Nodup := by decide
  exact fun a b h => List.inj_on_of_nodup_map hnodup (by cases a <;> decide)
    (by cases b <;> decide) h

theorem Func.dumpName_injective : Function.Injective Func.dumpName := by
  have hnodup : (all.map dumpName).Nodup := by decide
  exact fun a b h => List.inj_on_of_nodup_map hnodup (by cases a <;> decide)
    (by cases b <;> decide) h

namespace Value

open Dump

/-- A value in full is a readable dump. -/
theorem readable_dump (v : Value) : Readable v.dump := by
  cases v with
  | bool b =>
    have hword : IsWord (if b then "true" else "false") := by cases b <;> decide
    exact .tuple (by decide) (by decide) (List.forall_mem_singleton.mpr (.word (.word hword)))
  | number x =>
    have hx : Readable (.word (dumpStyle.write x)) := .word (.word (dumpStyle.isWord_write x))
    exact .tuple (by decide) (by decide) (List.forall_mem_singleton.mpr hx)
  | vector x y =>
    have hx : Readable (.labelled "x" (.word (dumpStyle.write x))) :=
      .labelledWord (by decide) (dumpStyle.isWord_write x)
    have hy : Readable (.labelled "y" (.word (dumpStyle.write y))) :=
      .labelledWord (by decide) (dumpStyle.isWord_write y)
    exact .record (by decide) (forall_readable_pair hx hy)

/-- The dump of a value tells the value. -/
theorem dump_injective : Function.Injective Value.dump := by
  intro v w h
  cases v with
  | bool a =>
    cases w with
    | bool b =>
      have htext : (if a then "true" else "false") = if b then "true" else "false" := by
        simpa [dump] using h
      revert htext
      cases a <;> cases b <;> decide
    | _ => simp [dump] at h
  | number x =>
    cases w with
    | number y =>
      have htext : dumpStyle.write x = dumpStyle.write y := by simpa [dump] using h
      rw [dumpStyle.write_injective htext]
    | _ => simp [dump] at h
  | vector x y =>
    cases w with
    | vector x' y' =>
      have htext : dumpStyle.write x = dumpStyle.write x' ∧
          dumpStyle.write y = dumpStyle.write y' := by simpa [dump] using h
      rw [dumpStyle.write_injective htext.1, dumpStyle.write_injective htext.2]
    | _ => simp [dump] at h

end Value

/-! ### References -/

/-- A reference is written in one word with its index. -/
theorem Ref.readable_dump (r : Ref) : Dump.Readable r.dump := by
  have hdigits : (toString r.index.toNat).toList = Nat.toDigits 10 r.index.toNat := by simp
  have hword : Dump.IsWord (toString r.index.toNat) := by
    refine ⟨fun hempty => ?_, fun c hc => ?_⟩
    · rw [hempty] at hdigits
      exact Nat.toDigits_ne_nil hdigits.symm
    · exact Value.dumpStyle.isWordChar_of_writes (NumberStyle.writes_of_mem_toDigits (hdigits ▸ hc))
  exact .word (.inner hword)

/-- The dump of a reference tells the reference. -/
theorem Ref.dump_injective : Function.Injective Ref.dump := by
  rintro ⟨i⟩ ⟨j⟩ h
  -- the index is written in decimal digits, which tell it
  have hindex : i.toNat = j.toNat := by simpa [dump, Nat.repr_inj] using h
  rw [UInt32.toNat_inj.mp hindex]

/-! ### Formulas -/

namespace Formula

open Dump

theorem dumpAll_eq_map (es : List Formula) : dumpAll es = es.map dump := by
  induction es with
  | nil => rfl
  | cons e es ih => rw [dumpAll, ih, List.map_cons]

/-- A formula in full is a readable dump. -/
theorem readable_dump (e : Formula) : Readable e.dump := by
  induction e with
  | constant v =>
    exact .tuple (by decide) (by decide) (List.forall_mem_singleton.mpr v.readable_dump)
  | named name v =>
    have hname : Readable (.labelled "name" (.word (Quoted.quote name))) :=
      .labelled (by decide) (.word (.quoted name))
    have hvalue : Readable (.labelled "value" v.dump) := .labelled (by decide) v.readable_dump
    exact .record (by decide) (forall_readable_pair hname hvalue)
  | reference r =>
    exact .tuple (by decide) (by decide) (List.forall_mem_singleton.mpr r.readable_dump)
  | unary op operand ih =>
    have hop : IsWord op.name := by cases op <;> decide
    have hlabelled : Readable (.labelled "op" (.word op.name)) := .labelledWord (by decide) hop
    have hoperand : Readable (.labelled "operand" operand.dump) := .labelled (by decide) ih
    exact .record (by decide) (forall_readable_pair hlabelled hoperand)
  | binary op left right ihl ihr =>
    have hop : IsWord op.name := by cases op <;> decide
    have hlabelled : Readable (.labelled "op" (.word op.name)) := .labelledWord (by decide) hop
    have hleft : Readable (.labelled "left" left.dump) := .labelled (by decide) ihl
    have hright : Readable (.labelled "right" right.dump) := .labelled (by decide) ihr
    exact .record (by decide)
      (List.forall_mem_cons.mpr ⟨hlabelled, forall_readable_pair hleft hright⟩)
  | call f args ih =>
    have hf : IsWord f.dumpName := by cases f <;> decide
    have hlabelled : Readable (.labelled "function" (.word f.dumpName)) :=
      .labelledWord (by decide) hf
    have hargs : Readable (.labelled "args" (.list (dumpAll args))) := by
      refine .labelled (by decide) (.list ?_)
      rw [dumpAll_eq_map]
      exact List.forall_mem_map.mpr ih
    exact .record (by decide) (forall_readable_pair hlabelled hargs)

/-- Every formula ends with a bracket of its own. -/
theorem isClosed_dump (e : Formula) : e.dump.isClosed = true := by
  cases e <;> rfl

/-- Arguments are told by their dumps, if each of them is. -/
theorem dumpAll_inj_of {es es' : List Formula}
    (h : ∀ e ∈ es, ∀ {e' : Formula}, e.dump = e'.dump → e = e') (heq : dumpAll es = dumpAll es') :
    es = es' := by
  induction es generalizing es' with
  | nil =>
    cases es' with
    | nil => rfl
    | cons e' es' => cases heq
  | cons e es ih =>
    cases es' with
    | nil => cases heq
    | cons e' es' =>
      rw [List.forall_mem_cons] at h
      obtain ⟨hhead, htail⟩ := List.cons.inj heq
      rw [h.1 hhead, ih h.2 htail]

/-- The dump of a formula tells the formula. -/
theorem dump_injective {a b : Formula} (h : a.dump = b.dump) : a = b := by
  -- dumps of two kinds of formulas have two names
  induction a generalizing b with
  | constant v =>
    cases b with
    | constant w =>
      have hvalue : v.dump = w.dump := by simpa [dump] using h
      rw [Value.dump_injective hvalue]
    | _ => simp [dump] at h
  | named name v =>
    cases b with
    | named name' w =>
      have hparts : Quoted.quote name = Quoted.quote name' ∧ v.dump = w.dump := by
        simpa [dump] using h
      rw [Quoted.quote_injective hparts.1, Value.dump_injective hparts.2]
    | _ => simp [dump] at h
  | reference r =>
    cases b with
    | reference r' =>
      have href : r.dump = r'.dump := by simpa [dump] using h
      rw [Ref.dump_injective href]
    | _ => simp [dump] at h
  | unary op operand ih =>
    cases b with
    | unary op' operand' =>
      have hparts : op.name = op'.name ∧ operand.dump = operand'.dump := by simpa [dump] using h
      rw [UnaryOp.name_injective hparts.1, ih hparts.2]
    | _ => simp [dump] at h
  | binary op left right ihl ihr =>
    cases b with
    | binary op' left' right' =>
      have hparts : op.name = op'.name ∧ left.dump = left'.dump ∧ right.dump = right'.dump := by
        simpa [dump] using h
      rw [BinaryOp.name_injective hparts.1, ihl hparts.2.1, ihr hparts.2.2]
    | _ => simp [dump] at h
  | call f args ih =>
    cases b with
    | call f' args' =>
      have hparts : f.dumpName = f'.dumpName ∧ dumpAll args = dumpAll args' := by
        simpa [dump] using h
      rw [Func.dumpName_injective hparts.1, dumpAll_inj_of ih hparts.2]
    | _ => simp [dump] at h

/-- No text begins with two formulas. -/
theorem eq_of_plain_append_eq {a b : Formula} {s t : String}
    (h : a.dump.plain ++ s = b.dump.plain ++ t) : a = b ∧ s = t := by
  obtain ⟨hdump, hrest⟩ := a.readable_dump.plain_append_inj b.readable_dump a.isClosed_dump
    b.isClosed_dump h
  exact ⟨dump_injective hdump, hrest⟩

/-- Formulas of one text are one formula. -/
theorem eq_of_plain_eq {a b : Formula} (h : a.dump.plain = b.dump.plain) : a = b :=
  (eq_of_plain_append_eq (congrArg (· ++ "") h)).1

/-- **The text of a formula identifies it.**

Two formulas of one text are one formula, and they still are if anything is written behind their
texts: whatever the names in a formula hold, they cannot be taken for what stands around them.  The
numbers in a formula are told to the last bit, the sign of a zero among them, and all NaNs are
one. -/
theorem dump_identifies (a b : Formula) :
    (a.dump.plain = b.dump.plain ↔ a = b) ∧
      (∀ s t : String, a.dump.plain ++ s = b.dump.plain ++ t ↔ a = b ∧ s = t) ∧
      ∀ x y : Float, (constant (.number x)).dump.plain = (constant (.number y)).dump.plain ↔
        x.toBits = y.toBits ∨ x.isNaN = true ∧ y.isNaN = true := by
  refine ⟨⟨eq_of_plain_eq, fun h => by rw [h]⟩, fun s t => ⟨eq_of_plain_append_eq, ?_⟩,
    fun x y => ⟨fun h => ?_, ?_⟩⟩
  · rintro ⟨rfl, rfl⟩
    rfl
  · -- equal texts are texts of equal numbers, and these have equal words
    have hnumber : x = y := by simpa using eq_of_plain_eq h
    exact .inl (by rw [hnumber])
  · rintro (hbits | ⟨hx, hy⟩)
    · rw [Binary64.eq_of_toBits_eq hbits]
    · rw [Binary64.eq_of_isNaN hx hy]

end Formula
end ParametricPlan
