/-
ParametricPlan/Proofs/Command/ReadBack.lean

Written options read back.

A binding is written as the text of its parameter, an `=`, and the text of its value.  The text of
a parameter has no `=`, so the first one is the one written there, and what stands on either side
of it is read by itself: the number of the parameter, over all 32 bits (`Ref.read?_text`), and the
value, which has to be a truth value or a finite number (`readValue?_text`).

Items write some options when their bindings are those of the options, in order and each in either
spelling, and when one of them ends the run at a fault just if the options do; how many do, and
where they stand, is free (`WrittenAs`).  `parse_written` is the main result.
-/
import ParametricPlan.Proofs.Command.Options
import ParametricPlan.Proofs.Number.ReadBack

namespace ParametricPlan

open Literal Binary64

/-! ### References -/

namespace Ref

theorem toList_text (r : Ref) : r.text.toList = 'R' :: Nat.toDigits 10 r.index.toNat := by
  rw [text, String.toList_append, Nat.toString_eq_repr, Nat.toList_repr]
  rfl

/-- The number of a reference is read back from its digits, as it fits into 32 bits. -/
theorem readIndex?_toDigits (index : UInt32) :
    readIndex? (Nat.toDigits 10 index.toNat) = some index := by
  have hlt : index.toNat < UInt32.size := index.toNat_lt
  unfold readIndex?
  split
  case h_1 ds hplus =>
    -- a plus is no digit
    have hdigit : '+'.isDigit = true :=
      allDigits_toDigits index.toNat '+' (hplus ▸ List.mem_cons_self)
    cases hdigit
  case h_2 =>
    dsimp only
    rw [readDigits?_toDigits]
    dsimp only
    rw [if_pos hlt, UInt32.ofNat_toNat]

/-- A reference is read back from its text. -/
theorem read?_text (r : Ref) : read? r.text.toList = some r := by
  rw [toList_text, read?, readIndex?_toDigits, Option.map_some]

theorem eq_notMem_toList_text (r : Ref) : '=' ∉ r.text.toList := by
  rw [toList_text, List.mem_cons, not_or]
  refine ⟨by decide, fun hmem => ?_⟩
  have hdigit : '='.isDigit = true := allDigits_toDigits r.index.toNat '=' hmem
  cases hdigit

end Ref

/-! ### Values -/

/-- A parameter can be set to a truth value or to a finite number. -/
def Value.Settable : Value → Prop
  | bool _ => True
  | number x => x.isFinite = true
  | vector _ _ => False

namespace RunOptions

/-- A text that is read as a number is no truth value. -/
theorem readValue?_of_readNumber? {cs : List Char} {x : Float} (hread : readNumber? cs = some x)
    (hfinite : x.isFinite = true) : readValue? cs = some (.number x) := by
  have htrue : cs ≠ "true".toList := by
    rintro rfl
    cases hread
  have hfalse : cs ≠ "false".toList := by
    rintro rfl
    cases hread
  rw [readValue?, if_neg htrue, if_neg hfalse, hread]
  dsimp only
  rw [if_pos hfinite]

/-- A value to which a parameter can be set is read back from its text, to the last bit. -/
theorem readValue?_text {v : Value} (h : v.Settable) : readValue? v.text.toList = some v := by
  cases v with
  | bool b => cases b <;> rfl
  | number x =>
    have htext : (Value.number x).text.toList = Value.numberStyle.writeChars x :=
      String.toList_ofList
    rw [htext]
    exact readValue?_of_readNumber? (Value.numberStyle.readNumber?_writeChars x) h
  | vector x y => exact h.elim

/-! ### Bindings -/

/-- A binding as it is written. -/
def bindingText (binding : Ref × Value) : String :=
  binding.1.text ++ "=" ++ binding.2.text

/-- The text is split at the first `=`, and so after a name without one. -/
theorem splitBinding?_append {name : List Char} (h : '=' ∉ name) (value : List Char) :
    splitBinding? (name ++ '=' :: value) = some (name, value) := by
  induction name with
  | nil => rfl
  | cons c name ih =>
    obtain ⟨hc, hname⟩ := not_or.mp (mt List.mem_cons.mpr h)
    rw [List.cons_append, splitBinding?.eq_3 _ _ fun heq => hc heq.symm, ih hname]
    rfl

/-- A binding is read back from its text. -/
theorem parseBinding_bindingText {binding : Ref × Value} (h : binding.2.Settable) :
    parseBinding (bindingText binding) = .ok binding := by
  obtain ⟨r, v⟩ := binding
  have hchars : (bindingText (r, v)).toList = r.text.toList ++ '=' :: v.text.toList := by
    simp [bindingText]
  rw [parseBinding, hchars, splitBinding?_append r.eq_notMem_toList_text]
  dsimp only
  rw [r.read?_text, readValue?_text h]

/-! ### Options -/

/-- The text of a binding. -/
def Item.text? : Item → Option String
  | set text | setInline text => some text
  | haltOnFault => none

/-- The bindings of the items are those of the options, in order, and an item ends the run at a
fault just if the options do. -/
structure WrittenAs (o : RunOptions) (items : List Item) : Prop where
  bindings : items.filterMap Item.text? = o.bindings.map bindingText
  halt : .haltOnFault ∈ items ↔ o.policy = .halt

theorem read_of_text? {item : Item} {binding : Ref × Value}
    (h : item.text? = some (bindingText binding)) (hset : binding.2.Settable) :
    item.read = .ok ⟨[binding], .proceed⟩ := by
  have hread : (parseBinding (bindingText binding)).map (fun binding => ⟨[binding], .proceed⟩) =
      (.ok ⟨[binding], .proceed⟩ : Except UsageError RunOptions) := by
    rw [parseBinding_bindingText hset]
    rfl
  cases item with
  | set text | setInline text =>
    obtain rfl := Option.some.inj h
    exact hread
  | haltOnFault => cases h

theorem append_policy_eq_halt_iff {o o' : RunOptions} :
    (o.append o').policy = .halt ↔ o.policy = .halt ∨ o'.policy = .halt := by
  by_cases h : o.policy = .halt ∨ o'.policy = .halt <;> simp [append, h]

/-- Items are read back one by one; a binding is put before those of the rest, and the policy is
`halt` just if an item says so. -/
theorem parse_words_of_text? {items : List Item} {bindings : List (Ref × Value)}
    (htext : items.filterMap Item.text? = bindings.map bindingText)
    (hset : ∀ binding ∈ bindings, binding.2.Settable) :
    ∃ o, parse (items.flatMap Item.words) = .ok o ∧ o.bindings = bindings ∧
      (o.policy = .halt ↔ .haltOnFault ∈ items) := by
  induction items generalizing bindings with
  | nil =>
    obtain rfl : bindings = [] := List.map_eq_nil_iff.mp htext.symm
    exact ⟨default, rfl, rfl, by simp [default]⟩
  | cons item items ih =>
    rw [List.flatMap_cons]
    cases hitem : item.text? with
    | none =>
      -- the item writes no binding, and ends the run at a fault
      obtain rfl : item = .haltOnFault := by
        cases item with
        | set text | setInline text => cases hitem
        | haltOnFault => rfl
      rw [List.filterMap_cons_none hitem] at htext
      obtain ⟨o, hrest, hbindings, -⟩ := ih htext hset
      refine ⟨append ⟨[], .halt⟩ o, ?_, hbindings, ?_⟩
      · rw [parse_item_of_ok rfl, hrest]
        rfl
      · simp [append_policy_eq_halt_iff]
    | some text =>
      rw [List.filterMap_cons_some hitem] at htext
      obtain ⟨binding, bindings, rfl, rfl, hrestText⟩ := List.map_eq_cons_iff.mp htext.symm
      obtain ⟨hbinding, hothers⟩ := List.forall_mem_cons.mp hset
      obtain ⟨o, hrest, hbindings, hpolicy⟩ := ih hrestText.symm hothers
      refine ⟨append ⟨[binding], .proceed⟩ o, ?_, congrArg (binding :: ·) hbindings, ?_⟩
      · rw [parse_item_of_ok (read_of_text? hitem hbinding), hrest]
        rfl
      · have hne : Item.haltOnFault ≠ item := by
          rintro rfl
          cases hitem
        simp [append_policy_eq_halt_iff, hpolicy, hne]

/-- **Options read back from the words that write them.**

Parameters may have any number of 32 bits, and a parameter may be set again.  Every binding is in
one of its two spellings, and the options that end the run at a fault stand anywhere between the
bindings.  The words are read as the same bindings in the same order, each value the same to the
last bit, and as the same policy. -/
theorem parse_written (o : RunOptions) (hset : ∀ binding ∈ o.bindings, binding.2.Settable)
    (items : List Item) (h : o.WrittenAs items) :
    parse (items.flatMap Item.words) = .ok o := by
  obtain ⟨o', hparse, hbindings, hpolicy⟩ := parse_words_of_text? h.bindings hset
  have heq : o' = o := by
    obtain ⟨bindings, policy⟩ := o
    obtain ⟨bindings', policy'⟩ := o'
    obtain rfl : bindings' = bindings := hbindings
    have hhalt : policy' = .halt ↔ policy = .halt := hpolicy.trans h.halt
    refine congrArg (RunOptions.mk bindings') ?_
    cases policy <;> cases policy' <;> simp at hhalt <;> rfl
  rw [hparse, heq]

/-- A negative zero for the last of all parameters, which is set again, with the option to end the
run at a fault before and between the bindings. -/
theorem parse_written_negative_zero :
    let o : RunOptions :=
      ⟨[(⟨4294967295⟩, .number (-0.0)), (⟨0⟩, .bool true), (⟨4294967295⟩, .number 0.5)], .halt⟩
    parse ["--halt-on-fault", "--set", "R4294967295=-0", "--set=R0=true", "--halt-on-fault",
      "--set=R4294967295=0.5"] = .ok o := by
  intro o
  have hfinite : (-0.0 : Float).isFinite = true ∧ (0.5 : Float).isFinite = true := by decide
  refine parse_written o ?_
    [.haltOnFault, .set "R4294967295=-0", .setInline "R0=true", .haltOnFault,
      .setInline "R4294967295=0.5"] ⟨?_, by simp [o]⟩
  · simp [o, Value.Settable, hfinite]
  · decide +kernel

end RunOptions
end ParametricPlan
