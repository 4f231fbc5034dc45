/-
ParametricPlan/Proofs/Formula/Equality.lean

Equal formulas are the same, part by part.

Two formulas are the same (`Same`) when they are built in the same way, and the values at their
leaves are of one kind with equal numbers in them (`Value.Same`).  A NaN is equal to nothing, so a
formula that has one is not even the same as itself, and the two zeros are equal, so formulas that
are the same may still differ in their texts.

`agree` works off a list of pairs.  All of them are the same just if the first is, in its outermost
node, and the pairs of its parts and the rest are; so every step of it keeps the answer
(`agree_iff`).  What else is to be said of equality is said of `Same`, by induction on formulas.
`equal_iff_same` is the main result.
-/
import ParametricPlan.Formula.Copy
import ParametricPlan.Formula.Equality
import ParametricPlan.Proofs.Formula.References
import ParametricPlan.Proofs.Formula.Visits
import ParametricPlan.Proofs.Number.Word

namespace ParametricPlan

/-! ### Values -/

namespace Value

/-- Numbers that are equal: neither is a NaN, and they are one number, or the two zeros. -/
def EqualNumbers (x y : Float) : Prop :=
  x.isNaN = false ∧ y.isNaN = false ∧ (x = y ∨ x = 0 ∧ y = -0 ∨ x = -0 ∧ y = 0)

/-- Values of one kind whose parts are equal. -/
inductive Same : Value → Value → Prop where
  | bool (b : Bool) : Same (bool b) (bool b)
  | number {x y : Float} (h : EqualNumbers x y) : Same (number x) (number y)
  | vector {x y x' y' : Float} (hx : EqualNumbers x x') (hy : EqualNumbers y y') :
    Same (vector x y) (vector x' y')

/-- There is a NaN in a value. -/
def HasNaN : Value → Prop
  | bool _ => False
  | number x => x.isNaN = true
  | vector x y => x.isNaN = true ∨ y.isNaN = true

/-- Equality of numbers in the sense of the machine. -/
theorem beq_iff_equalNumbers {x y : Float} : (x == y) = true ↔ EqualNumbers x y :=
  Binary64.beq_iff_eq_or_zeros

theorem EqualNumbers.symm {x y : Float} (h : EqualNumbers x y) : EqualNumbers y x :=
  beq_iff_equalNumbers.mp (BEq.symm (beq_iff_equalNumbers.mpr h))

theorem EqualNumbers.trans {x y z : Float} (h : EqualNumbers x y) (h' : EqualNumbers y z) :
    EqualNumbers x z :=
  beq_iff_equalNumbers.mp (BEq.trans (beq_iff_equalNumbers.mpr h) (beq_iff_equalNumbers.mpr h'))

/-- A number is equal to itself unless it is a NaN. -/
theorem equalNumbers_self_iff {x : Float} : EqualNumbers x x ↔ ¬ x.isNaN = true := by
  rw [Bool.not_eq_true]
  exact ⟨fun h => h.1, fun h => ⟨h, h, .inl rfl⟩⟩

/-- Values are compared by their kinds and their parts. -/
theorem beq_iff_same {v w : Value} : (v == w) = true ↔ v.Same w := by
  show equal v w = true ↔ _
  constructor
  · intro h
    cases v <;> cases w
    case bool.bool a b => exact beq_iff_eq.mp h ▸ .bool a
    case number.number x y => exact .number (beq_iff_equalNumbers.mp h)
    case vector.vector x y x' y' =>
      obtain ⟨hx, hy⟩ := Bool.and_eq_true_iff.mp h
      exact .vector (beq_iff_equalNumbers.mp hx) (beq_iff_equalNumbers.mp hy)
    -- values of two kinds are never equal
    all_goals cases h
  · rintro (b | h | ⟨hx, hy⟩)
    · exact beq_self_eq_true b
    · exact beq_iff_equalNumbers.mpr h
    · exact Bool.and_eq_true_iff.mpr ⟨beq_iff_equalNumbers.mpr hx, beq_iff_equalNumbers.mpr hy⟩

/-- Values that are the same are so in either order. -/
theorem Same.symm {v w : Value} (h : v.Same w) : w.Same v := by
  rcases h with b | h | ⟨hx, hy⟩
  · exact .bool b
  · exact .number h.symm
  · exact .vector hx.symm hy.symm

/-- Values that are the same as a third one are the same. -/
theorem Same.trans {u v w : Value} (h : u.Same v) (h' : v.Same w) : u.Same w := by
  rcases h with b | h | ⟨hx, hy⟩
  · exact h'
  · -- the value in the middle is a number, and so is the other one
    obtain - | h' := h'
    exact .number (h.trans h')
  · obtain - | - | ⟨hx', hy'⟩ := h'
    exact .vector (hx.trans hx') (hy.trans hy')

/-- A value is the same as itself unless it has a NaN. -/
theorem same_self_iff {v : Value} : v.Same v ↔ ¬ v.HasNaN := by
  constructor
  · rintro (b | h | ⟨hx, hy⟩)
    · exact id
    · exact equalNumbers_self_iff.mp h
    · exact not_or.mpr ⟨equalNumbers_self_iff.mp hx, equalNumbers_self_iff.mp hy⟩
  · intro h
    cases v with
    | bool b => exact .bool b
    | number x => exact .number (equalNumbers_self_iff.mpr h)
    | vector x y =>
      obtain ⟨hx, hy⟩ := not_or.mp h
      exact .vector (equalNumbers_self_iff.mpr hx) (equalNumbers_self_iff.mpr hy)

end Value

/-! ### Formulas -/

namespace Formula

/-- Formulas that are built in the same way, with values at their leaves that are the same. -/
inductive Same : Formula → Formula → Prop where
  | constant {v w : Value} (h : v.Same w) : Same (constant v) (constant w)
  | named {name : String} {v w : Value} (h : v.Same w) : Same (named name v) (named name w)
  | reference (r : Ref) : Same (reference r) (reference r)
  | unary {op : UnaryOp} {a b : Formula} (h : Same a b) : Same (unary op a) (unary op b)
  | binary {op : BinaryOp} {a b a' b' : Formula} (hleft : Same a a') (hright : Same b b') :
    Same (binary op a b) (binary op a' b')
  | call {f : Func} {args args' : List Formula} (h : List.Forall₂ Same args args') :
    Same (call f args) (call f args')

/-- Constants are the same just if their values are. Each of the six lemmas here reads
one kind of formula backwards, for the steps of `agree`. -/
theorem same_constant_iff {v w : Value} : Same (constant v) (constant w) ↔ v.Same w := by
  constructor
  · rintro ⟨h⟩
    exact h
  · exact .constant

theorem same_named_iff {n n' : String} {v w : Value} :
    Same (named n v) (named n' w) ↔ n = n' ∧ v.Same w := by
  constructor
  · intro h
    cases h with
    | named h => exact ⟨rfl, h⟩
  · rintro ⟨rfl, h⟩
    exact .named h

theorem same_reference_iff {r r' : Ref} : Same (reference r) (reference r') ↔ r = r' := by
  constructor
  · intro h
    cases h with
    | reference => rfl
  · rintro rfl
    exact .reference r

theorem same_unary_iff {op op' : UnaryOp} {a b : Formula} :
    Same (unary op a) (unary op' b) ↔ op = op' ∧ Same a b := by
  constructor
  · intro h
    cases h with
    | unary h => exact ⟨rfl, h⟩
  · rintro ⟨rfl, h⟩
    exact .unary h

theorem same_binary_iff {op op' : BinaryOp} {a b a' b' : Formula} :
    Same (binary op a b) (binary op' a' b') ↔ op = op' ∧ Same a a' ∧ Same b b' := by
  constructor
  · intro h
    cases h with
    | binary hleft hright => exact ⟨rfl, hleft, hright⟩
  · rintro ⟨rfl, hleft, hright⟩
    exact .binary hleft hright

/-- Calls are the same just if they are of one function, and their arguments are the same one by
one. -/
theorem same_call_iff {f f' : Func} {args args' : List Formula} :
    Same (call f args) (call f' args') ↔ f = f' ∧ List.Forall₂ Same args args' := by
  constructor
  · intro h
    cases h with
    | call h => exact ⟨rfl, h⟩
  · rintro ⟨rfl, h⟩
    exact .call h

/-! ### Pairs -/

/-- The pairs agree just if the formulas of each are the same. -/
theorem agree_iff (pairs : List (Formula × Formula)) :
    agree pairs = true ↔ ∀ p ∈ pairs, Same p.1 p.2 := by
  -- by the steps of `agree`: the pairs of the parts come before the rest
  induction pairs using agree.induct with
  | case1 => simp [agree]
  | case2 v v' pairs ih =>
    rw [agree, Bool.and_eq_true, ih, Value.beq_iff_same, List.forall_mem_cons,
      same_constant_iff]
  | case3 n v n' v' pairs ih =>
    rw [agree, Bool.and_eq_true, Bool.and_eq_true, ih, beq_iff_eq, Value.beq_iff_same,
      List.forall_mem_cons, same_named_iff]
  | case4 r r' pairs ih =>
    rw [agree, Bool.and_eq_true, ih, beq_iff_eq, List.forall_mem_cons, same_reference_iff]
  | case5 op e op' e' pairs ih =>
    rw [agree, Bool.and_eq_true, ih, beq_iff_eq, List.forall_mem_cons, List.forall_mem_cons,
      same_unary_iff, and_assoc]
  | case6 op l r op' l' r' pairs ih =>
    rw [agree, Bool.and_eq_true, ih, beq_iff_eq, List.forall_mem_cons, List.forall_mem_cons,
      List.forall_mem_cons, same_binary_iff, and_assoc, and_assoc]
  | case7 f args f' args' pairs ih =>
    -- arguments of one number are the same one by one just if their pairs are
    have hargs : args.length = args'.length ∧ (∀ p ∈ args.zip args', Same p.1 p.2) ↔
        List.Forall₂ Same args args' := by
      rw [List.forall₂_iff_zip]
      exact and_congr_right' ⟨fun h a b hp => h (a, b) hp, fun h p hp => h hp⟩
    rw [agree, Bool.and_eq_true, Bool.and_eq_true, ih, beq_iff_eq, beq_iff_eq,
      List.forall_mem_append, List.forall_mem_cons, same_call_iff, ← hargs, and_assoc, and_assoc,
      and_assoc]
  | case8 p pairs hconstant hnamed hreference hunary hbinary hcall =>
    -- the outermost nodes are not built in the same way
    have hfalse : agree (p :: pairs) = false :=
      agree.eq_8 p pairs hconstant hnamed hreference hunary hbinary hcall
    have hnot : ¬ Same p.1 p.2 := by
      obtain ⟨a, b⟩ := p
      intro h
      cases h with
      | constant => exact hconstant _ _ rfl
      | named => exact hnamed _ _ _ _ rfl
      | reference => exact hreference _ _ rfl
      | unary => exact hunary _ _ _ _ rfl
      | binary => exact hbinary _ _ _ _ _ _ rfl
      | call => exact hcall _ _ _ _ rfl
    rw [hfalse, List.forall_mem_cons]
    exact iff_of_false Bool.false_ne_true fun h => hnot h.1

/-- Equality of formulas, as it is computed, is being the same. -/
theorem beq_iff_same {a b : Formula} : (a == b) = true ↔ Same a b := by
  show agree [(a, b)] = true ↔ _
  rw [agree_iff, List.forall_mem_singleton]

/-! ### Laws -/

/-- A relation between formulas that are the same goes from their parts to the whole. -/
theorem same_induction {motive : Formula → Formula → Prop}
    (constant : ∀ {v w}, v.Same w → motive (constant v) (constant w))
    (named : ∀ {name v w}, v.Same w → motive (named name v) (named name w))
    (reference : ∀ r, motive (reference r) (reference r))
    (unary : ∀ {op a b}, motive a b → motive (unary op a) (unary op b))
    (binary : ∀ {op a b a' b'}, motive a a' → motive b b' →
      motive (binary op a b) (binary op a' b'))
    (call : ∀ {f args args'}, List.Forall₂ motive args args' →
      motive (call f args) (call f args'))
    {a b : Formula} (h : Same a b) : motive a b := by
  induction a generalizing b with
  | constant v =>
    cases h with
    | constant h => exact constant h
  | named name v =>
    cases h with
    | named h => exact named h
  | reference r =>
    cases h with
    | reference => exact reference r
  | unary op a ih =>
    cases h with
    | unary h => exact unary (ih h)
  | binary op a b iha ihb =>
    cases h with
    | binary hleft hright => exact binary (iha hleft) (ihb hright)
  | call f args ih =>
    cases h with
    | call h =>
      -- each argument is the same as its counterpart, and has the hypothesis as well
      have hboth := (List.forall₂_and_left args _).mpr ⟨ih, h⟩
      exact call (hboth.imp fun a b h => h.1 h.2)

/-- Formulas that are the same are so in either order. -/
theorem Same.symm {a b : Formula} (h : Same a b) : Same b a := by
  refine same_induction (motive := fun a b => Same b a) ?constant ?named ?reference ?unary ?binary
    ?call h
  case constant => exact fun h => .constant h.symm
  case named => exact fun h => .named h.symm
  case reference => exact .reference
  case unary => exact .unary
  case binary => exact .binary
  case call => exact fun hargs => .call hargs.flip

/-- Formulas that are the same as a third one are the same. The third formula is arbitrary in the
induction, since each part is compared with another part of it. -/
theorem Same.trans {a b c : Formula} (h : Same a b) (h' : Same b c) : Same a c := by
  refine same_induction (motive := fun a b => ∀ c, Same b c → Same a c) ?constant ?named ?reference
    ?unary ?binary ?call h c h'
  case constant =>
    rintro v w h c ⟨h'⟩
    exact .constant (h.trans h')
  case named =>
    intro name v w h c h'
    cases h' with
    | named h' => exact .named (h.trans h')
  case reference => exact fun r c h' => h'
  case unary =>
    intro op a b h c h'
    cases h' with
    | unary h' => exact .unary (h _ h')
  case binary =>
    intro op a b a' b' hleft hright c h'
    cases h' with
    | binary hleft' hright' => exact .binary (hleft _ hleft') (hright _ hright')
  case call =>
    intro f args args' hargs c h'
    cases h' with
    | @call _ _ args'' hargs' =>
      -- the arguments are compared one by one, along both lists
      refine .call ?_
      induction hargs generalizing args'' with
      | nil => exact hargs'
      | cons harg _ ih =>
        obtain - | ⟨harg', hargs'⟩ := hargs'
        exact .cons (harg _ harg') (ih hargs')

/-- Formulas that are the same have the same references. -/
theorem Same.references_eq {a b : Formula} (h : Same a b) : a.references = b.references := by
  refine same_induction (motive := fun a b => a.references = b.references) ?constant ?named
    ?reference ?unary ?binary ?call h
  case constant => exact fun _ => rfl
  case named => exact fun _ => rfl
  case reference => exact fun _ => rfl
  case unary => exact fun h => h
  case binary =>
    intro op a b a' b' hleft hright
    rw [references_binary, references_binary, hleft, hright]
  case call =>
    intro f args args' hargs
    rw [references_call, references_call]
    induction hargs with
    | nil => rfl
    | cons harg _ ih => rw [List.flatMap_cons, List.flatMap_cons, harg, ih]

/-- There is a NaN among the constants of a formula, with a name or without one. -/
def HasNaN (e : Formula) : Prop :=
  ∃ v, .literal v ∈ e.visits true ∧ v.HasNaN

theorem hasNaN_constant_iff {v : Value} : (constant v).HasNaN ↔ v.HasNaN := by
  simp [HasNaN]

theorem hasNaN_named_iff {name : String} {v : Value} : (named name v).HasNaN ↔ v.HasNaN := by
  simp [HasNaN]

theorem not_hasNaN_reference {r : Ref} : ¬ (reference r).HasNaN := by
  simp [HasNaN]

theorem hasNaN_unary_iff {op : UnaryOp} {a : Formula} : (unary op a).HasNaN ↔ a.HasNaN :=
  Iff.rfl

/-- A NaN in a formula is in one of its parts. -/
theorem hasNaN_binary_iff {op : BinaryOp} {a b : Formula} :
    (binary op a b).HasNaN ↔ a.HasNaN ∨ b.HasNaN := by
  simp only [HasNaN, visits_binary, List.mem_append, or_and_right, exists_or]

/-- A NaN in a call is in one of its arguments. -/
theorem hasNaN_call_iff {f : Func} {args : List Formula} :
    (call f args).HasNaN ↔ ∃ arg ∈ args, arg.HasNaN := by
  have hmem : ∀ v, .literal v ∈ (call f args).visits true ↔
      ∃ arg ∈ args, .literal v ∈ arg.visits true := by
    intro v
    -- the call itself is met too, and it is no constant
    rw [visits_call, if_pos rfl, List.mem_cons, List.mem_flatMap]
    exact or_iff_right nofun
  simp only [HasNaN, hmem]
  exact ⟨fun ⟨v, ⟨arg, harg, hv⟩, hnan⟩ => ⟨arg, harg, v, hv, hnan⟩,
    fun ⟨arg, harg, v, hv, hnan⟩ => ⟨v, ⟨arg, harg, hv⟩, hnan⟩⟩

/-- Only a NaN keeps a formula from being the same as itself. -/
theorem same_self_iff {e : Formula} : Same e e ↔ ¬ e.HasNaN := by
  induction e with
  | constant v => rw [same_constant_iff, hasNaN_constant_iff, Value.same_self_iff]
  | named name v =>
    rw [same_named_iff, hasNaN_named_iff, Value.same_self_iff]
    exact and_iff_right rfl
  | reference r => exact iff_of_true (.reference r) not_hasNaN_reference
  | unary op a ih =>
    rw [same_unary_iff, hasNaN_unary_iff, ih]
    exact and_iff_right rfl
  | binary op a b iha ihb =>
    rw [same_binary_iff, hasNaN_binary_iff, iha, ihb, not_or]
    exact and_iff_right rfl
  | call f args ih =>
    rw [same_call_iff, hasNaN_call_iff, List.forall₂_same, forall₂_congr ih]
    simp only [not_exists, not_and, true_and]

/-! ### Copies -/

/-- Copies of arguments are the arguments, if each copy is. -/
theorem copyAll_eq {args : List Formula} (h : ∀ arg ∈ args, arg.copy = arg) :
    copyAll args = args := by
  induction args with
  | nil => rfl
  | cons e es ih =>
    rw [copyAll, h e List.mem_cons_self, ih fun arg ha => h arg (List.mem_cons_of_mem e ha)]

/-- A copy of a formula is the formula. -/
theorem copy_eq (e : Formula) : e.copy = e := by
  induction e with
  | constant v => rfl
  | named name v => rfl
  | reference r => rfl
  | unary op operand ih => rw [copy, ih]
  | binary op left right ihl ihr => rw [copy, ihl, ihr]
  | call f args ih => rw [copy, copyAll_eq ih]

/-- **Formulas are equal just if they are the same, part by part.**

The list of pairs is worked off for any two formulas, and what it finds is that they are built in
the same way, with equal values of one kind at their leaves.  So equality is symmetric and
transitive, and equal formulas have the same references; but a formula is equal to itself, and to a
copy of it, just if there is no NaN in it. -/
theorem equal_iff_same :
    (∀ a b : Formula, (a == b) = true ↔ Same a b) ∧
    (∀ a b : Formula, (a == b) = (b == a)) ∧
    (∀ a b c : Formula, (a == b) = true → (b == c) = true → (a == c) = true) ∧
    (∀ a b : Formula, (a == b) = true → a.references = b.references) ∧
    (∀ a : Formula, (a == a) = true ↔ ¬ a.HasNaN) ∧
    ∀ a : Formula, (a.copy == a) = true ↔ ¬ a.HasNaN := by
  refine ⟨fun a b => beq_iff_same, fun a b => ?_, fun a b c hab hbc => ?_, fun a b h => ?_,
    fun a => ?_, fun a => ?_⟩
  · rw [Bool.eq_iff_iff, beq_iff_same, beq_iff_same]
    exact ⟨Same.symm, Same.symm⟩
  · exact beq_iff_same.mpr ((beq_iff_same.mp hab).trans (beq_iff_same.mp hbc))
  · exact (beq_iff_same.mp h).references_eq
  · rw [beq_iff_same, same_self_iff]
  · rw [copy_eq, beq_iff_same, same_self_iff]

/-- The two zeros, and a NaN in a vector. -/
theorem equal_iff_same_of_zeros :
    let a := call .min [constant (.number 0.0), reference ⟨1⟩]
    let b := call .min [constant (.number (-0.0)), reference ⟨1⟩]
    let e := binary .add (named "drift" (.vector 1.0 Float.nan)) a
    (a == b) = true ∧ (b == a) = true ∧ (a == a) = true ∧ a.references = b.references ∧
      (e == e) = false ∧ (e.copy == e) = false := by
  intro a b e
  obtain ⟨hsame, hsymm, htrans, hreferences, hself, hcopy⟩ := equal_iff_same
  have hzeros : Value.EqualNumbers 0.0 (-0.0) := by
    refine ⟨by decide, by decide, .inr (.inl ⟨by decide, by decide⟩)⟩
  have hab : (a == b) = true :=
    (hsame a b).mpr (.call (.cons (.constant (.number hzeros)) (.cons (.reference ⟨1⟩) .nil)))
  have hba : (b == a) = true := (hsymm b a).trans hab
  have hnan : e.HasNaN :=
    hasNaN_binary_iff.mpr (.inl (hasNaN_named_iff.mpr (.inr (by decide))))
  exact ⟨hab, hba, htrans a b a hab hba, hreferences a b hab,
    Bool.eq_false_iff.mpr fun h => (hself e).mp h hnan,
    Bool.eq_false_iff.mpr fun h => (hcopy e).mp h hnan⟩

end Formula
end ParametricPlan
