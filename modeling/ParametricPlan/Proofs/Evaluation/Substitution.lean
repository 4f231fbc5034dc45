/-
ParametricPlan/Proofs/Evaluation/Substitution.lean

Formulas in the place of references.

A substitution gives formulas for some references, and `Formula.subst` puts them in the place of
these references, all at once.  The semantics lemma is `eval_subst_of_agree`: a formula after a
substitution has the result that it has with other values, if each of its references alone has.
It needs no hypothesis on the results, which may be errors.

`eval_subst` is the main result.  Where the formulas that are put in have values, the references
may as well be bound to these (`rebind`), in bindings by setting one reference after the other.
-/
import ParametricPlan.Proofs.Evaluation.Bindings
import ParametricPlan.Proofs.Evaluation.Equations
import ParametricPlan.Proofs.Formula.References

namespace ParametricPlan

/-! ### Bound references -/

/-- Values with some references bound anew. -/
def rebind (values : Ref → Option Value) (refs : List Ref) (value : Ref → Value) :
    Ref → Option Value :=
  fun r => if r ∈ refs then some (value r) else values r

/-- Setting references one after the other binds them all anew. -/
theorem Bindings.lookup_changeAll_set (b : Bindings) (refs : List Ref) (value : Ref → Value) :
    (b.changeAll (refs.map fun r => .set r (value r))).lookup = rebind b.lookup refs value := by
  induction refs generalizing b with
  | nil => rfl
  | cons r refs ih =>
    funext q
    have hset : (b.change (.set r (value r))).lookup q =
        if q = r then some (value r) else b.lookup q := b.lookup_insert r q (value r)
    show ((b.change (.set r (value r))).changeAll (refs.map _)).lookup q = _
    rw [ih, rebind, rebind, hset]
    -- setting `r` again, later on, gives it the same value
    by_cases hq : q ∈ refs
    · rw [if_pos hq, if_pos (List.mem_cons_of_mem r hq)]
    · by_cases hr : q = r <;> simp [hq, hr]

namespace Formula

/-! ### Substitution -/

mutual

/-- A formula with formulas in the place of some of its references. -/
def subst (σ : Ref → Option Formula) : Formula → Formula
  | constant v => constant v
  | named name v => named name v
  | reference r => (σ r).getD (reference r)
  | unary op operand => unary op (operand.subst σ)
  | binary op left right => binary op (left.subst σ) (right.subst σ)
  | call function args => call function (substAll σ args)

/-- Several formulas with formulas in the place of some of their references. -/
def substAll (σ : Ref → Option Formula) : List Formula → List Formula
  | [] => []
  | e :: es => e.subst σ :: substAll σ es

end

/-- The references in a formula that a substitution gives formulas for. -/
def substituted (e : Formula) (σ : Ref → Option Formula) : List Ref :=
  e.references.filter fun r => (σ r).isSome

theorem length_substAll (σ : Ref → Option Formula) (args : List Formula) :
    (substAll σ args).length = args.length := by
  induction args with
  | nil => rfl
  | cons e es ih => rw [substAll, List.length_cons, List.length_cons, ih]

variable {σ : Ref → Option Formula} {values values' : Ref → Option Value}

/-- Arguments come to the same if each of them does, since the first error is the same one. -/
theorem evalAll_substAll_of_forall {args : List Formula}
    (h : ∀ arg ∈ args, (arg.subst σ).eval values = arg.eval values') :
    evalAll (substAll σ args) values = evalAll args values' := by
  induction args with
  | nil => rfl
  | cons e es ih =>
    have hes := ih fun arg ha => h arg (List.mem_cons_of_mem e ha)
    rw [substAll, evalAll_cons, evalAll_cons, h e List.mem_cons_self, hes]

/-- **The semantics of substitution.** If each reference of a formula comes to the same by the
substitution as by the other values, then so does the formula, be it to a value or to an error. -/
theorem eval_subst_of_agree {e : Formula}
    (agree : ∀ r ∈ e.references,
      ((reference r).subst σ).eval values = (reference r).eval values') :
    (e.subst σ).eval values = e.eval values' := by
  induction e with
  | constant v => rfl
  | named name v => rfl
  | reference r => exact agree r List.mem_cons_self
  | unary op operand ih => rw [subst, eval_unary, eval_unary, ih agree]
  | binary op left right ihl ihr =>
    rw [references_binary] at agree
    obtain ⟨hl, hr⟩ := List.forall_mem_append.mp agree
    rw [subst, eval_binary, eval_binary, ihl hl, ihr hr]
  | call f args ih =>
    rw [references_call] at agree
    -- a call keeps the number of its arguments, and so its check comes out the same
    have hargs : evalAll (substAll σ args) values = evalAll args values' :=
      evalAll_substAll_of_forall fun arg ha =>
        ih arg ha fun r hr => agree r (List.mem_flatMap.mpr ⟨arg, ha, hr⟩)
    rw [subst, eval_call, eval_call, length_substAll, hargs]

/-- **Formulas in the place of references are as good as their values.**  Let `σ` give formulas for
some references, and let those that are put into `e` have the values that `value` says.  Then `e`
after the substitution has the result that `e` has when each reference that was replaced is bound
to its value, be it a value or an error; and bindings come to this by setting these references. -/
theorem eval_subst {e : Formula} {σ : Ref → Option Formula} {values : Ref → Option Value}
    {value : Ref → Value}
    (h : ∀ r ∈ e.references, ∀ f, σ r = some f → f.eval values = .ok (value r)) :
    (e.subst σ).eval values = e.eval (rebind values (e.substituted σ) value) ∧
    ∀ b : Bindings, b.lookup = values → (e.subst σ).eval values =
      e.eval (b.changeAll ((e.substituted σ).map fun r => .set r (value r))).lookup := by
  have hsubst : (e.subst σ).eval values = e.eval (rebind values (e.substituted σ) value) := by
    refine eval_subst_of_agree fun r hr => ?_
    have hmem : r ∈ e.substituted σ ↔ (σ r).isSome = true := by
      simp [substituted, List.mem_filter, hr]
    rw [eval_reference, rebind, subst]
    rcases hσ : σ r with - | f
    · -- the reference stays, and so does what it is bound to
      rw [if_neg (by simp [hmem, hσ])]
      exact eval_reference r
    · rw [if_pos (by simp [hmem, hσ])]
      exact h r hr f hσ
  refine ⟨hsubst, fun b hb => ?_⟩
  rw [hsubst, b.lookup_changeAll_set, hb]

/-- Two references are put in each other's place, which gives the formula another value. -/
theorem eval_subst_exchange :
    let e := binary .and (unary .not (reference ⟨1⟩)) (reference ⟨2⟩)
    let σ : Ref → Option Formula := fun r => if r = ⟨1⟩ then some (reference ⟨2⟩) else
      if r = ⟨2⟩ then some (reference ⟨1⟩) else none
    let values : Ref → Option Value := fun r => if r = ⟨1⟩ then some (.bool true) else
      if r = ⟨2⟩ then some (.bool false) else none
    let value : Ref → Value := fun r => if r = ⟨1⟩ then .bool false else .bool true
    (∀ r ∈ e.references, ∀ f, σ r = some f → f.eval values = .ok (value r)) ∧
      e.eval values = .ok (.bool false) ∧ (e.subst σ).eval values = .ok (.bool true) ∧
      (e.subst σ).eval values = e.eval (rebind values (e.substituted σ) value) := by
  intro e σ values value
  have hrefs : e.references = [⟨1⟩, ⟨2⟩] := rfl
  have hvalues : ∀ r ∈ e.references, ∀ f, σ r = some f → f.eval values = .ok (value r) := by
    rw [hrefs]
    refine List.forall_mem_cons.mpr ⟨?_, List.forall_mem_singleton.mpr ?_⟩
    · rintro f ⟨⟩
      rfl
    · rintro f ⟨⟩
      rfl
  exact ⟨hvalues, rfl, rfl, (eval_subst hvalues).1⟩

end Formula
end ParametricPlan
