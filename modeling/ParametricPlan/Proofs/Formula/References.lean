/-
ParametricPlan/Proofs/Formula/References.lean

The references of a formula, part by part.

`references` is computed onto what follows a formula, from right to left.  What follows is only
ever appended to (`referencesOnto_eq_append`), and so the references of a formula are those of its
parts in a row: `references_unary`, `references_binary` and `references_call`.
-/
import ParametricPlan.Proofs.Formula.Induction

namespace ParametricPlan.Formula

/-- Arguments append to what follows, if each of them does. -/
theorem referencesAllOnto_eq_append {args : List Formula}
    (h : ∀ arg ∈ args, ∀ rest, arg.referencesOnto rest = arg.references ++ rest)
    (rest : List Ref) : referencesAllOnto args rest = args.flatMap references ++ rest := by
  induction args with
  | nil => rfl
  | cons e es ih =>
    have hes := ih fun arg ha => h arg (List.mem_cons_of_mem e ha)
    rw [referencesAllOnto, h e List.mem_cons_self, hes, List.flatMap_cons, List.append_assoc]

/-- **What follows a formula is appended to, and not looked at.** -/
theorem referencesOnto_eq_append (e : Formula) (rest : List Ref) :
    e.referencesOnto rest = e.references ++ rest := by
  induction e generalizing rest with
  | constant v => rfl
  | named name v => rfl
  | reference r => rfl
  | unary op operand ih => exact ih rest
  | binary op left right ihl ihr =>
    -- what follows the left operand are the references of the right one
    simp only [references, referencesOnto]
    rw [ihl, ihr, ihl (right.referencesOnto []), List.append_assoc]
    rfl
  | call f args ih =>
    simp only [references, referencesOnto]
    rw [referencesAllOnto_eq_append ih, referencesAllOnto_eq_append ih, List.append_nil]

/-! ### The references of the parts -/

@[simp] theorem references_constant (v : Value) : (constant v).references = [] :=
  rfl

@[simp] theorem references_named (name : String) (v : Value) : (named name v).references = [] :=
  rfl

@[simp] theorem references_reference (r : Ref) : (reference r).references = [r] :=
  rfl

theorem references_unary (op : UnaryOp) (operand : Formula) :
    (unary op operand).references = operand.references :=
  rfl

/-- The references of the left operand come before those of the right one. -/
theorem references_binary (op : BinaryOp) (left right : Formula) :
    (binary op left right).references = left.references ++ right.references :=
  referencesOnto_eq_append left right.references

/-- The references of arguments come one after the other. -/
theorem references_call (f : Func) (args : List Formula) :
    (call f args).references = args.flatMap references := by
  have hargs : referencesAllOnto args [] = args.flatMap references ++ [] :=
    referencesAllOnto_eq_append (fun arg _ => arg.referencesOnto_eq_append) []
  exact hargs.trans (List.append_nil _)

end ParametricPlan.Formula
