/-
ParametricPlan/Proofs/Formula/Visits.lean

What a walk meets, part by part.

`visits` is computed onto what is met later, from right to left, as `references` is.  What is met
later is only ever appended to (`visitsOnto_eq_append`), and so a walk through a formula meets what
walks through its parts meet, one after the other: `visits_unary`, `visits_binary` and
`visits_call`, whose arguments a walk may pass over.
-/
import ParametricPlan.Formula.Visit
import ParametricPlan.Proofs.Formula.Induction

namespace ParametricPlan.Formula

variable (enterCalls : Bool)

/-- Arguments append to what is met later, if each of them does. -/
theorem visitsAllOnto_eq_append {args : List Formula}
    (h : ∀ arg ∈ args, ∀ rest,
      arg.visitsOnto enterCalls rest = arg.visits enterCalls ++ rest)
    (rest : List Visit) :
    visitsAllOnto enterCalls args rest = args.flatMap (visits · enterCalls) ++ rest := by
  induction args with
  | nil => rfl
  | cons e es ih =>
    have hes := ih fun arg ha => h arg (List.mem_cons_of_mem e ha)
    rw [visitsAllOnto, h e List.mem_cons_self, hes, List.flatMap_cons, List.append_assoc]

/-- **What is met later is appended to, and not looked at.** -/
theorem visitsOnto_eq_append (e : Formula) (rest : List Visit) :
    e.visitsOnto enterCalls rest = e.visits enterCalls ++ rest := by
  induction e generalizing rest with
  | constant v => rfl
  | named name v => rfl
  | reference r => rfl
  | unary op operand ih => exact ih rest
  | binary op left right ihl ihr =>
    -- what follows the left operand is what is met in the right one
    simp only [visits, visitsOnto]
    rw [ihl, ihr, ihl (right.visitsOnto enterCalls []), List.append_assoc]
    rfl
  | call f args ih =>
    cases enterCalls with
    -- the arguments are passed over
    | false => rfl
    | true =>
      simp only [visits, visitsOnto, if_true]
      rw [visitsAllOnto_eq_append true ih, visitsAllOnto_eq_append true ih, List.append_nil,
        List.cons_append]

/-! ### The visits of the parts -/

@[simp] theorem visits_constant (v : Value) :
    (constant v).visits enterCalls = [.literal v] :=
  rfl

@[simp] theorem visits_named (name : String) (v : Value) :
    (named name v).visits enterCalls = [.literal v] :=
  rfl

@[simp] theorem visits_reference (r : Ref) :
    (reference r).visits enterCalls = [.reference r] :=
  rfl

theorem visits_unary (op : UnaryOp) (operand : Formula) :
    (unary op operand).visits enterCalls = operand.visits enterCalls :=
  rfl

/-- The left operand is met before the right one. -/
theorem visits_binary (op : BinaryOp) (left right : Formula) :
    (binary op left right).visits enterCalls =
      left.visits enterCalls ++ right.visits enterCalls :=
  visitsOnto_eq_append enterCalls left (right.visits enterCalls)

/-- A call is met before its arguments. -/
theorem visits_call (f : Func) (args : List Formula) :
    (call f args).visits enterCalls =
      .call f args.length ::
        if enterCalls then args.flatMap (visits · enterCalls) else [] := by
  have hargs : visitsAllOnto enterCalls args [] =
      args.flatMap (visits · enterCalls) ++ [] :=
    visitsAllOnto_eq_append enterCalls (fun arg _ => arg.visitsOnto_eq_append enterCalls) []
  rw [List.append_nil] at hargs
  rw [← hargs]
  rfl

end ParametricPlan.Formula
