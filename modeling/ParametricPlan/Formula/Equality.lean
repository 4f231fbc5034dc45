/-
ParametricPlan/Formula/Equality.lean

Equality of formulas.

Two formulas are equal when they have the same shape, with the same operators, functions, names
and references, and equal values at their leaves.  `agree` decides this for a list of pairs at
once: it looks at the first pair only and puts the pairs of its parts in front of the rest, so that
the work does not nest however deep the formulas are.
-/
import ParametricPlan.Formula.Basic

namespace ParametricPlan
namespace Formula

/-- The number of nodes on the left sides of some pairs. -/
def pending : List (Formula × Formula) → Nat
  | [] => 0
  | (a, _) :: pairs => a.size + pending pairs

/-- Pairs that are put before others wait in addition to them. -/
theorem pending_append (ps qs : List (Formula × Formula)) :
    pending (ps ++ qs) = pending ps + pending qs := by
  induction ps with
  | nil => simp [pending]
  | cons p ps ih => simp [pending, ih, Nat.add_assoc]

/-- To compare arguments in pairs takes no more than there is in the arguments of one side. -/
theorem pending_zip_le (as bs : List Formula) : pending (as.zip bs) ≤ sizeAll as := by
  induction as generalizing bs with
  | nil => simp [pending]
  | cons a as ih =>
    -- the pairs end with the shorter of the two lists, and only the left of a pair is measured
    cases bs with
    | nil => simp [pending]
    | cons b bs => simpa [pending, sizeAll] using ih bs

/-- Whether the formulas of every pair are equal. -/
def agree : List (Formula × Formula) → Bool
  | [] => true
  | (constant v, constant v') :: pairs => v == v' && agree pairs
  | (named n v, named n' v') :: pairs => n == n' && v == v' && agree pairs
  | (reference r, reference r') :: pairs => r == r' && agree pairs
  | (unary op e, unary op' e') :: pairs => op == op' && agree ((e, e') :: pairs)
  | (binary op l r, binary op' l' r') :: pairs =>
    op == op' && agree ((l, l') :: (r, r') :: pairs)
  | (call f args, call f' args') :: pairs =>
    f == f' && args.length == args'.length && agree (args.zip args' ++ pairs)
  | _ :: _ => false
termination_by pairs => pending pairs
decreasing_by
  all_goals simp only [pending, pending_append, size]
  all_goals try omega
  have := pending_zip_le args args'
  omega

/-- Equality of formulas. -/
def equal (a b : Formula) : Bool :=
  agree [(a, b)]

instance : BEq Formula := ⟨equal⟩

end Formula
end ParametricPlan
