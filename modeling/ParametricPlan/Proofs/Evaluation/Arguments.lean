/-
ParametricPlan/Proofs/Evaluation/Arguments.lean

What a function makes of its arguments.

A function takes arguments of one kind, numbers or vectors (`Func.argKind`), and so there is at
most one argument to blame: the leftmost one of another kind (`Func.Misfit`).  The number of the
arguments comes before that, and what the function is not defined at comes after it
(`Func.Undefined`).  Every list of arguments is of one of four sorts by this, and each sort has an
outcome of its own: `apply_of_not_accepts`, `apply_of_misfit`, `apply_of_undefined` and
`apply_of_defined`.

A call looks at the number of its arguments too, before it evaluates them, and finds the same
(`eval_call_constants`).  `apply_classified` is the main result.
-/
import Mathlib.Data.List.Basic
import ParametricPlan.Proofs.Evaluation.Equations

namespace ParametricPlan

namespace Func

/-! ### Arguments -/

/-- The kind of the arguments of a function. -/
def argKind : Func → Kind
  | length | distance => .vector
  | abs | sqrt | min | max | sum | clamp | vector => .number

/-- The leftmost argument that is not of the kind that a function takes. -/
def Misfit (function : Func) (args : List Value) (v : Value) : Prop :=
  ∃ before after, args = before ++ v :: after ∧ (∀ w ∈ before, w.kind = function.argKind) ∧
    v.kind ≠ function.argKind

/-- Arguments of the right kind at which a function is not defined. -/
inductive Undefined : Func → List Value → Prop where
  | min : Undefined .min []
  | max : Undefined .max []
  | sqrt {x : Float} (h : x < 0) : Undefined .sqrt [.number x]
  | clamp {x lo hi : Float} (h : lo.isNaN = true ∨ hi.isNaN = true ∨ hi < lo) :
    Undefined .clamp [.number x, .number lo, .number hi]

variable {f : Func} {args : List Value} {v w : Value}

/-- The leftmost argument of a wrong kind is the first one, or that among the further ones. -/
theorem misfit_cons_iff : f.Misfit (w :: args) v ↔
    w.kind ≠ f.argKind ∧ v = w ∨ w.kind = f.argKind ∧ f.Misfit args v := by
  constructor
  · rintro ⟨before, after, hargs, hbefore, hv⟩
    rcases before with - | ⟨w', before⟩
    · obtain ⟨rfl, rfl⟩ := List.cons.inj hargs
      exact .inl ⟨hv, rfl⟩
    · obtain ⟨rfl, rfl⟩ := List.cons.inj hargs
      obtain ⟨hw, hbefore⟩ := List.forall_mem_cons.mp hbefore
      exact .inr ⟨hw, before, after, rfl, hbefore, hv⟩
  · rintro (⟨hw, rfl⟩ | ⟨hw, before, after, rfl, hbefore, hv⟩)
    · exact ⟨[], args, rfl, nofun, hw⟩
    · exact ⟨w :: before, after, rfl, List.forall_mem_cons.mpr ⟨hw, hbefore⟩, hv⟩

theorem not_misfit_nil : ¬ f.Misfit [] v := by
  rintro ⟨before, after, hargs, -⟩
  exact absurd hargs.symm (by simp)

/-- Either all arguments are of the right kind, or one is the leftmost that is not. -/
theorem forall_kind_or_exists_misfit (f : Func) (args : List Value) :
    (∀ v ∈ args, v.kind = f.argKind) ∨ ∃ v, f.Misfit args v := by
  induction args with
  | nil => exact .inl nofun
  | cons w args ih =>
    by_cases hw : w.kind = f.argKind
    · rcases ih with hall | ⟨v, hv⟩
      · exact .inl (List.forall_mem_cons.mpr ⟨hw, hall⟩)
      · exact .inr ⟨v, misfit_cons_iff.mpr (.inr ⟨hw, hv⟩)⟩
    · exact .inr ⟨w, misfit_cons_iff.mpr (.inl ⟨hw, rfl⟩)⟩

/-- With one of a wrong kind, not all arguments are of the right one. -/
theorem Misfit.not_forall_kind (h : f.Misfit args v) : ¬ ∀ w ∈ args, w.kind = f.argKind := by
  obtain ⟨before, after, rfl, -, hv⟩ := h
  exact fun hall => hv (hall v (by simp))

/-- There is only one leftmost argument of a wrong kind. -/
theorem Misfit.unique (h : f.Misfit args v) (h' : f.Misfit args w) : v = w := by
  -- both are found by going through the arguments from the left, and both stop at the same one
  induction args with
  | nil => exact absurd h not_misfit_nil
  | cons u args ih =>
    rcases misfit_cons_iff.mp h with ⟨hu, rfl⟩ | ⟨hu, h⟩
    · rcases misfit_cons_iff.mp h' with ⟨-, rfl⟩ | ⟨hu', -⟩
      · rfl
      · exact absurd hu' hu
    · rcases misfit_cons_iff.mp h' with ⟨hu', -⟩ | ⟨-, h'⟩
      · exact absurd hu hu'
      · exact ih h h'

/-- Arguments that a function takes are as many as it says. -/
theorem length_of_accepts {n : Nat} (h : (Arity.fixed n).accepts args.length = true) :
    args.length = n :=
  (eq_of_beq h).symm

/-! ### The number of arguments -/

/-- The number of arguments comes first, whatever they are. -/
theorem apply_of_not_accepts (h : f.arity.accepts args.length = false) :
    f.apply args = .error (.argumentCount f.name f.arity args.length) := by
  unfold apply
  -- all cases but the last are lists of a length that is accepted
  split
  case h_10 => rfl
  all_goals cases h

/-! ### The kinds of arguments -/

/-- What is no number is blamed with its kind. -/
theorem numberArg_of_kind_ne (h : v.kind ≠ .number) :
    f.numberArg v = .error (.argumentKind f.name "a number" v.kind) := by
  cases v with
  | number x => exact absurd rfl h
  | bool | vector => rfl

/-- What is no vector is blamed with its kind. -/
theorem vectorArg_of_kind_ne (h : v.kind ≠ .vector) :
    f.vectorArg v = .error (.argumentKind f.name "a vector" v.kind) := by
  cases v with
  | vector x y => exact absurd rfl h
  | bool | number => rfl

theorem exists_number_of_kind (h : v.kind = .number) : ∃ x, v = .number x := by
  cases v with
  | number x => exact ⟨x, rfl⟩
  | bool | vector => cases h

theorem exists_vector_of_kind (h : v.kind = .vector) : ∃ x y, v = .vector x y := by
  cases v with
  | vector x y => exact ⟨x, y, rfl⟩
  | bool | number => cases h

/-- If all arguments are numbers, these are handed on. -/
theorem exists_numbers_of_kind (h : ∀ v ∈ args, v.kind = .number) :
    ∃ xs, f.numberArgs args = .ok xs ∧ args = xs.map .number := by
  induction args with
  | nil => exact ⟨[], rfl, rfl⟩
  | cons v args ih =>
    obtain ⟨hv, hargs⟩ := List.forall_mem_cons.mp h
    obtain ⟨x, rfl⟩ := exists_number_of_kind hv
    obtain ⟨xs, hxs, rfl⟩ := ih hargs
    refine ⟨x :: xs, ?_, rfl⟩
    rw [numberArgs, hxs]
    rfl

/-- Of arguments that should be numbers, the leftmost that is none is blamed. -/
theorem numberArgs_of_misfit (hkind : f.argKind = .number) (h : f.Misfit args v) :
    f.numberArgs args = .error (.argumentKind f.name "a number" v.kind) := by
  induction args with
  | nil => exact absurd h not_misfit_nil
  | cons w args ih =>
    rw [numberArgs]
    rcases misfit_cons_iff.mp h with ⟨hw, rfl⟩ | ⟨hw, hrest⟩
    · rw [numberArg_of_kind_ne (hkind ▸ hw)]
      rfl
    · -- the first one is a number, and the blame comes from the further ones
      obtain ⟨x, rfl⟩ := exists_number_of_kind (hw.trans hkind)
      rw [ih hrest]
      rfl

/-- The error of some arguments is that of the first, or of the further ones after it. -/
theorem numberArgs_cons_error {e : EvalError} (h : f.numberArgs (v :: args) = .error e) :
    f.numberArg v = .error e ∨
      ∃ x, f.numberArg v = .ok x ∧ f.numberArgs args = .error e := by
  rw [numberArgs] at h
  cases hv : f.numberArg v with
  | error e' =>
    rw [hv] at h
    obtain rfl : e' = e := Except.error.inj h
    exact .inl rfl
  | ok x =>
    cases hargs : f.numberArgs args with
    | error e' =>
      rw [hv, hargs] at h
      obtain rfl : e' = e := Except.error.inj h
      exact .inr ⟨x, rfl, rfl⟩
    | ok xs =>
      rw [hv, hargs] at h
      cases h

/-- A function of numbers has the error of the first argument that is none. -/
theorem apply_of_numberArgs_error (hkind : f.argKind = .number)
    (haccepts : f.arity.accepts args.length = true) {e : EvalError}
    (h : f.numberArgs args = .error e) : f.apply args = .error e := by
  -- what is done with the numbers comes after all of them, so that only the number of arguments
  -- makes a difference
  cases f
  case length | distance => cases hkind
  case min | max | sum =>
    show (_ >>= _ : Except EvalError Value) = _
    rw [h]
    rfl
  case abs | sqrt =>
    obtain ⟨v, rfl⟩ := List.length_eq_one_iff.mp (length_of_accepts haccepts)
    rcases numberArgs_cons_error h with hv | ⟨x, -, hnil⟩
    · rw [apply, hv]
      rfl
    · cases hnil
  case vector =>
    obtain ⟨v, w, rfl⟩ := List.length_eq_two.mp (length_of_accepts haccepts)
    rcases numberArgs_cons_error h with hv | ⟨x, hx, hrest⟩
    · rw [apply, hv]
      rfl
    rcases numberArgs_cons_error hrest with hw | ⟨y, -, hnil⟩
    · rw [apply, hx, hw]
      rfl
    · cases hnil
  case clamp =>
    obtain ⟨v, lo, hi, rfl⟩ := List.length_eq_three.mp (length_of_accepts haccepts)
    rcases numberArgs_cons_error h with hv | ⟨x, hx, hrest⟩
    · rw [apply, hv]
      rfl
    rcases numberArgs_cons_error hrest with hlo | ⟨y, hy, hlast⟩
    · rw [apply, hx, hlo]
      rfl
    rcases numberArgs_cons_error hlast with hhi | ⟨z, -, hnil⟩
    · rw [apply, hx, hy, hhi]
      rfl
    · cases hnil

theorem apply_of_misfit (haccepts : f.arity.accepts args.length = true) (h : f.Misfit args v) :
    f.apply args = .error (.argumentKind f.name ("a " ++ f.argKind.name) v.kind) := by
  cases hkind : f.argKind with
  -- no function takes truth values
  | bool => cases f <;> cases hkind
  | number => exact apply_of_numberArgs_error hkind haccepts (numberArgs_of_misfit hkind h)
  | vector =>
    cases f
    case length =>
      obtain ⟨w, rfl⟩ := List.length_eq_one_iff.mp (length_of_accepts haccepts)
      rcases misfit_cons_iff.mp h with ⟨hw, rfl⟩ | ⟨-, hnil⟩
      · rw [apply, vectorArg_of_kind_ne hw]
        rfl
      · exact absurd hnil not_misfit_nil
    case distance =>
      obtain ⟨w, u, rfl⟩ := List.length_eq_two.mp (length_of_accepts haccepts)
      rcases misfit_cons_iff.mp h with ⟨hw, rfl⟩ | ⟨hw, hrest⟩
      · rw [apply, vectorArg_of_kind_ne hw]
        rfl
      obtain ⟨x, y, rfl⟩ := exists_vector_of_kind hw
      rcases misfit_cons_iff.mp hrest with ⟨hu, rfl⟩ | ⟨-, hnil⟩
      · rw [apply, vectorArg_of_kind_ne hu]
        rfl
      · exact absurd hnil not_misfit_nil
    -- no other function takes vectors
    all_goals cases hkind

/-! ### The values of arguments -/

/-- Where a function is not defined, it has an error of its own for that. -/
theorem apply_of_undefined (h : f.Undefined args) :
    ∃ what, f.apply args = .error (.outOfDomain what) := by
  cases h with
  | min => exact ⟨_, rfl⟩
  | max => exact ⟨_, rfl⟩
  | sqrt h => exact ⟨_, if_pos h⟩
  | clamp h => exact ⟨_, if_pos h⟩

/-- With arguments of the right number and kinds, a function has a value wherever it is defined. -/
theorem apply_of_defined (haccepts : f.arity.accepts args.length = true)
    (hkind : ∀ v ∈ args, v.kind = f.argKind) (hdefined : ¬ f.Undefined args) :
    ∃ w, f.apply args = .ok w := by
  cases f
  case abs =>
    obtain ⟨v, rfl⟩ := List.length_eq_one_iff.mp (length_of_accepts haccepts)
    obtain ⟨x, rfl⟩ := exists_number_of_kind (hkind v (by simp))
    exact ⟨_, rfl⟩
  case sqrt =>
    obtain ⟨v, rfl⟩ := List.length_eq_one_iff.mp (length_of_accepts haccepts)
    obtain ⟨x, rfl⟩ := exists_number_of_kind (hkind v (by simp))
    exact ⟨_, if_neg fun h => hdefined (.sqrt h)⟩
  case min | max =>
    obtain ⟨xs, hxs, rfl⟩ := exists_numbers_of_kind hkind
    rcases xs with - | ⟨x, xs⟩
    · -- of no numbers there is no least and no greatest
      exact absurd (by constructor) hdefined
    · show ∃ w, (_ >>= _ : Except EvalError Value) = .ok w
      rw [hxs]
      exact ⟨_, rfl⟩
  case sum =>
    obtain ⟨xs, hxs, rfl⟩ := exists_numbers_of_kind hkind
    show ∃ w, (_ >>= _ : Except EvalError Value) = .ok w
    rw [hxs]
    exact ⟨_, rfl⟩
  case clamp =>
    obtain ⟨v, lo, hi, rfl⟩ := List.length_eq_three.mp (length_of_accepts haccepts)
    obtain ⟨x, rfl⟩ := exists_number_of_kind (hkind v (by simp))
    obtain ⟨lo, rfl⟩ := exists_number_of_kind (hkind lo (by simp))
    obtain ⟨hi, rfl⟩ := exists_number_of_kind (hkind hi (by simp))
    exact ⟨_, if_neg fun h => hdefined (.clamp h)⟩
  case vector =>
    obtain ⟨v, w, rfl⟩ := List.length_eq_two.mp (length_of_accepts haccepts)
    obtain ⟨x, rfl⟩ := exists_number_of_kind (hkind v (by simp))
    obtain ⟨y, rfl⟩ := exists_number_of_kind (hkind w (by simp))
    exact ⟨_, rfl⟩
  case length =>
    obtain ⟨v, rfl⟩ := List.length_eq_one_iff.mp (length_of_accepts haccepts)
    obtain ⟨x, y, rfl⟩ := exists_vector_of_kind (hkind v (by simp))
    exact ⟨_, rfl⟩
  case distance =>
    obtain ⟨v, w, rfl⟩ := List.length_eq_two.mp (length_of_accepts haccepts)
    obtain ⟨x, y, rfl⟩ := exists_vector_of_kind (hkind v (by simp))
    obtain ⟨x', y', rfl⟩ := exists_vector_of_kind (hkind w (by simp))
    exact ⟨_, rfl⟩

end Func

/-! ### Calls -/

namespace Formula

/-- Constants are their values. -/
theorem evalAll_constants (values : Ref → Option Value) (args : List Value) :
    evalAll (args.map constant) values = .ok args := by
  induction args with
  | nil => rfl
  | cons v args ih =>
    rw [List.map_cons, evalAll_cons, eval_constant, ih]
    rfl

/-- A call of constants is its function applied to them, whatever the references stand for. -/
theorem eval_call_constants (values : Ref → Option Value) (f : Func) (args : List Value) :
    (call f (args.map constant)).eval values = f.apply args := by
  rw [eval_call, List.length_map, evalAll_constants]
  split
  case isTrue => rfl
  case isFalse h => exact (Func.apply_of_not_accepts (Bool.eq_false_iff.mpr h)).symm

end Formula

namespace Func

/-- The four sorts of arguments, each with its outcome. -/
theorem apply_cases (f : Func) (args : List Value) :
    f.arity.accepts args.length = false ∧
        f.apply args = .error (.argumentCount f.name f.arity args.length) ∨
      f.arity.accepts args.length = true ∧
        ((∃ v, f.Misfit args v ∧
            f.apply args = .error (.argumentKind f.name ("a " ++ f.argKind.name) v.kind)) ∨
          (¬ ∃ v, f.Misfit args v) ∧
            (f.Undefined args ∧ (∃ what, f.apply args = .error (.outOfDomain what)) ∨
              ¬ f.Undefined args ∧ ∃ w, f.apply args = .ok w)) := by
  cases haccepts : f.arity.accepts args.length with
  | false => exact .inl ⟨rfl, apply_of_not_accepts haccepts⟩
  | true =>
    refine .inr ⟨rfl, ?_⟩
    rcases f.forall_kind_or_exists_misfit args with hkind | ⟨v, hv⟩
    · refine .inr ⟨fun ⟨v, hv⟩ => hv.not_forall_kind hkind, ?_⟩
      by_cases hundefined : f.Undefined args
      · exact .inl ⟨hundefined, apply_of_undefined hundefined⟩
      · exact .inr ⟨hundefined, apply_of_defined haccepts hkind hundefined⟩
    · exact .inl ⟨v, hv, apply_of_misfit haccepts hv⟩

/-- **Every list of arguments is of one of four sorts.**

There are too few or too many of them; or one of them is the leftmost of a wrong kind, and the
error names its kind; or the function is not defined at them; or it has a value there.  Each sort
has its own outcome, which no other sort has, and a call of these constants has the same. -/
theorem apply_classified (f : Func) (args : List Value) :
    (f.apply args = .error (.argumentCount f.name f.arity args.length) ↔
      f.arity.accepts args.length = false) ∧
    (∀ k, f.apply args = .error (.argumentKind f.name ("a " ++ f.argKind.name) k) ↔
      f.arity.accepts args.length = true ∧ ∃ v, f.Misfit args v ∧ v.kind = k) ∧
    ((∃ e, f.apply args = .error e ∧ e.errorClass = .arithmetic) ↔
      f.arity.accepts args.length = true ∧ (¬ ∃ v, f.Misfit args v) ∧ f.Undefined args) ∧
    ((∃ w, f.apply args = .ok w) ↔
      f.arity.accepts args.length = true ∧ (¬ ∃ v, f.Misfit args v) ∧ ¬ f.Undefined args) ∧
    ∀ values, (Formula.call f (args.map .constant)).eval values = f.apply args := by
  -- each sort gives one direction of its own clause, and refutes the other three
  have hcall := fun values => Formula.eval_call_constants values f args
  rcases f.apply_cases args with ⟨haccepts, happly⟩ | ⟨haccepts, ⟨v, hv, happly⟩ |
    ⟨hnone, ⟨hundefined, what, happly⟩ | ⟨hdefined, w, happly⟩⟩⟩
  · simp [hcall, happly, haccepts, EvalError.errorClass]
  · -- there is no other argument to blame
    have hkind : ∀ k, (∃ w, f.Misfit args w ∧ w.kind = k) ↔ v.kind = k := by
      intro k
      exact ⟨fun ⟨w, hw, hk⟩ => hv.unique hw ▸ hk, fun hk => ⟨v, hv, hk⟩⟩
    have hsome : ∃ w, f.Misfit args w := ⟨v, hv⟩
    simp [hcall, happly, haccepts, hkind, hsome, EvalError.errorClass]
  · have hnone : ∀ v, ¬ f.Misfit args v := not_exists.mp hnone
    simp [hcall, happly, haccepts, hnone, hundefined, EvalError.errorClass]
  · have hnone : ∀ v, ¬ f.Misfit args v := not_exists.mp hnone
    simp [hcall, happly, haccepts, hnone, hdefined]

end Func
end ParametricPlan
