/-
ParametricPlan/Proofs/Evaluation/Equations.lean

The equations of evaluation.

A reading hands on the references that were looked up, the latest first.  All that matters of it
is its result and the references that it looks up itself: whatever was looked up before, it adds
these and reads nothing else (`Reading.Appends`).  Of two readings in a row the second adds to the
first, unless the first one fails (`Reading.result_bind`, `Reading.seen_bind`).

From this follow the equations of `eval` and `lookups`, one for each kind of formula.  They are
what later proofs use of the evaluation.
-/
import ParametricPlan.Evaluation.Evaluate
import ParametricPlan.Proofs.Formula.Induction

namespace ParametricPlan

/-! ### Readings -/

namespace Reading

variable {α β : Type}

/-- The result of a reading. -/
def result (m : Reading α) : Except EvalError α :=
  (m.run.run []).1

/-- The references that a reading looks up, in order. -/
def seen (m : Reading α) : List Ref :=
  (m.run.run []).2.reverse

/-- Whatever was looked up before a reading, the reading only adds to it. -/
def Appends (m : Reading α) : Prop :=
  ∀ before, m.run.run before = (m.result, m.seen.reverse ++ before)

/-- What is looked up after a result: nothing after an error. -/
def after (result : Except EvalError α) (next : α → List Ref) : List Ref :=
  match result with
  | .ok a => next a
  | .error _ => []

/-- A reading in two parts, from any references that were looked up before. -/
theorem run_bind (m : Reading α) (f : α → Reading β) (before : List Ref) :
    (m >>= f).run.run before =
      match m.run.run before with
      | (.ok a, before) => (f a).run.run before
      | (.error e, before) => (.error e, before) := by
  rw [ExceptT.run_bind, StateT.run_bind]
  rcases m.run.run before with ⟨e | a, before'⟩ <;> rfl

/-- A lookup writes down its reference, whether that is bound or not. -/
theorem run_lookUp (values : Ref → Option Value) (r : Ref) (before : List Ref) :
    (lookUp values r).run.run before =
      ((values r).elim (.error (.unresolvedReference r)) .ok, r :: before) := by
  rcases h : values r with - | v <;> simp [lookUp, h] <;> rfl

theorem appends_pure (a : α) : Appends (pure a) :=
  fun _ => rfl

/-- What is handed on looks nothing up. -/
theorem appends_ofExcept (r : Except EvalError α) : Appends (ofExcept r) :=
  fun _ => rfl

theorem appends_throw (e : EvalError) : Appends (throw e : Reading α) :=
  fun _ => rfl

/-- A lookup adds its reference. -/
theorem appends_lookUp (values : Ref → Option Value) (r : Ref) : Appends (lookUp values r) := by
  intro before
  simp [result, seen, run_lookUp]

/-- The second of two readings goes on where the first one ended, if that did not fail. -/
theorem run_bind_eq {m : Reading α} {f : α → Reading β} (hm : m.Appends)
    (hf : ∀ a, (f a).Appends) (before : List Ref) :
    (m >>= f).run.run before =
      (m.result >>= fun a => (f a).result,
        (m.seen ++ after m.result fun a => (f a).seen).reverse ++ before) := by
  rw [run_bind, hm before]
  rcases m.result with e | a
  · -- after an error the second reading is not begun
    simp [after]
    rfl
  · simp only [hf a _, after, List.reverse_append, List.append_assoc]
    rfl

/-- The result of two readings in a row, without the references they look up. -/
theorem result_bind {m : Reading α} {f : α → Reading β} (hm : m.Appends)
    (hf : ∀ a, (f a).Appends) : (m >>= f).result = m.result >>= fun a => (f a).result := by
  rw [result, run_bind_eq hm hf]

/-- What two readings in a row look up: the second adds to it only if the first has a result. -/
theorem seen_bind {m : Reading α} {f : α → Reading β} (hm : m.Appends)
    (hf : ∀ a, (f a).Appends) :
    (m >>= f).seen = m.seen ++ after m.result fun a => (f a).seen := by
  rw [seen, run_bind_eq hm hf]
  simp

/-- If the second reading looks nothing up, only the first one counts. -/
theorem seen_bind_eq_left {m : Reading α} {f : α → Reading β} (hm : m.Appends)
    (hf : ∀ a, (f a).Appends) (h : ∀ a, (f a).seen = []) : (m >>= f).seen = m.seen := by
  rw [seen_bind hm hf]
  rcases m.result with e | a <;> simp [after, h]

/-- Readings that only add do so in a row as well. -/
theorem Appends.bind {m : Reading α} {f : α → Reading β} (hm : m.Appends)
    (hf : ∀ a, (f a).Appends) : (m >>= f).Appends := by
  intro before
  rw [run_bind_eq hm hf, result_bind hm hf, seen_bind hm hf]

end Reading

/-! ### Evaluation of several formulas -/

namespace Formula

open Reading

variable {values : Ref → Option Value}

/-- The values of several formulas, or the first error. -/
def evalAll (args : List Formula) (values : Ref → Option Value) : Except EvalError (List Value) :=
  (readingAll values args).result

/-- The references that are looked up for several formulas. -/
def lookupsAll (args : List Formula) (values : Ref → Option Value) : List Ref :=
  (readingAll values args).seen

/-- The induction is on the list, so that it can be used for the arguments of a call. -/
theorem appends_readingAll {args : List Formula}
    (h : ∀ arg ∈ args, (arg.reading values).Appends) : (readingAll values args).Appends := by
  induction args with
  | nil => exact appends_pure []
  | cons e es ih =>
    have hes := ih fun arg ha => h arg (List.mem_cons_of_mem e ha)
    exact (h e List.mem_cons_self).bind fun v => hes.bind fun vs => appends_pure (v :: vs)

/-- Evaluation only adds to what was looked up: there is no way to read the references before. -/
theorem appends_reading (e : Formula) : (e.reading values).Appends := by
  induction e with
  | constant v => exact appends_pure v
  | named name v => exact appends_pure v
  | reference r => exact appends_lookUp values r
  | unary op operand ih => exact ih.bind fun v => appends_ofExcept (op.apply v)
  | binary op left right ihl ihr =>
    exact ihl.bind fun v => ihr.bind fun w => appends_ofExcept (op.apply v w)
  | call f args ih =>
    unfold reading
    split
    · -- the check of the number of arguments comes first, and looks nothing up
      exact (appends_readingAll ih).bind fun vs => appends_ofExcept (f.apply vs)
    · exact appends_throw _

theorem evalAll_nil : evalAll [] values = .ok [] :=
  rfl

/-- Arguments are evaluated from left to right, up to the first error. -/
theorem evalAll_cons (e : Formula) (es : List Formula) :
    evalAll (e :: es) values = do
      let v ← e.eval values
      let vs ← evalAll es values
      return v :: vs := by
  have hes : (readingAll values es).Appends := appends_readingAll fun arg _ => arg.appends_reading
  rw [evalAll, readingAll, result_bind e.appends_reading fun v => hes.bind fun vs =>
    appends_pure (v :: vs)]
  refine bind_congr fun v => ?_
  rw [result_bind hes fun vs => appends_pure (v :: vs)]
  rfl

theorem length_of_evalAll {args : List Formula} {vs : List Value}
    (h : evalAll args values = .ok vs) : vs.length = args.length := by
  induction args generalizing vs with
  | nil =>
    obtain rfl : [] = vs := Except.ok.inj h
    rfl
  | cons e es ih =>
    rw [evalAll_cons] at h
    rcases he : e.eval values with err | v
    · -- an error of either part is none of the whole
      simp [he, bind, Except.bind] at h
    · rcases hes : evalAll es values with err | ws
      · simp [he, hes, bind, Except.bind] at h
      · obtain rfl : v :: ws = vs := by
          simpa [he, hes, bind, Except.bind, pure, Except.pure] using h
        simp [ih hes]

theorem lookupsAll_nil : lookupsAll [] values = [] :=
  rfl

/-- The further arguments look something up only after a value of the first. -/
theorem lookupsAll_cons (e : Formula) (es : List Formula) :
    lookupsAll (e :: es) values =
      e.lookups values ++ after (e.eval values) fun _ => lookupsAll es values := by
  have hes : (readingAll values es).Appends := appends_readingAll fun arg _ => arg.appends_reading
  -- that the values are put together looks nothing up
  have hseen : ∀ v, (readingAll values es >>= fun vs => pure (v :: vs)).seen =
      lookupsAll es values := by
    intro v
    exact seen_bind_eq_left hes (fun vs => appends_pure (v :: vs)) fun _ => rfl
  rw [lookupsAll, readingAll, seen_bind e.appends_reading fun v => hes.bind fun vs =>
    appends_pure (v :: vs)]
  simp only [hseen]
  rfl

/-! ### Evaluation of a formula -/

@[simp] theorem eval_constant (v : Value) : (constant v).eval values = .ok v :=
  rfl

@[simp] theorem eval_named (name : String) (v : Value) : (named name v).eval values = .ok v :=
  rfl

/-- A reference has the value it is bound to. -/
theorem eval_reference (r : Ref) :
    (reference r).eval values = (values r).elim (.error (.unresolvedReference r)) .ok := by
  show (lookUp values r).result = _
  rw [result, run_lookUp]

/-- The operand comes before its operator. -/
theorem eval_unary (op : UnaryOp) (operand : Formula) :
    (unary op operand).eval values = operand.eval values >>= op.apply :=
  result_bind operand.appends_reading fun v => appends_ofExcept (op.apply v)

/-- The left operand comes before the right one, and both come before their operator. -/
theorem eval_binary (op : BinaryOp) (left right : Formula) :
    (binary op left right).eval values =
      left.eval values >>= fun v => right.eval values >>= fun w => op.apply v w := by
  have hop : ∀ v w, (Reading.ofExcept (op.apply v w)).Appends := fun v w => appends_ofExcept _
  have hright : ∀ v, (right.reading values >>= fun w => Reading.ofExcept (op.apply v w)).Appends :=
    fun v => right.appends_reading.bind (hop v)
  refine (result_bind left.appends_reading hright).trans (bind_congr fun v => ?_)
  exact result_bind right.appends_reading (hop v)

/-- The number of arguments is checked before any of them is evaluated. -/
theorem eval_call (f : Func) (args : List Formula) :
    (call f args).eval values =
      if f.arity.accepts args.length then evalAll args values >>= f.apply
      else .error (.argumentCount f.name f.arity args.length) := by
  show ((call f args).reading values).result = _
  rw [reading]
  split
  case isTrue =>
    have hargs : (readingAll values args).Appends :=
      appends_readingAll fun arg _ => arg.appends_reading
    exact result_bind hargs fun vs => appends_ofExcept (f.apply vs)
  case isFalse => rfl

/-! ### What a formula looks up -/

@[simp] theorem lookups_constant (v : Value) : (constant v).lookups values = [] :=
  rfl

@[simp] theorem lookups_named (name : String) (v : Value) : (named name v).lookups values = [] :=
  rfl

@[simp] theorem lookups_reference (r : Ref) : (reference r).lookups values = [r] := by
  show (lookUp values r).seen = _
  rw [seen, run_lookUp]
  rfl

theorem lookups_unary (op : UnaryOp) (operand : Formula) :
    (unary op operand).lookups values = operand.lookups values :=
  seen_bind_eq_left operand.appends_reading (fun v => appends_ofExcept (op.apply v)) fun _ => rfl

/-- The right operand looks something up only after a value of the left one. -/
theorem lookups_binary (op : BinaryOp) (left right : Formula) :
    (binary op left right).lookups values =
      left.lookups values ++ after (left.eval values) fun _ => right.lookups values := by
  have hop : ∀ v w, (Reading.ofExcept (op.apply v w)).Appends := fun v w => appends_ofExcept _
  have hseen : ∀ v, (right.reading values >>= fun w => Reading.ofExcept (op.apply v w)).seen =
      right.lookups values := by
    intro v
    exact seen_bind_eq_left right.appends_reading (hop v) fun _ => rfl
  refine (seen_bind left.appends_reading fun v => right.appends_reading.bind (hop v)).trans ?_
  simp only [hseen]
  rfl

/-- With a wrong number of arguments nothing is looked up. -/
theorem lookups_call (f : Func) (args : List Formula) :
    (call f args).lookups values =
      if f.arity.accepts args.length then lookupsAll args values else [] := by
  show ((call f args).reading values).seen = _
  rw [reading]
  split
  case isTrue =>
    have hargs : (readingAll values args).Appends :=
      appends_readingAll fun arg _ => arg.appends_reading
    exact seen_bind_eq_left hargs (fun vs => appends_ofExcept (f.apply vs)) fun _ => rfl
  case isFalse => rfl

end Formula
end ParametricPlan
