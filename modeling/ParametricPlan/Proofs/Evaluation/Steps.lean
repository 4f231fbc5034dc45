/-
ParametricPlan/Proofs/Evaluation/Steps.lean

Evaluation one step after the other.

A formula is turned into a list of steps for a machine with a stack of values.  The steps of the
parts come before the step that joins them, from left to right, except that a call first checks
the number of its arguments.  The machine runs the list up to the first step that fails.

Main result: with any stack below, the steps of a formula end with the value of the formula on
that stack, or fail with the error of the formula, and the references they load are those that the
evaluation looks up (`runSteps_steps`).  Evaluation is thus strict, goes from left to right, and
stops at the first step that fails.
-/
import ParametricPlan.Proofs.Evaluation.Equations

namespace ParametricPlan

/-! ### The machine -/

/-- A step of an evaluation. -/
inductive Step where
  | push (value : Value)
  | load (ref : Ref)
  /-- Checks that a function takes some number of arguments. -/
  | check (function : Func) (count : Nat)
  | unary (op : UnaryOp)
  | binary (op : BinaryOp)
  /-- Applies a function to the last values, as many as it says. -/
  | call (function : Func) (count : Nat)

/-- Why the machine stops. -/
inductive Stop where
  | error (error : EvalError)
  /-- There are not as many values on the stack as a step takes. -/
  | underflow

namespace Step

/-- Puts the result of an operation on a stack. -/
def put (stack : List Value) : Except EvalError Value → Except Stop (List Value)
  | .ok v => .ok (v :: stack)
  | .error e => .error (.error e)

/-- The stack after a step; the last value is the first of the list. -/
def run (values : Ref → Option Value) : Step → List Value → Except Stop (List Value)
  | push v, stack => .ok (v :: stack)
  | load r, stack => match values r with
    | some v => .ok (v :: stack)
    | none => .error (.error (.unresolvedReference r))
  | check f count, stack =>
    if f.arity.accepts count then .ok stack
    else .error (.error (.argumentCount f.name f.arity count))
  | unary op, v :: stack => put stack (op.apply v)
  | binary op, w :: v :: stack => put stack (op.apply v w)
  | call f count, stack =>
    if count ≤ stack.length then put (stack.drop count) (f.apply (stack.take count).reverse)
    else .error .underflow
  | _, _ => .error .underflow

/-- The reference that a step loads. -/
def loads : Step → List Ref
  | load r => [r]
  | _ => []

end Step

/-- Runs steps up to the first that fails.  Gives the stack in the end, or why the machine stopped,
and the references that were loaded, in order. -/
def runSteps (values : Ref → Option Value) :
    List Step → List Value → Except Stop (List Value) × List Ref
  | [], stack => (.ok stack, [])
  | step :: steps, stack => match step.run values stack with
    | .ok stack =>
      ((runSteps values steps stack).1, step.loads ++ (runSteps values steps stack).2)
    | .error stop => (.error stop, step.loads)

namespace Formula

mutual

/-- The steps of a formula. -/
def steps : Formula → List Step
  | constant v | named _ v => [.push v]
  | reference r => [.load r]
  | unary op operand => operand.steps ++ [.unary op]
  | binary op left right => left.steps ++ right.steps ++ [.binary op]
  | call f args => .check f args.length :: (stepsAll args ++ [.call f args.length])

/-- The steps of several formulas. -/
def stepsAll : List Formula → List Step
  | [] => []
  | e :: es => e.steps ++ stepsAll es

end

end Formula

/-! ### Running steps in parts -/

variable {values : Ref → Option Value}

theorem runSteps_singleton (step : Step) (stack : List Value) :
    runSteps values [step] stack = (step.run values stack, step.loads) := by
  rcases h : step.run values stack with stop | stack' <;> simp [runSteps, h]

/-- The second part runs on the stack that the first part leaves. -/
theorem runSteps_append_of_ok {first second : List Step} {stack stack' : List Value}
    {refs : List Ref} (h : runSteps values first stack = (.ok stack', refs)) :
    runSteps values (first ++ second) stack =
      ((runSteps values second stack').1, refs ++ (runSteps values second stack').2) := by
  induction first generalizing stack refs with
  | nil =>
    obtain ⟨rfl, rfl⟩ : stack = stack' ∧ [] = refs := by simpa [runSteps] using h
    rfl
  | cons step steps ih =>
    simp only [List.cons_append, runSteps] at h ⊢
    rcases hs : step.run values stack with stop | stack₁
    · simp [hs] at h
    · rw [hs] at h
      obtain ⟨h₁, rfl⟩ := Prod.mk.injEq .. ▸ h
      have hrun := ih (Prod.ext h₁ rfl)
      simp [hrun]

/-- After a step that fails, no other step is run. -/
theorem runSteps_append_of_error {first second : List Step} {stack : List Value} {stop : Stop}
    {refs : List Ref} (h : runSteps values first stack = (.error stop, refs)) :
    runSteps values (first ++ second) stack = (.error stop, refs) := by
  induction first generalizing stack refs with
  | nil => simp [runSteps] at h
  | cons step steps ih =>
    simp only [List.cons_append, runSteps] at h ⊢
    rcases hs : step.run values stack with stop' | stack₁
    · rw [hs] at h
      exact h
    · rw [hs] at h
      obtain ⟨h₁, rfl⟩ := Prod.mk.injEq .. ▸ h
      have hrun := ih (Prod.ext h₁ rfl)
      simp [hrun]

/-! ### The steps of a formula -/

namespace Formula

open Reading Step

/-- Puts the values of arguments on a stack. -/
def putAll (stack : List Value) : Except EvalError (List Value) → Except Stop (List Value)
  | .ok vs => .ok (vs.reverse ++ stack)
  | .error e => .error (.error e)

/-- The steps of arguments leave all their values on the stack, or fail with the first error; the
last value is on top. -/
theorem runSteps_stepsAll {args : List Formula}
    (h : ∀ arg ∈ args, ∀ stack,
      runSteps values arg.steps stack = (put stack (arg.eval values), arg.lookups values))
    (stack : List Value) :
    runSteps values (stepsAll args) stack =
      (putAll stack (evalAll args values), lookupsAll args values) := by
  induction args generalizing stack with
  | nil => rfl
  | cons e es ih =>
    have he := h e List.mem_cons_self stack
    have hes := ih fun arg ha => h arg (List.mem_cons_of_mem e ha)
    rw [stepsAll, evalAll_cons, lookupsAll_cons]
    rcases hv : e.eval values with err | v
    · rw [hv] at he
      -- the first argument fails, and the steps of the others are not run
      rw [runSteps_append_of_error he]
      simp [after, putAll, bind, Except.bind]
    · rw [hv] at he
      rw [runSteps_append_of_ok he, hes]
      rcases evalAll es values with err | vs <;>
        simp [after, putAll, bind, Except.bind, pure, Except.pure]

/-- The steps of a formula put its result on any stack, and load what it looks up. The stack is
arbitrary since the steps of a right operand run above the value of the left one. -/
theorem runSteps_steps_eq_put (e : Formula) (stack : List Value) :
    runSteps values e.steps stack = (put stack (e.eval values), e.lookups values) := by
  induction e generalizing stack with
  | constant v => rfl
  | named name v => rfl
  | reference r =>
    rw [steps, eval_reference, lookups_reference]
    rcases h : values r with - | v <;> simp [runSteps, Step.run, Step.loads, put, h]
  | unary op operand ih =>
    have hv := ih stack
    rw [steps, eval_unary, lookups_unary]
    rcases he : operand.eval values with err | v
    · rw [he] at hv
      exact runSteps_append_of_error hv
    · rw [he] at hv
      rw [runSteps_append_of_ok hv, runSteps_singleton]
      simp [Step.run, Step.loads, bind, Except.bind]
  | binary op left right ihl ihr =>
    have hv := ihl stack
    rw [steps, eval_binary, lookups_binary, List.append_assoc]
    rcases he : left.eval values with err | v
    · rw [he] at hv
      -- the left operand fails: the steps of the right one are not run, as it is not evaluated
      rw [runSteps_append_of_error hv]
      simp [after, put, bind, Except.bind]
    · rw [he] at hv
      have hw := ihr (v :: stack)
      rw [runSteps_append_of_ok hv]
      rcases he' : right.eval values with err | w
      · rw [he'] at hw
        rw [runSteps_append_of_error hw]
        rfl
      · rw [he'] at hw
        rw [runSteps_append_of_ok hw, runSteps_singleton]
        simp [Step.run, Step.loads, after, bind, Except.bind]
  | call f args ih =>
    rw [steps, eval_call, lookups_call]
    by_cases hf : f.arity.accepts args.length = true
    · have hvs := runSteps_stepsAll ih stack
      simp only [runSteps, Step.run, if_pos hf]
      rcases he : evalAll args values with err | vs
      · rw [he] at hvs
        rw [runSteps_append_of_error hvs]
        rfl
      · rw [he] at hvs
        -- the values lie on the stack in reverse, with nothing of it above them
        have hlen : args.length = vs.reverse.length := by simp [length_of_evalAll he]
        rw [runSteps_append_of_ok hvs, runSteps_singleton]
        simp [Step.run, Step.loads, bind, Except.bind, hlen]
    · -- the check fails, before any argument
      simp only [runSteps, Step.run, if_neg hf]
      rfl

/-- **The steps of a formula do what its evaluation does.**  On any stack they end with the value
of the formula above it, or stop with the error of the formula and no other, and they load the
references that the evaluation looks up. -/
theorem runSteps_steps (e : Formula) (values : Ref → Option Value) (stack : List Value) :
    (∀ v, (runSteps values e.steps stack).1 = .ok (v :: stack) ↔ e.eval values = .ok v) ∧
    (∀ err, (runSteps values e.steps stack).1 = .error (.error err) ↔
      e.eval values = .error err) ∧
    ((∃ v, (runSteps values e.steps stack).1 = .ok (v :: stack)) ∨
      ∃ err, (runSteps values e.steps stack).1 = .error (.error err)) ∧
    (runSteps values e.steps stack).2 = e.lookups values := by
  rw [runSteps_steps_eq_put]
  rcases e.eval values with err | v <;> simp [put]

end Formula
end ParametricPlan
