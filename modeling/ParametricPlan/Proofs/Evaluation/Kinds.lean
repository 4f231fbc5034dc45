/-
ParametricPlan/Proofs/Evaluation/Kinds.lean

The kind of a formula.

`Formula.infer` goes by the kinds of the bound values alone, never by the values, and computes the
kind of a formula from the table of the operators and functions (`UnaryOp.kind?`, `BinaryOp.kind?`,
`Func.kind?`).  It is right in both directions:

* where it gives a kind, evaluation gives a value of that kind or an arithmetic error;
* where it gives none, evaluation gives an error.

`Fits` says that of one inference and one result, and `Fits.bind` that it goes from the parts of a
formula to the whole.  An operator or function has then to be looked at only once, applied to
values (`UnaryOp.fits_apply`, `BinaryOp.fits_apply`, `Func.fits_apply`); the induction is
`Formula.fits_eval`, and `Formula.infer_sound_complete` is the main result.
-/
import Mathlib.Data.List.Basic
import ParametricPlan.Plan.Execution
import ParametricPlan.Proofs.Evaluation.Equations

namespace ParametricPlan

/-! ### The table -/

/-- The kind that a prefix operator gives on operands of a kind. -/
def UnaryOp.kind? : UnaryOp → Kind → Option Kind
  | negate, .number => some .number
  | negate, .vector => some .vector
  | not, .bool => some .bool
  | _, _ => none

/-- The kind that an infix operator gives on operands of two kinds. -/
def BinaryOp.kind? : BinaryOp → Kind → Kind → Option Kind
  | add, .number, .number | subtract, .number, .number => some .number
  | add, .vector, .vector | subtract, .vector, .vector => some .vector
  | multiply, .number, .number => some .number
  | multiply, .vector, .number | multiply, .number, .vector => some .vector
  | divide, .number, .number => some .number
  | divide, .vector, .number => some .vector
  | power, .number, .number => some .number
  | equal, left, right | notEqual, left, right => if left = right then some .bool else none
  | lessThan, .number, .number | lessOrEqual, .number, .number
  | greaterThan, .number, .number | greaterOrEqual, .number, .number => some .bool
  | and, .bool, .bool | or, .bool, .bool => some .bool
  | _, _, _ => none

/-- The kind that a function gives on arguments of some kinds. -/
def Func.kind? : Func → List Kind → Option Kind
  | abs, [.number] | sqrt, [.number] => some .number
  | min, kinds | max, kinds | sum, kinds =>
    if ∀ k ∈ kinds, k = .number then some .number else none
  | clamp, [.number, .number, .number] => some .number
  | vector, [.number, .number] => some .vector
  | length, [.vector] => some .number
  | distance, [.vector, .vector] => some .number
  | _, _ => none

namespace Formula

mutual

/-- The kind of a formula, from the kinds of the references that are bound. -/
def infer (kinds : Ref → Option Kind) : Formula → Option Kind
  | constant v | named _ v => some v.kind
  | reference r => kinds r
  | unary op operand => do
    let k ← operand.infer kinds
    op.kind? k
  | binary op left right => do
    let k ← left.infer kinds
    let l ← right.infer kinds
    op.kind? k l
  | call function args => do
    let ks ← inferAll kinds args
    function.kind? ks

/-- The kinds of several formulas, if all of them have one. -/
def inferAll (kinds : Ref → Option Kind) : List Formula → Option (List Kind)
  | [] => some []
  | e :: es => do
    let k ← e.infer kinds
    let ks ← inferAll kinds es
    return k :: ks

end

/-- The kinds of the values that references are bound to. -/
def kindsOf (values : Ref → Option Value) (r : Ref) : Option Kind :=
  (values r).map Value.kind

end Formula

/-! ### Inferences and results -/

/-- A result is what was inferred of it: if that is something, then the result has it or is an
arithmetic error, and if it is nothing, then the result is an error. -/
def Fits {α κ : Type} (kindOf : α → κ) : Option κ → Except EvalError α → Prop
  | some k, .ok a => kindOf a = k
  | some _, .error e => e.errorClass = .arithmetic
  | none, .ok _ => False
  | none, .error _ => True

section

variable {α β κ κ' : Type} {kindOf : α → κ} {kindOf' : β → κ'}

/-- What fits part by part fits as a whole; the second part needs to be looked at only after a value
of the first. -/
theorem Fits.bind {inferred : Option κ} {result : Except EvalError α} {f : κ → Option κ'}
    {g : α → Except EvalError β} (h : Fits kindOf inferred result)
    (hg : ∀ a, result = .ok a → Fits kindOf' (f (kindOf a)) (g a)) :
    Fits kindOf' (inferred >>= f) (result >>= g) := by
  rcases inferred with - | k <;> rcases result with e | a
  · -- nothing was inferred of the part, and its error is that of the whole
    trivial
  · exact h.elim
  · -- an arithmetic error of the part fits whatever is inferred of the whole
    show Fits kindOf' (f k) (.error e)
    rcases f k with - | l
    · trivial
    · exact h
  · show Fits kindOf' (f k) (g a)
    rw [← show kindOf a = k from h]
    exact hg a rfl

/-- What was inferred, read off the result: soundness. -/
theorem Fits.exists_ok_or {k : κ} {result : Except EvalError α}
    (h : Fits kindOf (some k) result) :
    (∃ a, result = .ok a ∧ kindOf a = k) ∨
      ∃ e, result = .error e ∧ e.errorClass = .arithmetic := by
  rcases result with e | a
  · exact .inr ⟨e, rfl, h⟩
  · exact .inl ⟨a, rfl, h⟩

/-- What could not be inferred is an error: completeness. -/
theorem Fits.exists_error {result : Except EvalError α} (h : Fits kindOf none result) :
    ∃ e, result = .error e := by
  rcases result with e | a
  · exact ⟨e, rfl⟩
  · exact h.elim

end

/-! ### Operators -/

/-- A prefix operator looks at the kind of its operand only. -/
theorem UnaryOp.fits_apply (op : UnaryOp) (v : Value) :
    Fits Value.kind (op.kind? v.kind) (op.apply v) := by
  cases op <;> rcases v with b | x | ⟨x, y⟩ <;> trivial

/-- A power is a number, or not defined. -/
theorem fits_power (x y : Float) : Fits Value.kind (some .number) (power x y) := by
  show Fits Value.kind _ (if _ then _ else _)
  split <;> rfl

/-- A quotient is of the kind of the dividend, or not defined. -/
theorem fits_quotient (v : Value) (divisor : Float) :
    Fits Value.kind (BinaryOp.divide.kind? v.kind .number) (quotient v divisor) := by
  rcases v with b | x | ⟨x, y⟩ <;> simp only [quotient]
  · trivial
  · rcases divisor == 0 with - | - <;> rfl
  · rcases divisor == 0 with - | - <;> rfl

/-- Infix operators do to values what the table says of their kinds. -/
theorem BinaryOp.fits_apply (op : BinaryOp) (v w : Value) :
    Fits Value.kind (op.kind? v.kind w.kind) (op.apply v w) := by
  -- a quotient and a power look at the numbers too, all others at the kinds only
  cases op
  case divide =>
    rcases w with b | y | ⟨y, z⟩
    · rcases v with b' | x | ⟨x, x'⟩ <;> trivial
    · exact fits_quotient v y
    · rcases v with b' | x | ⟨x, x'⟩ <;> trivial
  case power =>
    rcases v with b | x | ⟨x, x'⟩ <;> rcases w with b' | y | ⟨y, z⟩ <;>
      first | trivial | exact fits_power x y
  all_goals
    rcases v with b | x | ⟨x, x'⟩ <;> rcases w with b' | y | ⟨y, y'⟩ <;> trivial

/-! ### Functions -/

namespace Func

/-- The table has an entry only for as many arguments as the function takes. -/
theorem accepts_of_kind? {function : Func} {ks : List Kind} {k : Kind}
    (h : function.kind? ks = some k) : function.arity.accepts ks.length = true := by
  unfold kind? at h
  split at h <;> first | rfl | exact absurd h nofun

/-- Numbers are what `numberArgs` lets through. -/
theorem numberArgs_ok_or_error (function : Func) (vs : List Value) :
    (∃ xs, function.numberArgs vs = .ok xs ∧ ∀ k ∈ vs.map Value.kind, k = .number) ∨
      ∃ e, function.numberArgs vs = .error e ∧ ¬ ∀ k ∈ vs.map Value.kind, k = .number := by
  induction vs with
  | nil => exact .inl ⟨[], rfl, nofun⟩
  | cons v vs ih =>
    have hhead : (¬ v.kind = .number) → ¬ ∀ k ∈ (v :: vs).map Value.kind, k = .number :=
      fun hv h => hv (h v.kind List.mem_cons_self)
    rcases v with b | x | ⟨x, y⟩
    · exact .inr ⟨_, rfl, hhead nofun⟩
    · rcases ih with ⟨xs, hxs, hall⟩ | ⟨e, he, hnot⟩
      · exact .inl ⟨x :: xs, by rw [numberArgs, hxs]; rfl, List.forall_mem_cons.mpr ⟨rfl, hall⟩⟩
      · refine .inr ⟨e, by rw [numberArgs, he]; rfl, fun h => hnot ?_⟩
        exact (List.forall_mem_cons.mp h).2
    · exact .inr ⟨_, rfl, hhead nofun⟩

/-- A function of any number of numbers. -/
theorem fits_numbers (function : Func) {vs : List Value} {g : List Float → Except EvalError Value}
    (hg : ∀ xs, Fits Value.kind (some .number) (g xs)) :
    Fits Value.kind (if ∀ k ∈ vs.map Value.kind, k = .number then some .number else none)
      (function.numberArgs vs >>= g) := by
  rcases function.numberArgs_ok_or_error vs with ⟨xs, hxs, hall⟩ | ⟨e, he, hnot⟩
  · rw [if_pos hall, hxs]
    exact hg xs
  · rw [if_neg hnot, he]
    trivial

/-- A root is a number, or not defined. -/
theorem fits_squareRoot (x : Float) : Fits Value.kind (some .number) (squareRoot x) := by
  unfold squareRoot
  split <;> rfl

/-- A clamped number is a number, or the bounds are not in order. -/
theorem fits_clampedValue (x lo hi : Float) :
    Fits Value.kind (some .number) (clampedValue x lo hi) := by
  unfold clampedValue
  split <;> rfl

/-- Functions do to values what the table says of their kinds, as long as the number of them is
right. -/
theorem fits_apply {function : Func} {vs : List Value}
    (h : function.arity.accepts vs.length = true) :
    Fits Value.kind (function.kind? (vs.map Value.kind)) (function.apply vs) := by
  -- the number of arguments is known, and so the table can be looked up for each of them
  have hone : vs.length = 1 → ∃ v, vs = [v] := List.length_eq_one_iff.mp
  have htwo : vs.length = 2 → ∃ v w, vs = [v, w] := List.length_eq_two.mp
  cases function
  case abs =>
    obtain ⟨v, rfl⟩ := hone (eq_of_beq h).symm
    rcases v with b | x | ⟨x, y⟩ <;> trivial
  case sqrt =>
    obtain ⟨v, rfl⟩ := hone (eq_of_beq h).symm
    rcases v with b | x | ⟨x, y⟩ <;> first | trivial | exact fits_squareRoot x
  case length =>
    obtain ⟨v, rfl⟩ := hone (eq_of_beq h).symm
    rcases v with b | x | ⟨x, y⟩ <;> trivial
  case vector =>
    obtain ⟨v, w, rfl⟩ := htwo (eq_of_beq h).symm
    rcases v with b | x | ⟨x, y⟩ <;> rcases w with b' | x' | ⟨x', y'⟩ <;> trivial
  case distance =>
    obtain ⟨v, w, rfl⟩ := htwo (eq_of_beq h).symm
    rcases v with b | x | ⟨x, y⟩ <;> rcases w with b' | x' | ⟨x', y'⟩ <;> trivial
  case clamp =>
    obtain ⟨v, w, u, rfl⟩ := List.length_eq_three.mp (eq_of_beq h).symm
    rcases v with b | x | ⟨x, y⟩ <;> rcases w with b' | lo | ⟨x', y'⟩ <;>
      rcases u with b'' | hi | ⟨x'', y''⟩ <;> first | trivial | exact fits_clampedValue x lo hi
  case min => exact fits_numbers min fun xs => by rcases xs with - | ⟨x, xs⟩ <;> rfl
  case max => exact fits_numbers max fun xs => by rcases xs with - | ⟨x, xs⟩ <;> rfl
  case sum => exact fits_numbers sum fun xs => rfl

end Func

namespace Formula

variable {values : Ref → Option Value}

/-- Arguments fit if each of them does. -/
theorem fits_evalAll {args : List Formula}
    (h : ∀ arg ∈ args, Fits Value.kind (arg.infer (kindsOf values)) (arg.eval values)) :
    Fits (List.map Value.kind) (inferAll (kindsOf values) args) (evalAll args values) := by
  induction args with
  | nil => rfl
  | cons e es ih =>
    rw [evalAll_cons]
    refine (h e List.mem_cons_self).bind fun v _ => ?_
    exact (ih fun arg ha => h arg (List.mem_cons_of_mem e ha)).bind fun vs _ => rfl

theorem length_of_inferAll {kinds : Ref → Option Kind} {args : List Formula} {ks : List Kind}
    (h : inferAll kinds args = some ks) : ks.length = args.length := by
  induction args generalizing ks with
  | nil =>
    obtain rfl : [] = ks := Option.some.inj h
    rfl
  | cons e es ih =>
    obtain ⟨k, -, hk⟩ := Option.bind_eq_some_iff.mp h
    obtain ⟨rest, hrest, hks⟩ := Option.bind_eq_some_iff.mp hk
    obtain rfl : k :: rest = ks := Option.some.inj hks
    rw [List.length_cons, List.length_cons, ih hrest]

/-- A call with a wrong number of arguments has no kind. -/
theorem infer_call_eq_none {kinds : Ref → Option Kind} {f : Func} {args : List Formula}
    (h : ¬ f.arity.accepts args.length = true) : (call f args).infer kinds = none := by
  refine Option.eq_none_iff_forall_ne_some.mpr fun k hk => h ?_
  obtain ⟨ks, hks, hf⟩ := Option.bind_eq_some_iff.mp hk
  rw [← length_of_inferAll hks]
  exact Func.accepts_of_kind? hf

/-- The result of every formula fits its kind: by induction, since each kind of formula is put
together from parts that fit and an operator that does. -/
theorem fits_eval (e : Formula) (values : Ref → Option Value) :
    Fits Value.kind (e.infer (kindsOf values)) (e.eval values) := by
  induction e with
  | constant v => rfl
  | named name v => rfl
  | reference r =>
    rw [eval_reference]
    show Fits Value.kind ((values r).map Value.kind) _
    rcases values r with - | v
    · trivial
    · rfl
  | unary op operand ih =>
    rw [eval_unary]
    exact ih.bind fun v _ => op.fits_apply v
  | binary op left right ihl ihr =>
    rw [eval_binary]
    exact ihl.bind fun v _ => ihr.bind fun w _ => op.fits_apply v w
  | call f args ih =>
    rw [eval_call]
    split
    case isTrue hf =>
      -- the function is applied to as many values as there are arguments
      refine (fits_evalAll ih).bind fun vs hvs => Func.fits_apply ?_
      rwa [length_of_evalAll hvs]
    case isFalse hf =>
      -- the call is refused before its arguments are evaluated, and there is no kind for it
      rw [infer_call_eq_none hf]
      trivial

/-! ### The main result -/

/-- What a group does whose condition is inferred to be a truth value. -/
theorem execute_group_of_infer {S : Type} (rt : Runtime S) (s : S) {e : Formula}
    (children : List Node) (h : e.infer (kindsOf (rt.values s)) = some .bool) :
    (e.eval (rt.values s) = .ok (.bool true) ∧
        (Node.mk (.group e) children).execute rt s = executeAll rt children s) ∨
      (e.eval (rt.values s) = .ok (.bool false) ∧
        (Node.mk (.group e) children).execute rt s = s) ∨
      ∃ err, e.eval (rt.values s) = .error err ∧ err.errorClass = .arithmetic ∧
        (Node.mk (.group e) children).execute rt s = rt.fail s (.evaluation err) := by
  have hfits := e.fits_eval (rt.values s)
  rw [h] at hfits
  rcases hfits.exists_ok_or with ⟨v, hv, hkind⟩ | ⟨err, herr, hclass⟩
  · rcases v with ⟨- | -⟩ | x | ⟨x, y⟩
    · exact .inr (.inl ⟨hv, by rw [Node.execute, hv]⟩)
    · exact .inl ⟨hv, by rw [Node.execute, hv]⟩
    · exact absurd hkind nofun
    · exact absurd hkind nofun
  · exact .inr (.inr ⟨err, herr, hclass, by rw [Node.execute, herr]⟩)

/-- What has a value has a kind, and it is the kind of the value. -/
theorem infer_of_eval_ok {e : Formula} {v : Value} (h : e.eval values = .ok v) :
    e.infer (kindsOf values) = some v.kind := by
  have hfits := e.fits_eval values
  rw [h] at hfits
  rcases hk : e.infer (kindsOf values) with - | k
  · rw [hk] at hfits
    exact hfits.elim
  · rw [hk] at hfits
    exact congrArg some hfits.symm

/-- **The inferred kind is sound and complete.**  A formula with a kind has a value of that kind or
an arithmetic error, and a formula without one has an error.  So a group whose condition is
inferred to be a truth value never finds it to be anything else, and bindings of the same
references to values of the same kinds give a formula values of one kind only. -/
theorem infer_sound_complete (e : Formula) (values : Ref → Option Value) :
    (∀ k, e.infer (kindsOf values) = some k →
      (∃ v, e.eval values = .ok v ∧ v.kind = k) ∨
        ∃ err, e.eval values = .error err ∧ err.errorClass = .arithmetic) ∧
    (e.infer (kindsOf values) = none → ∃ err, e.eval values = .error err) ∧
    (∀ (S : Type) (rt : Runtime S) (s : S) (children : List Node),
      e.infer (kindsOf (rt.values s)) = some .bool →
        (e.eval (rt.values s) = .ok (.bool true) ∧
            (Node.mk (.group e) children).execute rt s = executeAll rt children s) ∨
          (e.eval (rt.values s) = .ok (.bool false) ∧
            (Node.mk (.group e) children).execute rt s = s) ∨
          ∃ err, e.eval (rt.values s) = .error err ∧ err.errorClass = .arithmetic ∧
            (Node.mk (.group e) children).execute rt s = rt.fail s (.evaluation err)) ∧
    ∀ values', (∀ r, kindsOf values' r = kindsOf values r) → ∀ v v',
      e.eval values = .ok v → e.eval values' = .ok v' → v'.kind = v.kind := by
  refine ⟨fun k hk => ?_, fun hk => ?_, fun S rt s children => execute_group_of_infer rt s children,
    fun values' same v v' hv hv' => ?_⟩
  · have hfits := e.fits_eval values
    rw [hk] at hfits
    exact hfits.exists_ok_or
  · have hfits := e.fits_eval values
    rw [hk] at hfits
    exact hfits.exists_error
  · -- the inference does not see the values, so that the kinds of both are those inferred
    have hsame : kindsOf values' = kindsOf values := funext same
    have hk := infer_of_eval_ok hv'
    rw [hsame, infer_of_eval_ok hv] at hk
    exact (Option.some.inj hk).symm

/-- A quotient of bound numbers is inferred to be one, whatever the divisor is. -/
theorem infer_sound_complete_quotient :
    let e := binary .divide (reference ⟨1⟩) (reference ⟨2⟩)
    let values : Ref → Option Value := fun r => if r = ⟨1⟩ then some (.number 1) else
      if r = ⟨2⟩ then some (.number 0) else none
    e.infer (kindsOf values) = some .number ∧
      ((∃ v, e.eval values = .ok v ∧ v.kind = .number) ∨
        ∃ err, e.eval values = .error err ∧ err.errorClass = .arithmetic) := by
  intro e values
  have hk : e.infer (kindsOf values) = some .number := rfl
  exact ⟨hk, (infer_sound_complete e values).1 .number hk⟩

end Formula
end ParametricPlan
