/-
ParametricPlan/Proofs/Evaluation/Lookups.lean

What an evaluation looks up, and what it depends on.

The references of a formula are listed without evaluating it, and the evaluation looks up those
that it comes to.  `Accounts` ties the two together: what is looked up is a prefix of the
references, all of them if there is a value, and if a reference turns out to be unbound then it is
the last one looked up and the only unbound one.  Of two readings in a row this holds if it holds
of each (`Accounts.seq`), since the second one begins only after a value of the first.  Operators
and functions look nothing up, and so they must not blame a reference (`Resolved`).

Main results: `lookups_account_for_references`, and `eval_depends_on_lookups`, which says that
bindings that agree on what is looked up give the same result after the same lookups.
-/
import ParametricPlan.Proofs.Evaluation.Bindings
import ParametricPlan.Proofs.Evaluation.Equations
import ParametricPlan.Proofs.Formula.References

namespace ParametricPlan

/-! ### Results that blame no reference -/

/-- A result that is not the error of an unbound reference. -/
def Resolved {α : Type} (result : Except EvalError α) : Prop :=
  ∀ r, result ≠ .error (.unresolvedReference r)

section

variable {α β : Type}

theorem resolved_ok (a : α) : Resolved (.ok a) :=
  fun _ => nofun

/-- Two parts blame no reference if neither of them does. -/
theorem Resolved.bind {result : Except EvalError α} {f : α → Except EvalError β}
    (h : Resolved result) (hf : ∀ a, Resolved (f a)) : Resolved (result >>= f) := by
  rcases result with e | a
  · exact fun r hr => h r (congrArg Except.error (Except.error.inj hr))
  · exact hf a

end

/-- Operators see values and no references, and so they cannot blame one. -/
theorem UnaryOp.resolved_apply (op : UnaryOp) (v : Value) : Resolved (op.apply v) := by
  intro r
  cases op <;> rcases v with b | x | ⟨x, y⟩ <;> exact nofun

theorem resolved_quotient (v : Value) (divisor : Float) : Resolved (quotient v divisor) := by
  intro r
  rcases v with b | x | ⟨x, y⟩ <;> simp only [quotient]
  · exact nofun
  · split <;> exact nofun
  · split <;> exact nofun

theorem resolved_power (x y : Float) : Resolved (power x y) := by
  intro r
  simp only [power]
  split <;> exact nofun

/-- No infix operator blames a reference. -/
theorem BinaryOp.resolved_apply (op : BinaryOp) (v w : Value) : Resolved (op.apply v w) := by
  -- a quotient and a power look at the numbers too, all others at the kinds only
  cases op
  case divide =>
    rcases w with b | y | ⟨y, z⟩
    · rcases v with b' | x | ⟨x, x'⟩ <;> exact fun _ => nofun
    · exact resolved_quotient v y
    · rcases v with b' | x | ⟨x, x'⟩ <;> exact fun _ => nofun
  case power =>
    rcases v with b | x | ⟨x, x'⟩ <;> rcases w with b' | y | ⟨y, z⟩ <;>
      first | exact resolved_power x y | exact fun _ => nofun
  all_goals
    rcases v with b | x | ⟨x, x'⟩ <;> rcases w with b' | y | ⟨y, y'⟩ <;> exact fun _ => nofun

namespace Func

theorem resolved_numberArg (function : Func) (v : Value) : Resolved (function.numberArg v) := by
  intro r
  rcases v with b | x | ⟨x, y⟩ <;> exact nofun

theorem resolved_vectorArg (function : Func) (v : Value) : Resolved (function.vectorArg v) := by
  intro r
  rcases v with b | x | ⟨x, y⟩ <;> exact nofun

theorem resolved_numberArgs (function : Func) (vs : List Value) :
    Resolved (function.numberArgs vs) := by
  induction vs with
  | nil => exact resolved_ok []
  | cons v vs ih =>
    exact (function.resolved_numberArg v).bind fun x => ih.bind fun xs => resolved_ok (x :: xs)

theorem resolved_extremum (function : Func) (pick : Float → Float → Float) (vs : List Value) :
    Resolved (function.extremum pick vs) := by
  refine (function.resolved_numberArgs vs).bind fun xs => ?_
  rcases xs with - | ⟨x, xs⟩
  · exact fun _ => nofun
  · exact resolved_ok _

theorem resolved_squareRoot (x : Float) : Resolved (squareRoot x) := by
  intro r
  unfold squareRoot
  split <;> exact nofun

theorem resolved_clampedValue (x lo hi : Float) : Resolved (clampedValue x lo hi) := by
  intro r
  unfold clampedValue
  split <;> exact nofun

/-- No function blames a reference: what it does is a row of checks, none of which does. -/
theorem resolved_apply (function : Func) (vs : List Value) : Resolved (function.apply vs) := by
  unfold Func.apply
  split
  next v => exact (abs.resolved_numberArg v).bind fun x => resolved_ok _
  next v => exact (sqrt.resolved_numberArg v).bind resolved_squareRoot
  next => exact min.resolved_extremum lesser vs
  next => exact max.resolved_extremum greater vs
  next => exact (sum.resolved_numberArgs vs).bind fun xs => resolved_ok _
  next v lo hi =>
    refine (clamp.resolved_numberArg v).bind fun x => ?_
    refine (clamp.resolved_numberArg lo).bind fun lo => ?_
    exact (clamp.resolved_numberArg hi).bind fun hi => resolved_clampedValue x lo hi
  next x y =>
    refine (vector.resolved_numberArg x).bind fun x => ?_
    exact (vector.resolved_numberArg y).bind fun y => resolved_ok _
  next v => exact (length.resolved_vectorArg v).bind fun p => resolved_ok _
  next a b =>
    refine (distance.resolved_vectorArg a).bind fun p => ?_
    exact (distance.resolved_vectorArg b).bind fun q => resolved_ok _
  next => exact fun _ => nofun

end Func

/-! ### References and lookups -/

/-- What is looked up in a reading with references to look up, and what comes of it: references are
looked up in order, all of them for a value, and up to the first unbound one for the error that
this one is unbound. -/
structure Accounts {α : Type} (values : Ref → Option Value) (refs seen : List Ref)
    (result : Except EvalError α) : Prop where
  within : seen <+: refs
  whole : ∀ a, result = .ok a → seen = refs
  bound : Resolved result → ∀ r ∈ seen, (values r).isSome = true
  stopped : ∀ r, result = .error (.unresolvedReference r) →
    ∃ earlier, seen = earlier ++ [r] ∧ values r = none ∧ ∀ q ∈ earlier, (values q).isSome = true

section

variable {α β : Type} {values : Ref → Option Value}

/-- A formula without references looks nothing up. -/
theorem accounts_nil {result : Except EvalError α} (h : Resolved result) :
    Accounts values [] [] result where
  within := List.nil_prefix
  whole _ _ := rfl
  bound _ _ hr := absurd hr List.not_mem_nil
  stopped r hr := absurd hr (h r)

/-- Nothing is looked up where an error comes first. -/
theorem accounts_error (refs : List Ref) {e : EvalError}
    (h : Resolved (.error e : Except EvalError α)) :
    Accounts values refs [] (.error e : Except EvalError α) where
  within := List.nil_prefix
  whole _ := nofun
  bound _ _ hr := absurd hr List.not_mem_nil
  stopped r hr := absurd hr (h r)

/-- A lookup of one reference, which is either bound or blamed. -/
theorem accounts_lookUp (r : Ref) :
    Accounts values [r] [r] ((values r).elim (.error (.unresolvedReference r)) .ok) where
  within := List.prefix_rfl
  whole _ _ := rfl
  bound hres := by
    intro q hq
    obtain rfl : q = r := List.mem_singleton.mp hq
    rcases hv : values q with - | v
    · -- the result would blame the reference
      rw [hv] at hres
      exact absurd rfl (hres q)
    · rfl
  stopped q hq := by
    rcases hv : values r with - | v
    · rw [hv] at hq
      obtain rfl : r = q := EvalError.unresolvedReference.inj (Except.error.inj hq)
      exact ⟨[], rfl, hv, nofun⟩
    · rw [hv] at hq
      cases hq

/-- An error is handed on, whatever was still to be looked up. -/
theorem Accounts.hand_on {refs seen : List Ref} {e : EvalError}
    (h : Accounts values refs seen (.error e : Except EvalError α)) (refs' : List Ref) :
    Accounts values (refs ++ refs') seen (.error e : Except EvalError β) where
  within := h.within.trans (List.prefix_append refs refs')
  whole b hb := by cases hb
  bound hres := h.bound fun r hr => hres r (congrArg Except.error (Except.error.inj hr))
  stopped r hr := h.stopped r (congrArg Except.error (Except.error.inj hr))

/-- Bound references may be looked up before. -/
theorem Accounts.prepend {refs seen before : List Ref} {result : Except EvalError α}
    (h : Accounts values refs seen result) (hbefore : ∀ r ∈ before, (values r).isSome = true) :
    Accounts values (before ++ refs) (before ++ seen) result where
  within := (List.prefix_append_right_inj before).mpr h.within
  whole a ha := by rw [h.whole a ha]
  bound hres := List.forall_mem_append.mpr ⟨hbefore, h.bound hres⟩
  stopped r hr := by
    obtain ⟨earlier, hseen, hnone, hearlier⟩ := h.stopped r hr
    refine ⟨before ++ earlier, ?_, hnone, List.forall_mem_append.mpr ⟨hbefore, hearlier⟩⟩
    rw [hseen, List.append_assoc]

/-- A reading goes on where another one has ended with a value. -/
theorem Accounts.seq {refs refs' seen : List Ref} {later : α → List Ref}
    {result : Except EvalError α} {next : α → Except EvalError β}
    (h : Accounts values refs seen result)
    (h' : ∀ a, Accounts values refs' (later a) (next a)) :
    Accounts values (refs ++ refs') (seen ++ Reading.after result later) (result >>= next) := by
  rcases result with e | a
  · rw [Reading.after, List.append_nil]
    exact h.hand_on refs'
  · -- the first reading gave a value, so that all of its references were looked up, and are bound
    have hseen : seen = refs := h.whole a rfl
    rw [← hseen]
    exact (h' a).prepend (h.bound (resolved_ok a))

/-- What follows a reading may fail, but it looks nothing up. -/
theorem Accounts.bind {refs seen : List Ref} {result : Except EvalError α}
    {next : α → Except EvalError β} (h : Accounts values refs seen result)
    (hnext : ∀ a, Resolved (next a)) : Accounts values refs seen (result >>= next) := by
  have hseq : Accounts values (refs ++ []) (seen ++ Reading.after result fun _ => [])
      (result >>= next) := h.seq fun a => accounts_nil (hnext a)
  have hafter : Reading.after result (fun _ => []) = [] := by
    rcases result with e | a <;> rfl
  rwa [hafter, List.append_nil, List.append_nil] at hseq

end

namespace Formula

variable {values : Ref → Option Value}

/-- Arguments are looked up one after the other, up to the first that fails. -/
theorem accounts_evalAll {args : List Formula}
    (h : ∀ arg ∈ args, Accounts values arg.references (arg.lookups values) (arg.eval values)) :
    Accounts values (args.flatMap references) (lookupsAll args values) (evalAll args values) := by
  induction args with
  | nil => exact accounts_nil (resolved_ok [])
  | cons e es ih =>
    rw [List.flatMap_cons, lookupsAll_cons, evalAll_cons]
    have hes := ih fun arg ha => h arg (List.mem_cons_of_mem e ha)
    exact (h e List.mem_cons_self).seq fun v => hes.bind fun vs => resolved_ok (v :: vs)

/-- The lookups of every formula are accounted for by its references. -/
theorem accounts_eval (e : Formula) (values : Ref → Option Value) :
    Accounts values e.references (e.lookups values) (e.eval values) := by
  induction e with
  | constant v => exact accounts_nil (resolved_ok v)
  | named name v => exact accounts_nil (resolved_ok v)
  | reference r =>
    rw [references_reference, lookups_reference, eval_reference]
    exact accounts_lookUp r
  | unary op operand ih =>
    rw [references_unary, lookups_unary, eval_unary]
    exact ih.bind op.resolved_apply
  | binary op left right ihl ihr =>
    rw [references_binary, lookups_binary, eval_binary]
    exact ihl.seq fun v => ihr.bind fun w => op.resolved_apply v w
  | call f args ih =>
    rw [references_call, lookups_call, eval_call]
    split
    · exact (accounts_evalAll ih).bind f.resolved_apply
    · -- the number of arguments is wrong, and none of them is evaluated
      exact accounts_error _ fun _ => nofun

/-- **An evaluation looks up the references of the formula, in order.**  It looks up all of them if
it gives a value, and they are bound.  If it gives the error that a reference is unbound, then this
is the last one that was looked up, and those before it are bound.  If it gives another error, then
it may have looked up fewer of them, and those are bound. -/
theorem lookups_account_for_references (e : Formula) (values : Ref → Option Value) :
    e.lookups values <+: e.references ∧
    (∀ v, e.eval values = .ok v →
      e.lookups values = e.references ∧ ∀ r ∈ e.references, (values r).isSome = true) ∧
    (∀ r, e.eval values = .error (.unresolvedReference r) →
      ∃ earlier, e.lookups values = earlier ++ [r] ∧ values r = none ∧
        ∀ q ∈ earlier, (values q).isSome = true) ∧
    ∀ err, e.eval values = .error err → (∀ r, err ≠ .unresolvedReference r) →
      ∀ r ∈ e.lookups values, (values r).isSome = true := by
  have h := e.accounts_eval values
  refine ⟨h.within, fun v hv => ?_, h.stopped, fun err herr hne => ?_⟩
  · have hwhole := h.whole v hv
    rw [hv] at h
    exact ⟨hwhole, hwhole ▸ h.bound (resolved_ok v)⟩
  · refine h.bound fun r hr => hne r ?_
    exact Except.error.inj (herr.symm.trans hr)

/-- The second of three arguments is unbound: the third one is not looked up. -/
theorem lookups_account_for_unbound_argument :
    let e := call .clamp [reference ⟨1⟩, reference ⟨2⟩, reference ⟨1⟩]
    let values : Ref → Option Value := fun r => if r = ⟨1⟩ then some (.bool true) else none
    e.references = [⟨1⟩, ⟨2⟩, ⟨1⟩] ∧ e.eval values = .error (.unresolvedReference ⟨2⟩) ∧
      ∃ earlier, e.lookups values = earlier ++ [⟨2⟩] ∧ values ⟨2⟩ = none ∧
        ∀ q ∈ earlier, (values q).isSome = true := by
  intro e values
  have hv : e.eval values = .error (.unresolvedReference ⟨2⟩) := rfl
  exact ⟨rfl, hv, (lookups_account_for_references e values).2.2.1 ⟨2⟩ hv⟩

/-! ### Bindings that agree on what is looked up -/

/-- Two readings in a row come to the same if, after each value of the first, the second does. -/
theorem seq_congr {α β : Type} {result : Except EvalError α} {next next' : α → Except EvalError β}
    {seen : List Ref} {later later' : α → List Ref}
    (h : ∀ a, result = .ok a → next' a = next a ∧ later' a = later a) :
    (result >>= next') = (result >>= next) ∧
      seen ++ Reading.after result later' = seen ++ Reading.after result later := by
  rcases result with e | a
  · exact ⟨rfl, rfl⟩
  · obtain ⟨hnext, hlater⟩ := h a rfl
    exact ⟨hnext, congrArg (seen ++ ·) hlater⟩

variable {values' : Ref → Option Value}

/-- Arguments come to the same with values that agree on what they look up. -/
theorem evalAll_eq_of_agree {args : List Formula}
    (h : ∀ arg ∈ args, (∀ r ∈ arg.lookups values, values' r = values r) →
      arg.eval values' = arg.eval values ∧ arg.lookups values' = arg.lookups values)
    (agree : ∀ r ∈ lookupsAll args values, values' r = values r) :
    evalAll args values' = evalAll args values ∧
      lookupsAll args values' = lookupsAll args values := by
  induction args with
  | nil => exact ⟨rfl, rfl⟩
  | cons e es ih =>
    rw [lookupsAll_cons] at agree
    obtain ⟨he, hl⟩ := h e List.mem_cons_self fun r hr => agree r (List.mem_append_left _ hr)
    rw [evalAll_cons, evalAll_cons, lookupsAll_cons, lookupsAll_cons, he, hl]
    refine seq_congr fun v hv => ?_
    -- only now the other arguments are evaluated, and their lookups agreed on
    rw [hv] at agree
    obtain ⟨hes, hls⟩ := ih (fun arg ha => h arg (List.mem_cons_of_mem e ha))
      fun r hr => agree r (List.mem_append_right _ hr)
    exact ⟨by rw [hes], hls⟩

/-- Values that agree on what is looked up make no difference. The agreement on the parts that come
later is of use only once the earlier ones are known to have the same result. -/
theorem eval_eq_of_agree {e : Formula} (agree : ∀ r ∈ e.lookups values, values' r = values r) :
    e.eval values' = e.eval values ∧ e.lookups values' = e.lookups values := by
  induction e with
  | constant v => exact ⟨rfl, rfl⟩
  | named name v => exact ⟨rfl, rfl⟩
  | reference r =>
    rw [lookups_reference] at agree
    rw [eval_reference, eval_reference, agree r List.mem_cons_self]
    exact ⟨rfl, by rw [lookups_reference, lookups_reference]⟩
  | unary op operand ih =>
    rw [lookups_unary] at agree
    obtain ⟨hv, hl⟩ := ih agree
    rw [eval_unary, eval_unary, lookups_unary, lookups_unary, hv, hl]
    exact ⟨rfl, rfl⟩
  | binary op left right ihl ihr =>
    rw [lookups_binary] at agree
    obtain ⟨hv, hl⟩ := ihl fun r hr => agree r (List.mem_append_left _ hr)
    rw [eval_binary, eval_binary, lookups_binary, lookups_binary, hv, hl]
    refine seq_congr fun v hv => ?_
    -- the right operand is evaluated, and so its lookups are among those agreed on
    rw [hv] at agree
    obtain ⟨hw, hr⟩ := ihr fun r hr => agree r (List.mem_append_right _ hr)
    exact ⟨by rw [hw], hr⟩
  | call f args ih =>
    rw [lookups_call] at agree
    rw [eval_call, eval_call, lookups_call, lookups_call]
    split
    case isTrue hf =>
      rw [if_pos hf] at agree
      obtain ⟨hvs, hls⟩ := evalAll_eq_of_agree (fun arg ha h => ih arg ha h) agree
      exact ⟨by rw [hvs], hls⟩
    case isFalse => exact ⟨rfl, rfl⟩

/-- **A formula depends on nothing but what it looks up.**  Values that agree on what is looked up
for a formula give the same result, after the same lookups.  So a result other than the error of an
unbound reference stays what it is when more references are bound, and every result does when
references that are not in the formula are set, defined or removed. -/
theorem eval_depends_on_lookups (e : Formula) (values : Ref → Option Value) :
    (∀ values' : Ref → Option Value, (∀ r ∈ e.lookups values, values' r = values r) →
      e.eval values' = e.eval values ∧ e.lookups values' = e.lookups values) ∧
    ((∀ r, e.eval values ≠ .error (.unresolvedReference r)) →
      ∀ values' : Ref → Option Value, (∀ r v, values r = some v → values' r = some v) →
        e.eval values' = e.eval values) ∧
    ∀ (b : Bindings) (changes : List Bindings.Change), (∀ c ∈ changes, c.ref ∉ e.references) →
      e.eval (b.changeAll changes).lookup = e.eval b.lookup := by
  refine ⟨fun values' => eval_eq_of_agree, fun hres values' more => ?_, fun b changes hout => ?_⟩
  · -- what is looked up is bound, and so it keeps its value
    refine (eval_eq_of_agree fun r hr => ?_).1
    have hbound : (values r).isSome = true := (e.accounts_eval values).bound hres r hr
    obtain ⟨v, hv⟩ := Option.isSome_iff_exists.mp hbound
    rw [hv, more r v hv]
  · refine (eval_eq_of_agree fun r hr => ?_).1
    have hin : r ∈ e.references := (e.accounts_eval b.lookup).within.subset hr
    exact b.lookup_changeAll_of_forall_ne fun c hc heq => hout c hc (heq ▸ hin)

/-- The left operand fails after one lookup: the right operand may be bound or not, and changes of
other references do nothing. -/
theorem eval_depends_on_lookups_left :
    let e := binary .and (unary .not (reference ⟨1⟩)) (reference ⟨2⟩)
    let values : Ref → Option Value := fun r => if r = ⟨1⟩ then some (.vector 0 0) else none
    let values' : Ref → Option Value := fun r => if r = ⟨1⟩ then some (.vector 0 0) else
      some (.bool true)
    let b := Bindings.ofList [(⟨1⟩, .vector 0 0)]
    let changes : List Bindings.Change := [.define ⟨3⟩ (.bool true), .remove ⟨4⟩]
    ((∀ r ∈ e.lookups values, values' r = values r) ∧ values' ⟨2⟩ ≠ values ⟨2⟩ ∧
        e.eval values' = e.eval values ∧ e.lookups values' = e.lookups values) ∧
      (∀ c ∈ changes, c.ref ∉ e.references) ∧
        e.eval (b.changeAll changes).lookup = e.eval b.lookup := by
  intro e values values' b changes
  have hlookups : e.lookups values = [⟨1⟩] := rfl
  have agree : ∀ r ∈ e.lookups values, values' r = values r := by
    rw [hlookups]
    exact List.forall_mem_singleton.mpr rfl
  have hout : ∀ c ∈ changes, c.ref ∉ e.references := by
    rw [show e.references = [⟨1⟩, ⟨2⟩] from rfl]
    simp [changes, Bindings.Change.ref]
  have hdepends := eval_depends_on_lookups e values
  exact ⟨⟨agree, nofun, hdepends.1 values' agree⟩, hout, hdepends.2.2 b changes hout⟩

end Formula
end ParametricPlan
