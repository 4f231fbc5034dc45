/-
ParametricPlan/Proofs/Command/Demo.lean

What a run of the demo plan tells.

A run is told by three values: of each parameter, the value in the end (`effective`), which is that
of its last override, or its default.  `spanOf`, `diagonalOf` and `flangeOf` are what is reported
for such values, `conditionFault` and `flangeFault` are the faults, and `told` has all of them in
order.

`events_plan` says that these are the events of the plan.  With it the outcome of a run under
either policy is written down in `run_proceed` and `run_halt`, and `run_congr` says that nothing
else of the overrides matters.
-/
import Mathlib.Data.List.Basic
import ParametricPlan.Command.Demo
import ParametricPlan.Proofs.Evaluation.Bindings
import ParametricPlan.Proofs.Evaluation.Equations
import ParametricPlan.Proofs.Plan.Halting

namespace ParametricPlan

namespace Demo

/-! ### What is told of three values -/

/-- The line that reports a value. -/
def line (label : String) (v : Value) : String :=
  label ++ " = " ++ v.text

/-- The span of a positive width. -/
def spanOf : Value → Option Value
  | .number w => if 0 < w then some (.number (w * 2)) else none
  | _ => none

/-- The diagonal of a positive width and a height that is at least the width, or at least ten. -/
def diagonalOf : Value → Value → Option Value
  | .number w, .number h =>
    if 0 < w ∧ lesser w 10 ≤ h then some (.number (Binary64.hypotenuse (w - 0) (h - 0))) else none
  | _, _ => none

/-- The flange of an offset. -/
def flangeOf : Value → Option Value
  | .number o => some (.number (o + 1.5))
  | _ => none

/-- An operator between a value and a number. -/
def mismatch (op : BinaryOp) (v : Value) : Fault :=
  .evaluation (.operandKinds op v.kind .number)

/-- The fault of a condition: of the first if the width is no number, of the second if the height
is none and the width is positive. -/
def conditionFault : Value → Value → Option Fault
  | .number w, h => if 0 < w ∧ h.kind ≠ .number then some (mismatch .greaterOrEqual h) else none
  | w, _ => some (mismatch .greaterThan w)

/-- The fault of the flange, if the offset is no number. -/
def flangeFault (o : Value) : Option Fault :=
  if o.kind = .number then none else some (mismatch .add o)

/-- All that is told of a width, a height and an offset, in order. -/
def told (w h o : Value) : List Event :=
  (spanOf w).toList.map (fun v => .action (line "span" v)) ++
    (conditionFault w h).toList.map .fault ++
    (diagonalOf w h).toList.map (fun v => .action (line "diagonal" v)) ++
    (flangeOf o).toList.map (fun v => .action (line "flange" v)) ++
    (flangeFault o).toList.map .fault

theorem isSome_spanOf_iff (w : Value) :
    (spanOf w).isSome ↔ ∃ x, w = .number x ∧ 0 < x := by
  rcases w with b | x | ⟨x, y⟩ <;> simp [spanOf]

theorem isSome_diagonalOf_iff (w h : Value) :
    (diagonalOf w h).isSome ↔
      ∃ x y, w = .number x ∧ 0 < x ∧ h = .number y ∧ lesser x 10 ≤ y := by
  rcases w with b | x | ⟨x, y⟩ <;> rcases h with c | z | ⟨z, t⟩ <;> simp [diagonalOf]

theorem isSome_flangeOf_iff (o : Value) : (flangeOf o).isSome ↔ ∃ x, o = .number x := by
  rcases o with b | x | ⟨x, y⟩ <;> simp [flangeOf]

theorem isSome_conditionFault_iff (w h : Value) :
    (conditionFault w h).isSome ↔
      w.kind ≠ .number ∨ (∃ x, w = .number x ∧ 0 < x) ∧ h.kind ≠ .number := by
  rcases w with b | x | ⟨x, y⟩
  · simp [conditionFault, Value.kind]
  · have hkind : (Value.number x).kind = .number := rfl
    simp [conditionFault, hkind]
  · simp [conditionFault, Value.kind]

theorem isSome_flangeFault_iff (o : Value) : (flangeFault o).isSome ↔ o.kind ≠ .number := by
  simp [flangeFault]

theorem exists_eq_mismatch_of_conditionFault {w h : Value} {f : Fault}
    (hf : conditionFault w h = some f) : ∃ op v, f = mismatch op v := by
  rcases w with b | x | ⟨x, y⟩ <;> simp [conditionFault] at hf
  · exact ⟨_, _, hf.symm⟩
  · exact ⟨_, _, hf.2.symm⟩
  · exact ⟨_, _, hf.symm⟩

theorem exists_eq_mismatch_of_flangeFault {o : Value} {f : Fault}
    (hf : flangeFault o = some f) : ∃ op v, f = mismatch op v := by
  simp [flangeFault] at hf
  exact ⟨_, _, hf.2.symm⟩

/-! ### The values of the formulas -/

section

variable {values : Ref → Option Value} {W H O : Value} {w h : Float}

theorem eval_reference_of_eq {r : Ref} {v : Value} (hv : values r = some v) :
    (Formula.reference r).eval values = .ok v := by
  rw [Formula.eval_reference, hv]
  rfl

theorem eval_hasWidth (hW : values width = some W) :
    hasWidth.eval values = BinaryOp.apply .greaterThan W (.number 0) := by
  rw [hasWidth, Formula.eval_binary, eval_reference_of_eq hW]
  rfl

/-- The height is compared with the lesser of the width and ten. -/
theorem eval_tallEnough (hw : values width = some (.number w)) (hH : values height = some H) :
    tallEnough.eval values = BinaryOp.apply .greaterOrEqual H (.number (lesser w 10)) := by
  have hmin : (Formula.call .min [.reference width, .constant (.number 10)]).eval values =
      .ok (.number (lesser w 10)) := by
    rw [Formula.eval_call, Formula.evalAll_cons, eval_reference_of_eq hw]
    rfl
  rw [tallEnough, Formula.eval_binary, eval_reference_of_eq hH, hmin]
  rfl

theorem eval_span (hw : values width = some (.number w)) :
    span.eval values = .ok (.number (w * 2)) := by
  rw [span, Formula.eval_binary, eval_reference_of_eq hw]
  rfl

/-- The diagonal is the distance from the origin to the corner. -/
theorem eval_diagonal (hw : values width = some (.number w))
    (hh : values height = some (.number h)) :
    diagonal.eval values = .ok (.number (Binary64.hypotenuse (w - 0) (h - 0))) := by
  have hcorner : (Formula.call .vector [.reference width, .reference height]).eval values =
      .ok (.vector w h) := by
    rw [Formula.eval_call, Formula.evalAll_cons, eval_reference_of_eq hw, Formula.evalAll_cons,
      eval_reference_of_eq hh]
    rfl
  rw [diagonal, Formula.eval_call, Formula.evalAll_cons, Formula.evalAll_cons, hcorner]
  rfl

theorem eval_flange (hO : values offset = some O) :
    flange.eval values = BinaryOp.apply .add O (.number 1.5) := by
  rw [flange, Formula.eval_binary, eval_reference_of_eq hO]
  rfl

/-! ### The events of the plan -/

theorem events_flange (hO : values offset = some O) :
    (Node.mk (.report "flange" flange) []).events values =
      (flangeOf O).toList.map (fun v => .action (line "flange" v)) ++
        (flangeFault O).toList.map .fault := by
  rw [Node.events, eval_flange hO]
  rcases O with b | x | ⟨x, y⟩ <;> rfl

/-- The events of the second group, below a positive width. -/
theorem events_tallEnough (hw : values width = some (.number w)) (hH : values height = some H)
    (pos : 0 < w) :
    (Node.mk (.group tallEnough) [.mk (.report "diagonal" diagonal) []]).events values =
      (conditionFault (.number w) H).toList.map .fault ++
        (diagonalOf (.number w) H).toList.map (fun v => .action (line "diagonal" v)) := by
  rw [Node.events, eval_tallEnough hw hH]
  rcases H with b | h | ⟨x, y⟩
  · simp [BinaryOp.apply, conditionFault, diagonalOf, mismatch, pos, Value.kind]
  · by_cases tall : lesser w 10 ≤ h
    · have hdiagonal : (Node.mk (.report "diagonal" diagonal) []).events values =
          [.action (line "diagonal" (.number (Binary64.hypotenuse (w - 0) (h - 0))))] := by
        rw [Node.events, eval_diagonal hw hH]
        rfl
      simp [BinaryOp.apply, conditionFault, diagonalOf, pos, tall, Value.kind, eventsAll, hdiagonal]
    · simp [BinaryOp.apply, conditionFault, diagonalOf, tall, Value.kind]
  · simp [BinaryOp.apply, conditionFault, diagonalOf, mismatch, pos, Value.kind]

/-- The events of the first group. -/
theorem events_hasWidth (hW : values width = some W) (hH : values height = some H) :
    (Node.mk (.group hasWidth)
        [.mk (.report "span" span) [],
          .mk (.group tallEnough) [.mk (.report "diagonal" diagonal) []]]).events values =
      (spanOf W).toList.map (fun v => .action (line "span" v)) ++
        (conditionFault W H).toList.map .fault ++
        (diagonalOf W H).toList.map (fun v => .action (line "diagonal" v)) := by
  rw [Node.events, eval_hasWidth hW]
  rcases W with b | w | ⟨x, y⟩
  · rfl
  · -- only a positive width opens the group, and the nodes in it add their events
    by_cases pos : 0 < w
    · have hspan : (Node.mk (.report "span" span) []).events values =
          [.action (line "span" (.number (w * 2)))] := by
        rw [Node.events, eval_span hW]
        rfl
      simp [BinaryOp.apply, spanOf, pos, eventsAll, hspan, events_tallEnough hW hH pos]
    · rcases H with b | h | ⟨x, y⟩ <;>
        simp [BinaryOp.apply, spanOf, conditionFault, diagonalOf, pos]
  · rfl

/-- All that is told of the three values is what the plan gives. -/
theorem events_plan (hW : values width = some W) (hH : values height = some H)
    (hO : values offset = some O) : eventsAll values plan.roots = told W H O := by
  simp only [plan, eventsAll, events_hasWidth hW hH, events_flange hO, told, List.append_assoc,
    List.append_nil]

end

/-! ### The parameters in the end -/

/-- The value of a parameter in the end: that of its last override, or its default. -/
def effective (overrides : List (Ref × Value)) (r : Ref) (default : Value) : Value :=
  (Bindings.lastGiven? overrides r).getD default

/-- The last override of a parameter counts, or else its default. -/
theorem lookup_insertAll_defaults (overrides : List (Ref × Value)) {r : Ref} {default : Value}
    (h : defaults.lookup r = some default) :
    (defaults.insertAll overrides).lookup r = some (effective overrides r default) := by
  rw [Bindings.lookup_insertAll, h, Option.or_some]
  rfl

/-- All that is told in a run with some overrides that goes on after faults. -/
def toldWith (overrides : List (Ref × Value)) : List Event :=
  told (effective overrides width (.number 4)) (effective overrides height (.number 3))
    (effective overrides offset (.number 0.5))

theorem eventsAll_plan (overrides : List (Ref × Value)) :
    eventsAll (defaults.insertAll overrides).lookup plan.roots = toldWith overrides :=
  events_plan (lookup_insertAll_defaults overrides rfl) (lookup_insertAll_defaults overrides rfl)
    (lookup_insertAll_defaults overrides rfl)

/-! ### Outcomes -/

/-- The outcome of some events. -/
def Outcome.ofEvents (events : List Event) : Outcome :=
  ⟨Event.actions events.toArray, Event.faults events.toArray⟩

/-- A session that began fresh has the outcome of what it produces. -/
theorem outcome_of_produces {b : Bindings} {policy : Policy} {events : List Event} {s : Session}
    (h : (Session.start (Context.fresh b policy)).Produces events s) :
    (⟨Event.actions s.events, s.context.faults.toList⟩ : Outcome) = .ofEvents events := by
  have hevents : s.events.toList = events := h.events
  have hfaults : s.context.faults.toList = Event.faults events.toArray := h.faults
  rw [Outcome.ofEvents, hfaults, Event.actions, hevents]
  rfl

/-- A run takes in what is told of the parameters, until it is halted. -/
theorem run_eq_takeAll (options : RunOptions) :
    let s := Session.start (Context.fresh (defaults.insertAll options.bindings) options.policy)
    let s' := Session.runtime.takeAll (toldWith options.bindings) s
    run options = ⟨Event.actions s'.events, s'.context.faults.toList⟩ := by
  intro s s'
  have hs : s.execute plan = s' := by
    rw [Session.execute_eq_takeAll]
    exact congrArg (Session.runtime.takeAll · s) (eventsAll_plan options.bindings)
  show (⟨_, _⟩ : Outcome) = _
  rw [hs]

/-- A run that goes on after faults has everything that is told. -/
theorem run_proceed (overrides : List (Ref × Value)) :
    run ⟨overrides, .proceed⟩ = .ofEvents (toldWith overrides) :=
  (run_eq_takeAll ⟨overrides, .proceed⟩).trans
    (outcome_of_produces (Session.produces_takeAll_proceed rfl _).1)

/-- A run that halts has what is told up to the first fault. -/
theorem run_halt (overrides : List (Ref × Value)) :
    run ⟨overrides, .halt⟩ = .ofEvents (uptoFault (toldWith overrides)) :=
  (run_eq_takeAll ⟨overrides, .halt⟩).trans
    (outcome_of_produces (Session.produces_takeAll_halt rfl _).1)

/-- Overrides that give the three parameters the same last values have the same run. -/
theorem run_congr {overrides others : List (Ref × Value)}
    (h : ∀ r ∈ [width, height, offset],
      Bindings.lastGiven? others r = Bindings.lastGiven? overrides r) (policy : Policy) :
    run ⟨others, policy⟩ = run ⟨overrides, policy⟩ := by
  have heffective : ∀ r ∈ [width, height, offset], ∀ default,
      effective others r default = effective overrides r default :=
    fun r hr default => congrArg (Option.getD · default) (h r hr)
  have htold : toldWith others = toldWith overrides := by
    rw [toldWith, heffective width (by simp), heffective height (by simp),
      heffective offset (by simp), toldWith]
  -- under either policy a run depends on what is told only
  cases policy with
  | proceed => rw [run_proceed, run_proceed, htold]
  | halt => rw [run_halt, run_halt, htold]

/-! ### What a run can tell -/

theorem mem_actions_ofEvents {events : List Event} {text : String} :
    text ∈ (Outcome.ofEvents events).actions ↔ .action text ∈ events := by
  simp only [Outcome.ofEvents, Event.actions, List.mem_filterMap]
  constructor
  · rintro ⟨text' | f, hevent, htext⟩
    · exact Option.some.inj htext ▸ hevent
    · cases htext
  · exact fun hevent => ⟨.action text, hevent, rfl⟩

theorem mem_faults_ofEvents {events : List Event} {f : Fault} :
    f ∈ (Outcome.ofEvents events).faults ↔ .fault f ∈ events := by
  simp only [Outcome.ofEvents, Event.faults, List.mem_filterMap]
  constructor
  · rintro ⟨text | f', hevent, hf⟩
    · cases hf
    · exact Option.some.inj hf ▸ hevent
  · exact fun hevent => ⟨.fault f, hevent, rfl⟩

/-- Under either policy a run tells a prefix of what is told. -/
theorem exists_prefix_toldWith (options : RunOptions) :
    ∃ events, events <+: toldWith options.bindings ∧ run options = .ofEvents events := by
  obtain ⟨overrides, - | -⟩ := options
  · exact ⟨_, List.prefix_rfl, run_proceed overrides⟩
  · exact ⟨_, (cutsAtFault_uptoFault _).within, run_halt overrides⟩

/-- Every line of a run reports the value of something. -/
theorem exists_line_of_mem_actions {options : RunOptions} {text : String}
    (htext : text ∈ (run options).actions) :
    ∃ label ∈ ["span", "diagonal", "flange"], ∃ v, text = line label v := by
  obtain ⟨events, hprefix, hrun⟩ := exists_prefix_toldWith options
  rw [hrun, mem_actions_ofEvents] at htext
  have htold := hprefix.subset htext
  simp only [toldWith, told, List.mem_append, List.mem_map, Event.action.injEq, reduceCtorEq,
    and_false, exists_false, or_false] at htold
  rcases htold with (⟨v, -, rfl⟩ | ⟨v, -, rfl⟩) | ⟨v, -, rfl⟩
  · exact ⟨"span", by decide, v, rfl⟩
  · exact ⟨"diagonal", by decide, v, rfl⟩
  · exact ⟨"flange", by decide, v, rfl⟩

/-- Every fault of a run is a mismatch. -/
theorem exists_mismatch_of_mem_faults {options : RunOptions} {f : Fault}
    (hf : f ∈ (run options).faults) : ∃ op v, f = mismatch op v := by
  obtain ⟨events, hprefix, hrun⟩ := exists_prefix_toldWith options
  rw [hrun, mem_faults_ofEvents] at hf
  have htold := hprefix.subset hf
  simp only [toldWith, told, List.mem_append, List.mem_map, Event.fault.injEq, reduceCtorEq,
    and_false, exists_false, or_false, false_or, exists_eq_right, Option.mem_toList] at htold
  exact htold.elim exists_eq_mismatch_of_conditionFault exists_eq_mismatch_of_flangeFault

theorem actions_told (w h o : Value) :
    (Outcome.ofEvents (told w h o)).actions =
      (spanOf w).toList.map (line "span") ++ (diagonalOf w h).toList.map (line "diagonal") ++
        (flangeOf o).toList.map (line "flange") := by
  simp [Outcome.ofEvents, Event.actions, told]

theorem faults_told (w h o : Value) :
    (Outcome.ofEvents (told w h o)).faults =
      (conditionFault w h).toList ++ (flangeFault o).toList := by
  simp [Outcome.ofEvents, Event.faults, told]

/-! ### The main result -/

theorem length_faults_told_le (w h o : Value) :
    (Outcome.ofEvents (told w h o)).faults.length ≤ 2 := by
  rw [faults_told, List.length_append]
  have hcondition := Option.length_toList_le (o := conditionFault w h)
  have hflange := Option.length_toList_le (o := flangeFault o)
  omega

/-- **A run of the demo plan is told by three values.**  Let `w`, `h` and `o` be the values of the
last overrides of the parameters, or their defaults.  A run that goes on after faults logs the span
if and only if `w` is a positive number, then the diagonal if and only if moreover `h` is a number
that is at least `w` or at least ten, then the flange if and only if `o` is a number.  It has at
most two faults, and all of them are mismatches of types: one if `w` is no number, or is positive
while `h` is no number, and after it one if `o` is no number.  A run that halts at a fault is the
same cut off after the first fault.

Under either policy the run stays the same when overrides of different references change places,
and without an override of another reference or one that is overridden later. -/
theorem run_told_by_parameters (overrides : List (Ref × Value)) :
    let w := effective overrides width (.number 4)
    let h := effective overrides height (.number 3)
    let o := effective overrides offset (.number 0.5)
    let whole := run ⟨overrides, .proceed⟩
    whole.actions =
        (spanOf w).toList.map (line "span") ++ (diagonalOf w h).toList.map (line "diagonal") ++
          (flangeOf o).toList.map (line "flange") ∧
      ((spanOf w).isSome ↔ ∃ x, w = .number x ∧ 0 < x) ∧
      ((diagonalOf w h).isSome ↔
        ∃ x y, w = .number x ∧ 0 < x ∧ h = .number y ∧ lesser x 10 ≤ y) ∧
      ((flangeOf o).isSome ↔ ∃ x, o = .number x) ∧
      whole.faults = (conditionFault w h).toList ++ (flangeFault o).toList ∧
      ((conditionFault w h).isSome ↔
        w.kind ≠ .number ∨ (∃ x, w = .number x ∧ 0 < x) ∧ h.kind ≠ .number) ∧
      ((flangeFault o).isSome ↔ o.kind ≠ .number) ∧
      whole.faults.length ≤ 2 ∧
      (∀ f ∈ whole.faults, f.reasonName = "TypeMismatch") ∧
      whole = .ofEvents (told w h o) ∧
      (∃ cut, CutsAtFault (told w h o) cut ∧ run ⟨overrides, .halt⟩ = .ofEvents cut) ∧
      ∀ policy : Policy,
        (∀ others : List (Ref × Value),
          (∀ r, others.filter (fun entry => entry.1 = r) =
            overrides.filter fun entry => entry.1 = r) →
          run ⟨others, policy⟩ = run ⟨overrides, policy⟩) ∧
        ∀ (before later : List (Ref × Value)) (r : Ref) (v : Value),
          overrides = before ++ (r, v) :: later →
          r ∉ [width, height, offset] ∨ r ∈ later.map Prod.fst →
          run ⟨before ++ later, policy⟩ = run ⟨overrides, policy⟩ := by
  intro w h o whole
  have hwhole : whole = .ofEvents (told w h o) := run_proceed overrides
  refine ⟨hwhole ▸ actions_told w h o, isSome_spanOf_iff w, isSome_diagonalOf_iff w h,
    isSome_flangeOf_iff o, hwhole ▸ faults_told w h o, isSome_conditionFault_iff w h,
    isSome_flangeFault_iff o, hwhole ▸ length_faults_told_le w h o, ?_, hwhole,
    ⟨_, cutsAtFault_uptoFault _, run_halt overrides⟩, fun policy => ⟨?_, ?_⟩⟩
  · intro f hf
    obtain ⟨op, v, rfl⟩ := exists_mismatch_of_mem_faults hf
    rfl
  · intro others same
    refine run_congr (fun r _ => ?_) policy
    rw [Bindings.lastGiven?, same r, Bindings.lastGiven?]
  · rintro before later r v rfl hr
    refine run_congr (fun q hq => ?_) policy
    refine (Bindings.lastGiven?_append_cons (fun hqr => ?_) before v).symm
    -- `r` is a parameter, so a later entry has it
    exact hr.resolve_left (not_not_intro (hqr ▸ hq))

/-- A width that is given twice, a height and an offset that are no numbers, and an override of
another reference; the overrides of the height and of the width may change places. -/
theorem run_told_by_parameters_misfits :
    let before : List (Ref × Value) := [(width, .bool true), (height, .vector 1 2)]
    let later : List (Ref × Value) := [(offset, .bool false), (width, .number 5)]
    let overrides := before ++ (⟨7⟩, .number 1) :: later
    let others := before.reverse ++ (⟨7⟩, .number 1) :: later
    ⟨7⟩ ∉ [width, height, offset] ∧
      (∀ r, others.filter (fun entry => entry.1 = r) =
        overrides.filter fun entry => entry.1 = r) ∧
      run ⟨overrides, .proceed⟩ = ⟨["span = 10"],
        [mismatch .greaterOrEqual (.vector 1 2), mismatch .add (.bool false)]⟩ ∧
      run ⟨others, .proceed⟩ = run ⟨overrides, .proceed⟩ ∧
      run ⟨before ++ later, .proceed⟩ = run ⟨overrides, .proceed⟩ := by
  intro before later overrides others
  have hother : ⟨7⟩ ∉ [width, height, offset] := by decide
  have hsame : ∀ r, others.filter (fun entry => entry.1 = r) =
      overrides.filter fun entry => entry.1 = r := by
    intro r
    have hbefore : before.reverse.filter (fun entry => entry.1 = r) =
        before.filter fun entry => entry.1 = r := by
      by_cases hw : width = r
      · subst hw
        rfl
      · by_cases hh : height = r
        · subst hh
          rfl
        · simp [before, hw, hh]
    rw [List.filter_append, hbefore, ← List.filter_append]
  obtain ⟨-, -, -, -, -, -, -, -, -, hwhole, -, hpolicy⟩ := run_told_by_parameters overrides
  refine ⟨hother, hsame, hwhole.trans (by decide +kernel), (hpolicy .proceed).1 others hsame, ?_⟩
  exact (hpolicy .proceed).2 before later ⟨7⟩ (.number 1) rfl (.inl hother)

end Demo
end ParametricPlan
