/-
ParametricPlan/Proofs/Plan/Unresolved.lean

Why a reference is unresolved in a run.

The analysis of a plan knows nothing of values, and a run comes to some of the nodes only.  Still
the analysis foresees the references that a run finds unbound, but for two gaps: it does not look
into the conditions of groups (`Plan.conditionRefs`), and it takes the targets of assignments as
defined, which a run does not bind (`Plan.targets`).

A fault that blames a reference comes from the formula of a group or of a report; the reference is
in the formula and it is unbound (`Instruction.unresolved_of_event?`).  That of a report is required
in the walk, and then it is undefined unless it is the target of an assignment
(`Plan.mem_undefined_or_mem_targets`).  `Plan.unresolved_references_foreseen` is the main result.
-/
import ParametricPlan.Proofs.Evaluation.Lookups
import ParametricPlan.Proofs.Plan.Dependencies
import ParametricPlan.Proofs.Plan.Walk

namespace ParametricPlan

/-- The fault of a formula with an unbound reference. -/
abbrev Fault.unresolved (r : Ref) : Fault :=
  .evaluation (.unresolvedReference r)

/-! ### The gaps of the analysis -/

/-- The references in the condition of an instruction. -/
def Instruction.conditionRefs : Instruction → List Ref
  | group condition => condition.references
  | report .. | record _ | assign .. => []

/-- The reference that an instruction assigns. -/
def Instruction.target? : Instruction → Option Ref
  | assign target _ => some target
  | group _ | report .. | record _ => none

namespace Plan

/-- The references in the conditions of a plan. -/
def conditionRefs (p : Plan) : List Ref :=
  p.places.flatMap fun place => place.instruction.conditionRefs

/-- The references that a plan assigns. -/
def targets (p : Plan) : List Ref :=
  p.places.filterMap fun place => place.instruction.target?

end Plan

/-! ### What the analysis foresees -/

/-- An instruction defines its target and nothing else. -/
theorem Instruction.define_mem_notices {instruction : Instruction} {r : Ref} :
    .define r ∈ instruction.notices ↔ instruction.target? = some r := by
  rcases instruction with condition | ⟨label, formula⟩ | label | ⟨target, formula⟩
  · simp [notices, target?]
  · simp [notices, target?]
  · simp [notices, target?]
  · simp [notices, target?, eq_comm]

namespace Plan

theorem mem_targets (p : Plan) {r : Ref} : r ∈ p.targets ↔ .define r ∈ p.notices := by
  rw [p.mem_notices_iff rfl, targets, List.mem_filterMap]
  exact exists_congr fun place => and_congr_right fun _ => Instruction.define_mem_notices.symm

/-- The analysis of a plan, if nothing has been noticed before. -/
theorem mem_undefined_analyze (p : Plan) {r : Ref} :
    r ∈ (p.analyze .fresh).undefined ↔ .require r ∈ p.notices ∧ r ∉ p.targets := by
  have hmentions : r ∈ (p.notices.map Dependencies.Remark.notice).flatMap
      Dependencies.Remark.mentions ↔ .define r ∈ p.notices := by
    rw [List.flatMap_map, List.mem_flatMap]
    constructor
    · rintro ⟨n, hn, hr⟩
      rcases n with - | - | q | q
      · exact absurd hr List.not_mem_nil
      · exact absurd hr List.not_mem_nil
      · obtain rfl := List.mem_singleton.mp hr
        exact hn
      · exact absurd hr List.not_mem_nil
    · intro h
      exact ⟨_, h, List.mem_singleton_self r⟩
  have hknows := Dependencies.knows_tellAll (p.notices.map .notice)
  rw [Dependencies.tellAll_notices] at hknows
  rw [analyze, hknows.mem_undefined_iff, hmentions, p.mem_targets,
    List.mem_map_of_injective fun _ _ => Dependencies.Remark.notice.inj]

/-- What an instruction requires is undefined, unless the plan assigns it. -/
theorem mem_undefined_or_mem_targets (p : Plan) {r : Ref} {place : Place}
    (hplace : place ∈ p.places) (h : .require r ∈ place.instruction.notices) :
    r ∈ (p.analyze .fresh).undefined ∨ r ∈ p.targets := by
  by_cases htarget : r ∈ p.targets
  · exact .inr htarget
  · have hrequire : .require r ∈ p.notices := (p.mem_notices_iff rfl).mpr ⟨place, hplace, h⟩
    exact .inl (p.mem_undefined_analyze.mpr ⟨hrequire, htarget⟩)

end Plan

/-! ### What a run finds unbound -/

variable {values : Ref → Option Value}

/-- A formula blames a reference only if it is unbound, and occurs in the formula. -/
theorem Formula.unresolved_of_eval {e : Formula} {r : Ref}
    (h : e.eval values = .error (.unresolvedReference r)) : values r = none ∧ r ∈ e.references := by
  have haccounts := e.accounts_eval values
  obtain ⟨earlier, hseen, hnone, -⟩ := haccounts.stopped r h
  -- evaluation stops at the reference, so it is the last one looked up
  have hlast : r ∈ e.lookups values := hseen ▸ List.mem_append_right _ (List.mem_singleton_self r)
  exact ⟨hnone, haccounts.within.subset hlast⟩

/-- An instruction blames a reference only if it is unbound, and occurs in its formula. -/
theorem Instruction.unresolved_of_event? {instruction : Instruction} {r : Ref}
    (h : instruction.event? values = some (.fault (.unresolved r))) :
    values r = none ∧ (r ∈ instruction.conditionRefs ∨ .require r ∈ instruction.notices) := by
  rcases instruction with condition | ⟨label, formula⟩ | label | ⟨target, formula⟩
  · rcases hv : condition.eval values with e | ⟨b⟩ | x | ⟨x, y⟩ <;>
      simp only [event?, hv, Option.some.injEq, Event.fault.injEq, Fault.evaluation.injEq,
        reduceCtorEq] at h
    subst h
    obtain ⟨hnone, hr⟩ := Formula.unresolved_of_eval hv
    exact ⟨hnone, .inl hr⟩
  · rcases hv : formula.eval values with e | v <;>
      simp only [event?, hv, Option.some.injEq, Event.fault.injEq, Fault.evaluation.injEq,
        reduceCtorEq] at h
    subst h
    obtain ⟨hnone, hr⟩ := Formula.unresolved_of_eval hv
    exact ⟨hnone, .inr (List.mem_map_of_mem hr)⟩
  · simp [event?] at h
  · simp [event?] at h

/-- A reference that an event of the plan blames is unbound and foreseen. -/
theorem Plan.unresolved_of_mem_events (p : Plan) {r : Ref}
    (h : .fault (.unresolved r) ∈ eventsAll values p.roots) :
    values r = none ∧
      (r ∈ (p.analyze .fresh).undefined ∨ r ∈ p.conditionRefs ∨ r ∈ p.targets) := by
  rw [eventsAll_eq_liveEvents, liveEvents, List.mem_filterMap] at h
  obtain ⟨place, hlive, hevent⟩ := h
  have hplace : place ∈ p.places := List.mem_of_mem_filter hlive
  obtain ⟨hnone, hr | hr⟩ := Instruction.unresolved_of_event? hevent
  · exact ⟨hnone, .inr (.inl (List.mem_flatMap.mpr ⟨place, hplace, hr⟩))⟩
  · rcases p.mem_undefined_or_mem_targets hplace hr with h | h
    · exact ⟨hnone, .inl h⟩
    · exact ⟨hnone, .inr (.inr h)⟩

/-! ### Runs -/

/-- **The analysis foresees the references that a run finds unbound**, up to conditions and
targets.  Whatever the policy of a session is, a reference that a fault of a run blames is unbound,
and it is undefined after the analysis of the plan, or in a condition, or the target of an
assignment.  So no fault blames a reference if all of these are bound. -/
theorem Plan.unresolved_references_foreseen (p : Plan) (s : Session) :
    ∃ added, s.Produces added (s.execute p) ∧
      (∀ r, .fault (.unresolved r) ∈ added →
        s.context.bindings.lookup r = none ∧
          (r ∈ (p.analyze .fresh).undefined ∨ r ∈ p.conditionRefs ∨ r ∈ p.targets)) ∧
      ((∀ r, r ∈ (p.analyze .fresh).undefined ∨ r ∈ p.conditionRefs ∨ r ∈ p.targets →
          s.context.bindings.contains r = true) →
        ∀ r, .fault (.unresolved r) ∉ added) := by
  obtain ⟨added, hwithin, hrun⟩ :=
    s.exists_produces_takeAll (eventsAll s.context.bindings.lookup p.roots)
  rw [← Session.execute_eq_takeAll] at hrun
  refine ⟨added, hrun, fun r hr => p.unresolved_of_mem_events (hwithin.subset hr), ?_⟩
  intro hbound r hr
  obtain ⟨hnone, hforeseen⟩ := p.unresolved_of_mem_events (hwithin.subset hr)
  have hsome := hbound r hforeseen
  rw [Bindings.contains, hnone] at hsome
  exact Bool.false_ne_true hsome

/-- The reference of a condition, one that is required and one that is only assigned are unbound;
then all of them are bound. -/
theorem unresolved_references_foreseen_gaps :
    let p : Plan := ⟨[.mk (.group (.reference ⟨1⟩)) [], .mk (.report "r" (.reference ⟨2⟩)) [],
      .mk (.assign ⟨3⟩ (.reference ⟨4⟩)) [], .mk (.report "t" (.reference ⟨3⟩)) []]⟩
    let s := Session.start (Context.fresh .empty .proceed)
    let t := Session.start (Context.fresh (.ofList [(⟨1⟩, .bool true), (⟨2⟩, .bool true),
      (⟨3⟩, .bool true), (⟨4⟩, .bool true)]) .halt)
    (p.analyze .fresh).undefined = [⟨2⟩, ⟨4⟩] ∧ p.conditionRefs = [⟨1⟩] ∧ p.targets = [⟨3⟩] ∧
      (s.execute p).events.toList =
        [.fault (.unresolved ⟨1⟩), .fault (.unresolved ⟨2⟩), .fault (.unresolved ⟨3⟩)] ∧
      (s.context.bindings.lookup ⟨3⟩ = none ∧ (⟨3⟩ ∈ (p.analyze .fresh).undefined ∨
        ⟨3⟩ ∈ p.conditionRefs ∨ ⟨3⟩ ∈ p.targets)) ∧
      (∀ r, r ∈ (p.analyze .fresh).undefined ∨ r ∈ p.conditionRefs ∨ r ∈ p.targets →
        t.context.bindings.contains r = true) ∧
      ∃ added, t.Produces added (t.execute p) ∧ ∀ r, .fault (.unresolved r) ∉ added := by
  intro p s t
  have hundefined : (p.analyze .fresh).undefined = [⟨2⟩, ⟨4⟩] := rfl
  have hrun : (s.execute p).events.toList =
      [.fault (.unresolved ⟨1⟩), .fault (.unresolved ⟨2⟩), .fault (.unresolved ⟨3⟩)] := rfl
  have hbound : ∀ r, r ∈ (p.analyze .fresh).undefined ∨ r ∈ p.conditionRefs ∨ r ∈ p.targets →
      t.context.bindings.contains r = true := by
    rw [hundefined, show p.conditionRefs = [⟨1⟩] from rfl, show p.targets = [⟨3⟩] from rfl]
    intro r hr
    simp only [List.mem_cons, List.not_mem_nil, or_false] at hr
    rcases hr with (rfl | rfl) | rfl | rfl <;> rfl
  obtain ⟨added, hadded, hforeseen, -⟩ := p.unresolved_references_foreseen s
  obtain ⟨added', hadded', -, hnone⟩ := p.unresolved_references_foreseen t
  refine ⟨hundefined, rfl, rfl, hrun, hforeseen ⟨3⟩ ?_, hbound, added', hadded', hnone hbound⟩
  have hevents : added = _ := hadded.events.symm.trans hrun
  rw [hevents]
  simp

end ParametricPlan
