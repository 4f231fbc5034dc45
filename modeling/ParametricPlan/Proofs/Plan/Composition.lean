/-
ParametricPlan/Proofs/Plan/Composition.lean

Execution composes.

A runtime is asked whether it is halted before each node, so to split a sequence in two, or to put
a part of it below another node, moves the points at which it is asked.  Neither makes a difference.

* `executeAll_append`: nodes may be run in two portions, in any runtime whatsoever.
* `executeAll_grouped`: siblings that follow each other, at any depth, may be put into a group whose
  condition holds (`Grouped`), in a runtime that keeps the values of references.

The second is a matter of events: a group whose condition holds has the events of its children and
none of its own, and with `executeAll_eq_takeAll` a run is determined by the events.
`Session.execution_composes` is the main result.
-/
import ParametricPlan.Proofs.Plan.Places

namespace ParametricPlan

variable {S : Type} {rt : Runtime S} {values : Ref → Option Value}

/-! ### One after the other -/

/-- Siblings may be run in two portions, in any runtime. -/
theorem executeAll_append (nodes later : List Node) (s : S) :
    executeAll rt (nodes ++ later) s = executeAll rt later (executeAll rt nodes s) := by
  induction nodes generalizing s with
  | nil => rfl
  | cons node nodes ih =>
    rcases halted : rt.halted s with - | -
    · simp only [List.cons_append, executeAll, halted, Bool.false_eq_true, if_false]
      exact ih (node.execute rt s)
    · -- nothing is run any more, in neither of the two
      rw [executeAll_halted halted, executeAll_halted halted, executeAll_halted halted]

theorem eventsAll_append (nodes later : List Node) :
    eventsAll values (nodes ++ later) = eventsAll values nodes ++ eventsAll values later := by
  induction nodes with
  | nil => rfl
  | cons node nodes ih => rw [List.cons_append, eventsAll, eventsAll, ih, List.append_assoc]

/-! ### Within a group -/

/-- Some nodes become others as siblings that follow each other, among them or below one of them,
are put into a group. -/
inductive Grouped (condition : Formula) : List Node → List Node → Prop where
  | here (before siblings after : List Node) :
      Grouped condition (before ++ siblings ++ after)
        (before ++ .mk (.group condition) siblings :: after)
  | inside {children children' : List Node} (before : List Node) (instruction : Instruction)
      (after : List Node) (h : Grouped condition children children') :
      Grouped condition (before ++ .mk instruction children :: after)
        (before ++ .mk instruction children' :: after)

/-- A group whose condition holds adds no event. -/
theorem Grouped.eventsAll_eq {condition : Formula} {nodes nodes' : List Node}
    (h : Grouped condition nodes nodes') (holds : condition.eval values = .ok (.bool true)) :
    eventsAll values nodes' = eventsAll values nodes := by
  induction h with
  | here before siblings after =>
    have hgroup : (Node.mk (.group condition) siblings).events values =
        eventsAll values siblings := by
      simp only [Node.events, holds]
    rw [eventsAll_append, eventsAll, hgroup, eventsAll_append, eventsAll_append, List.append_assoc]
  | inside before instruction after h ih =>
    -- the instruction above is the same on both sides, and so are its own event and whether it
    -- opens
    rw [eventsAll_append, eventsAll_append, eventsAll, eventsAll, Node.events_mk, Node.events_mk,
      ih]

theorem executeAll_grouped (steady : rt.Steady) {condition : Formula} {nodes nodes' : List Node}
    (h : Grouped condition nodes nodes') {s : S}
    (holds : condition.eval (rt.values s) = .ok (.bool true)) :
    executeAll rt nodes' s = executeAll rt nodes s := by
  rw [executeAll_eq_takeAll steady, executeAll_eq_takeAll steady, h.eventsAll_eq holds]

/-! ### Sessions -/

/-- **Execution composes.**  Let a session be in any state, halted or not.  To run the plan with
some roots and then the plan with others is to run the plan with all of them.  If a condition holds
with the bindings of the session, then siblings that follow each other in a plan, at any depth, may
be put into a group with this condition.  In either case the session becomes the same, with its
events, faults, guard and bindings. -/
theorem Session.execution_composes (s : Session) :
    (∀ roots later : List Node, s.execute ⟨roots ++ later⟩ = (s.execute ⟨roots⟩).execute ⟨later⟩) ∧
    ∀ (condition : Formula) (roots roots' : List Node),
      condition.eval s.context.bindings.lookup = .ok (.bool true) →
      Grouped condition roots roots' → s.execute ⟨roots'⟩ = s.execute ⟨roots⟩ := by
  refine ⟨fun roots later => executeAll_append roots later s, ?_⟩
  intro condition roots roots' holds hgrouped
  exact executeAll_grouped Session.steady_runtime hgrouped holds

/-- A fault, and a record that it keeps from being run, are put into a group below a record. -/
theorem execution_composes_around_fault :
    let s := Session.start (.fresh (.ofList [(⟨1⟩, .bool true)]) .halt)
    let fails : Node := .mk (.report "r" (.reference ⟨2⟩)) []
    let skipped : Node := .mk (.record "skipped") []
    let roots : List Node := [.mk (.record "outer") [fails, skipped, skipped]]
    let roots' : List Node :=
      [.mk (.record "outer") [.mk (.group (.reference ⟨1⟩)) [fails, skipped], skipped]]
    (Formula.reference ⟨1⟩).eval s.context.bindings.lookup = .ok (.bool true) ∧
      Grouped (.reference ⟨1⟩) roots roots' ∧ s.execute ⟨roots'⟩ = s.execute ⟨roots⟩ ∧
      (s.execute ⟨roots'⟩).events.toList =
        [.action "outer", .fault (.evaluation (.unresolvedReference ⟨2⟩))] := by
  intro s fails skipped roots roots'
  have holds : (Formula.reference ⟨1⟩).eval s.context.bindings.lookup = .ok (.bool true) := rfl
  have hgrouped : Grouped (.reference ⟨1⟩) roots roots' :=
    .inside [] (.record "outer") [] (.here [] [fails, skipped] [skipped])
  exact ⟨holds, hgrouped, s.execution_composes.2 _ _ _ holds hgrouped, rfl⟩

end ParametricPlan
