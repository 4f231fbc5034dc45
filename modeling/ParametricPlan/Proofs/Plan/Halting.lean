/-
ParametricPlan/Proofs/Plan/Halting.lean

A run that halts at a fault is a run that goes on, cut off.

The events of a run under the policy `proceed` and those of a run under `halt` differ in one
thing: the second stops right after the first fault.  So it is the shortest prefix of the first run
in which there is a fault, or all of the first run when that has none (`CutsAtFault`).

What a run does to a session is said by `Session.Produces`: the events come after those before,
their faults after the faults before, and nothing else changes but perhaps the guard.  With
`executeAll_eq_takeAll` it is enough to follow a session through a list of events.

`Plan.halt_cuts_proceed` is the main result.
-/
import ParametricPlan.Proofs.Plan.Events

namespace ParametricPlan

/-! ### Cutting at the first fault -/

/-- There is a fault among some events. -/
def Faulty (events : List Event) : Prop :=
  ∃ f, Event.fault f ∈ events

/-- The shortest prefix of some events in which there is a fault; all of them if there is none. -/
structure CutsAtFault (events cut : List Event) : Prop where
  within : cut <+: events
  whole : ¬ Faulty events → cut = events
  faulty : Faulty events → Faulty cut
  shortest : ∀ short, short <+: events → Faulty short → cut <+: short

/-- The events up to the first fault, which is one of them. -/
def uptoFault : List Event → List Event
  | [] => []
  | .action line :: events => .action line :: uptoFault events
  | .fault f :: _ => [.fault f]

theorem not_faulty_nil : ¬ Faulty [] := by
  rintro ⟨f, hf⟩
  exact List.not_mem_nil hf

theorem faulty_action_cons (line : String) (events : List Event) :
    Faulty (.action line :: events) ↔ Faulty events := by
  simp [Faulty]

theorem faulty_fault_cons (f : Fault) (events : List Event) : Faulty (.fault f :: events) :=
  ⟨f, List.mem_cons_self⟩

/-- An action at the front is part of the cut. -/
theorem CutsAtFault.action_cons {events cut : List Event} (h : CutsAtFault events cut)
    (line : String) : CutsAtFault (.action line :: events) (.action line :: cut) where
  within := List.cons_prefix_cons.mpr ⟨rfl, h.within⟩
  whole hno := by rw [h.whole (mt (faulty_action_cons line events).mpr hno)]
  faulty hf := (faulty_action_cons line cut).mpr (h.faulty ((faulty_action_cons line events).mp hf))
  shortest := by
    intro short hshort hf
    rcases List.prefix_cons_iff.mp hshort with rfl | ⟨rest, rfl, hrest⟩
    · exact absurd hf not_faulty_nil
    · have hcut := h.shortest rest hrest ((faulty_action_cons line rest).mp hf)
      exact List.cons_prefix_cons.mpr ⟨rfl, hcut⟩

/-- At a fault at the front the cut is made. -/
theorem cutsAtFault_fault_cons (f : Fault) (events : List Event) :
    CutsAtFault (.fault f :: events) [.fault f] where
  within := List.cons_prefix_cons.mpr ⟨rfl, List.nil_prefix⟩
  whole hno := absurd (faulty_fault_cons f events) hno
  faulty _ := faulty_fault_cons f []
  shortest := by
    intro short hshort hf
    rcases List.prefix_cons_iff.mp hshort with rfl | ⟨rest, rfl, -⟩
    · -- nothing at all is no cut, since it has no fault
      exact absurd hf not_faulty_nil
    · exact List.cons_prefix_cons.mpr ⟨rfl, List.nil_prefix⟩

/-- The events up to the first fault are the shortest prefix with one. -/
theorem cutsAtFault_uptoFault (events : List Event) : CutsAtFault events (uptoFault events) := by
  induction events with
  | nil => exact ⟨List.prefix_rfl, fun _ => rfl, id, fun short _ _ => List.nil_prefix⟩
  | cons event events ih =>
    rcases event with line | f
    · exact ih.action_cons line
    · exact cutsAtFault_fault_cons f events

theorem length_faults_uptoFault (events : List Event) :
    (Event.faults (uptoFault events).toArray).length ≤ 1 := by
  induction events with
  | nil => exact Nat.zero_le 1
  | cons event events ih =>
    rcases event with line | f
    · simpa [uptoFault, Event.faults] using ih
    · exact Nat.le_refl 1

/-! ### What a run does to a session -/

namespace Session

/-- A session becomes another by some events. -/
structure Produces (s : Session) (added : List Event) (s' : Session) : Prop where
  events : s'.events.toList = s.events.toList ++ added
  faults : s'.context.faults.toList = s.context.faults.toList ++ Event.faults added.toArray
  bindings : s'.context.bindings = s.context.bindings
  policy : s'.context.guard.policy = s.context.guard.policy

theorem produces_nil (s : Session) : s.Produces [] s :=
  ⟨(List.append_nil _).symm, (List.append_nil _).symm, rfl, rfl⟩

/-- What two runs produce, one after the other, is produced by both together. -/
theorem Produces.trans {s s' s'' : Session} {events later : List Event}
    (h : s.Produces events s') (h' : s'.Produces later s'') :
    s.Produces (events ++ later) s'' where
  events := by rw [h'.events, h.events, List.append_assoc]
  faults := by
    rw [h'.faults, h.faults, List.append_assoc]
    simp only [Event.faults, List.filterMap_append]
  bindings := h'.bindings.trans h.bindings
  policy := h'.policy.trans h.policy

theorem produces_take (s : Session) (event : Event) :
    s.Produces [event] (runtime.take s event) := by
  rcases event with line | f
  · exact ⟨Array.toList_push, (List.append_nil _).symm, rfl, rfl⟩
  · exact ⟨Array.toList_push, Array.toList_push, rfl, s.context.guard.policy_trip⟩

theorem steady_runtime : runtime.Steady :=
  ⟨fun _ _ => rfl, fun _ _ => rfl⟩

/-- Takes in some events, whether the session is halted or not. -/
def takeIn (s : Session) (events : List Event) : Session :=
  events.foldl runtime.take s

/-- Whatever is taken in is produced. -/
theorem produces_takeIn (s : Session) (events : List Event) :
    s.Produces events (s.takeIn events) := by
  induction events generalizing s with
  | nil => exact produces_nil s
  | cons event events ih => exact (produces_take s event).trans (ih (runtime.take s event))

/-- To take in events until halted is to take in a prefix of them, unasked. -/
theorem exists_takeAll_eq_takeIn (s : Session) (events : List Event) :
    ∃ added, added <+: events ∧ runtime.takeAll events s = s.takeIn added := by
  induction events generalizing s with
  | nil => exact ⟨[], List.prefix_rfl, rfl⟩
  | cons event events ih =>
    rcases halted : runtime.halted s with - | -
    · obtain ⟨added, hadded, hrest⟩ := ih (runtime.take s event)
      exact ⟨event :: added, List.cons_prefix_cons.mpr ⟨rfl, hadded⟩,
        (Runtime.takeAll_cons halted event events).trans hrest⟩
    · exact ⟨[], List.nil_prefix, Runtime.takeAll_halted halted _⟩

/-- Whatever its guard is, a session takes in some events from the first one on. -/
theorem exists_produces_takeAll (s : Session) (events : List Event) :
    ∃ added, added <+: events ∧ s.Produces added (runtime.takeAll events s) := by
  obtain ⟨added, hadded, hrun⟩ := s.exists_takeAll_eq_takeIn events
  exact ⟨added, hadded, hrun ▸ s.produces_takeIn added⟩

/-- A session that proceeds takes in all events. -/
theorem produces_takeAll_proceed {s : Session} (hs : s.context.guard = ⟨.proceed, false⟩)
    (events : List Event) :
    s.Produces events (runtime.takeAll events s) ∧
      (runtime.takeAll events s).context.guard = ⟨.proceed, false⟩ := by
  induction events generalizing s with
  | nil => exact ⟨produces_nil s, hs⟩
  | cons event events ih =>
    have halted : runtime.halted s = false := congrArg Guard.halted hs
    have hguard : (runtime.take s event).context.guard = ⟨.proceed, false⟩ := by
      rcases event with line | f
      · exact hs
      · exact (congrArg Guard.trip hs).trans rfl
    obtain ⟨hrest, hend⟩ := ih hguard
    rw [Runtime.takeAll_cons halted]
    exact ⟨(produces_take s event).trans hrest, hend⟩

/-- A session that halts at a fault takes in the events up to the first one. -/
theorem produces_takeAll_halt {s : Session} (hs : s.context.guard = ⟨.halt, false⟩)
    (events : List Event) :
    s.Produces (uptoFault events) (runtime.takeAll events s) ∧
      ((runtime.takeAll events s).context.halted = true ↔ Faulty events) := by
  induction events generalizing s with
  | nil =>
    refine ⟨produces_nil s, fun h => ?_, fun h => absurd h not_faulty_nil⟩
    exact absurd ((congrArg Guard.halted hs).symm.trans h) Bool.false_ne_true
  | cons event events ih =>
    have halted : runtime.halted s = false := congrArg Guard.halted hs
    have htake := produces_take s event
    rw [Runtime.takeAll_cons halted]
    rcases event with line | f
    · obtain ⟨hrest, hend⟩ := ih (s := runtime.take s (.action line)) hs
      exact ⟨htake.trans hrest, hend.trans (faulty_action_cons line events).symm⟩
    · -- the fault halts the session, and what comes after it is not taken in
      have hguard : (runtime.take s (.fault f)).context.halted = true :=
        (congrArg (fun g => g.trip.halted) hs).trans rfl
      rw [Runtime.takeAll_halted hguard]
      exact ⟨htake, fun _ => faulty_fault_cons f events, fun _ => hguard⟩

/-- A plan is executed in a session by taking in its events. -/
theorem execute_eq_takeAll (s : Session) (p : Plan) :
    s.execute p = runtime.takeAll (eventsAll s.context.bindings.lookup p.roots) s :=
  executeAll_eq_takeAll steady_runtime p.roots s

end Session

/-! ### The main result -/

/-- The events that a plan gives in a runtime that is never halted. -/
theorem executeAll_eq_foldl {S : Type} {rt : Runtime S} (steady : rt.Steady)
    (never : ∀ s, rt.halted s = false) (nodes : List Node) (s : S) :
    executeAll rt nodes s = (eventsAll (rt.values s) nodes).foldl rt.take s := by
  rw [executeAll_eq_takeAll steady, Runtime.takeAll_eq_foldl never]

theorem events_foldl_take (events : List Event) (c : Collector) :
    (events.foldl Collector.runtime.take c).events.toList = c.events.toList ++ events := by
  induction events generalizing c with
  | nil => exact (List.append_nil _).symm
  | cons event events ih =>
    -- either kind of event is put at the end
    have hevent : (Collector.runtime.take c event).events = c.events.push event := by
      rcases event with line | f <;> rfl
    rw [List.foldl_cons, ih, hevent, Array.toList_push, List.append_assoc, List.singleton_append]

/-- A collector has the events of the plan. -/
theorem Plan.collect_eq (p : Plan) (b : Bindings) :
    (p.collect b).toList = eventsAll b.lookup p.roots := by
  have steady : Collector.runtime.Steady := ⟨fun _ _ => rfl, fun _ _ => rfl⟩
  rw [Plan.collect, executeAll_eq_foldl steady fun _ => rfl, events_foldl_take]
  rfl

/-- **The policy `halt` cuts the run under `proceed` off at its first fault.**  Let `s` and `t` be
sessions with the same bindings that are not halted, the first under `proceed` and the second under
`halt`.  If the run of a plan in `s` produces `events`, then the run in `t` produces the shortest
prefix of `events` that has a fault, with at most one fault, and it is halted afterwards if and
only if there is a fault in `events`.  A runtime with these bindings that is never halted takes in
`events`, a collector among them, and a session that is halted stays what it is. -/
theorem Plan.halt_cuts_proceed (p : Plan) {s t : Session}
    (same : t.context.bindings = s.context.bindings)
    (proceeds : s.context.guard = ⟨.proceed, false⟩) (halts : t.context.guard = ⟨.halt, false⟩) :
    ∃ events cut : List Event,
      s.Produces events (s.execute p) ∧
      CutsAtFault events cut ∧
      t.Produces cut (t.execute p) ∧
      (Event.faults cut.toArray).length ≤ 1 ∧
      ((t.execute p).context.halted = true ↔ Faulty events) ∧
      (∀ (S : Type) (rt : Runtime S) (x : S), rt.Steady → (∀ y, rt.halted y = false) →
        rt.values x = s.context.bindings.lookup →
        executeAll rt p.roots x = events.foldl rt.take x) ∧
      (p.collect s.context.bindings).toList = events ∧
      ∀ u : Session, u.context.halted = true → u.execute p = u := by
  have hrun := Session.produces_takeAll_proceed proceeds
    (eventsAll s.context.bindings.lookup p.roots)
  have hcut := Session.produces_takeAll_halt halts (eventsAll s.context.bindings.lookup p.roots)
  rw [← Session.execute_eq_takeAll] at hrun
  rw [← same, ← Session.execute_eq_takeAll, same] at hcut
  refine ⟨eventsAll s.context.bindings.lookup p.roots, _, hrun.1, cutsAtFault_uptoFault _, hcut.1,
    length_faults_uptoFault _, hcut.2, ?_, p.collect_eq _, ?_⟩
  · intro S rt x steady never hx
    rw [executeAll_eq_foldl steady never, hx]
  · intro u hu
    exact executeAll_halted hu p.roots

/-- A condition that is a vector, below a record: the record after it is left out under `halt`. -/
theorem halt_cuts_below_record :
    let p : Plan := ⟨[.mk (.record "outer") [.mk (.group (.constant (.vector 0 0))) []],
      .mk (.record "next") []]⟩
    let s := Session.start (Context.fresh .empty .proceed)
    let t := Session.start (Context.fresh .empty .halt)
    t.context.bindings = s.context.bindings ∧
      s.context.guard = ⟨.proceed, false⟩ ∧ t.context.guard = ⟨.halt, false⟩ ∧
      (s.execute p).events.toList =
        [.action "outer", .fault (.notBoolean .vector), .action "next"] ∧
      (t.execute p).context.halted = true := by
  intro p s t
  have hrun : (s.execute p).events.toList =
      [.action "outer", .fault (.notBoolean .vector), .action "next"] := rfl
  obtain ⟨events, cut, hs, -, -, -, hhalted, -⟩ :=
    p.halt_cuts_proceed (s := s) (t := t) rfl rfl rfl
  have hevents := hs.events.symm.trans hrun
  refine ⟨rfl, rfl, rfl, hrun, hhalted.mpr ⟨.notBoolean .vector, ?_⟩⟩
  rw [show events = _ from hevents]
  exact List.mem_cons_of_mem _ List.mem_cons_self

end ParametricPlan
