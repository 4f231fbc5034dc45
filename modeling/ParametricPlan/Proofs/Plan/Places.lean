/-
ParametricPlan/Proofs/Plan/Places.lean

The nodes that a run comes to.

The places of a plan are its nodes in the order in which a walk enters them, each with the
instructions of the nodes above it.  Whether a node is run is a matter of what is above it alone: a
record lets the nodes below it run, a group does so if its condition holds, and a report and an
assignment never do (`Instruction.Opens`).  A place is live if all that is above it does.

What a node does by itself (`Instruction.event?`) is at most one event.  The events of a plan are
those of its live places in order (`eventsAll_eq_liveEvents`), and `Plan.execute_live_places` says
this of a run.  A fault is the event of one place, and keeps no place from being live but those
below.
-/
import ParametricPlan.Proofs.Plan.Halting

namespace ParametricPlan

/-! ### Places -/

/-- A node in a plan: the instructions of the nodes above it, from the root on, and its own. -/
structure Place where
  above : List Instruction
  instruction : Instruction

mutual

/-- The places of a node and of what is below it. -/
def Node.places (above : List Instruction) : Node → List Place
  | .mk instruction children => ⟨above, instruction⟩ :: placesAll (above ++ [instruction]) children

/-- The places of nodes, in order. -/
def placesAll (above : List Instruction) : List Node → List Place
  | [] => []
  | node :: nodes => node.places above ++ placesAll above nodes

end

/-- The places of a plan. -/
def Plan.places (p : Plan) : List Place :=
  placesAll [] p.roots

variable {values : Ref → Option Value}

/-! ### Live places -/

/-- Whether the nodes below an instruction are run. -/
def Instruction.Opens (values : Ref → Option Value) : Instruction → Prop
  | group condition => condition.eval values = .ok (.bool true)
  | record _ => True
  | report .. | assign .. => False

instance (result : Except EvalError Value) (v : Value) : Decidable (result = .ok v) :=
  match result with
  | .ok w => decidable_of_iff (w = v) ⟨congrArg Except.ok, Except.ok.inj⟩
  | .error _ => isFalse nofun

instance (values : Ref → Option Value) : DecidablePred (Instruction.Opens values)
  | .group condition => inferInstanceAs (Decidable (condition.eval values = .ok (.bool true)))
  | .record _ => isTrue trivial
  | .report .. | .assign .. => isFalse not_false

/-- Everything above a place lets it run. -/
def Place.Live (values : Ref → Option Value) (place : Place) : Prop :=
  ∀ instruction ∈ place.above, instruction.Opens values

instance (values : Ref → Option Value) : DecidablePred (Place.Live values) :=
  fun place => inferInstanceAs (Decidable (∀ instruction ∈ place.above, instruction.Opens values))

theorem placesAll_eq_flatMap (above : List Instruction) (nodes : List Node) :
    placesAll above nodes = nodes.flatMap (Node.places above) := by
  induction nodes with
  | nil => rfl
  | cons node nodes ih => rw [placesAll, List.flatMap_cons, ih]

/-- What is above a node is above each place in it. -/
theorem mem_above_of_mem_places {node : Node} {above : List Instruction} {place : Place}
    (h : place ∈ node.places above) {i : Instruction} (hi : i ∈ above) : i ∈ place.above := by
  induction node generalizing above with
  | mk instruction children ih =>
    rw [Node.places, placesAll_eq_flatMap] at h
    rcases List.mem_cons.mp h with rfl | hbelow
    · exact hi
    · obtain ⟨child, hc, hplace⟩ := List.mem_flatMap.mp hbelow
      exact ih child hc hplace (List.mem_append_left [instruction] hi)

/-! ### The events of live places -/

/-- What an instruction does by itself when it is run. -/
def Instruction.event? (values : Ref → Option Value) : Instruction → Option Event
  | group condition =>
    match condition.eval values with
    | .ok (.bool _) => none
    | .ok v => some (.fault (.notBoolean v.kind))
    | .error e => some (.fault (.evaluation e))
  | report label formula =>
    match formula.eval values with
    | .ok v => some (.action (label ++ " = " ++ v.text))
    | .error e => some (.fault (.evaluation e))
  | record label => some (.action label)
  | assign .. => none

/-- The events of the live ones among some places, in order. -/
def liveEvents (values : Ref → Option Value) (places : List Place) : List Event :=
  (places.filter (Place.Live values)).filterMap fun place => place.instruction.event? values

theorem liveEvents_append (places later : List Place) :
    liveEvents values (places ++ later) = liveEvents values places ++ liveEvents values later := by
  simp only [liveEvents, List.filter_append, List.filterMap_append]

theorem liveEvents_cons_of_live {place : Place} (h : place.Live values) (places : List Place) :
    liveEvents values (place :: places) =
      (place.instruction.event? values).toList ++ liveEvents values places := by
  have hfilter : (place :: places).filter (Place.Live values) =
      place :: places.filter (Place.Live values) := List.filter_cons_of_pos (decide_eq_true h)
  rw [liveEvents, hfilter, List.filterMap_cons]
  rcases place.instruction.event? values with - | event <;> rfl

/-- Nothing happens below an instruction that is not open. -/
theorem liveEvents_placesAll_of_not_opens {above : List Instruction} {instruction : Instruction}
    (hin : instruction ∈ above) (h : ¬ instruction.Opens values) (nodes : List Node) :
    liveEvents values (placesAll above nodes) = [] := by
  have hnone : (placesAll above nodes).filter (Place.Live values) = [] := by
    refine List.filter_eq_nil_iff.mpr fun place hplace hlive => ?_
    rw [placesAll_eq_flatMap] at hplace
    -- the instruction is above every place in the nodes, so none of these is live
    obtain ⟨node, -, hnode⟩ := List.mem_flatMap.mp hplace
    exact h (of_decide_eq_true hlive instruction (mem_above_of_mem_places hnode hin))
  rw [liveEvents, hnone]
  rfl

/-- The events of a node are its own, and those below it if it lets them run. -/
theorem Node.events_mk (instruction : Instruction) (children : List Node) :
    (Node.mk instruction children).events values =
      (instruction.event? values).toList ++
        if instruction.Opens values then eventsAll values children else [] := by
  rcases instruction with condition | ⟨label, formula⟩ | label | ⟨target, formula⟩
  · -- a group has an event of its own unless its condition is a truth value
    rcases hv : condition.eval values with e | ⟨_ | _⟩ | x | ⟨x, y⟩ <;>
      simp [Node.events, Instruction.event?, Instruction.Opens, hv]
  · rcases hv : formula.eval values with e | v <;>
      simp [Node.events, Instruction.event?, Instruction.Opens, hv]
  · simp [Node.events, Instruction.event?, Instruction.Opens]
  · simp [Node.events, Instruction.event?, Instruction.Opens]

/-- If it is so for each of some siblings, their events are those of the live places among them. -/
theorem eventsAll_eq_liveEvents_of {nodes : List Node} {above : List Instruction}
    (h : ∀ node ∈ nodes, node.events values = liveEvents values (node.places above)) :
    eventsAll values nodes = liveEvents values (placesAll above nodes) := by
  induction nodes with
  | nil => rfl
  | cons node nodes ih =>
    have hnodes := ih fun n hn => h n (List.mem_cons_of_mem node hn)
    rw [eventsAll, placesAll, liveEvents_append, ← h node List.mem_cons_self, hnodes]

theorem Node.events_eq_liveEvents (node : Node) {above : List Instruction}
    (h : ∀ instruction ∈ above, instruction.Opens values) :
    node.events values = liveEvents values (node.places above) := by
  -- on the node, for whatever is above it as long as all of that is open
  induction node generalizing above with
  | mk instruction children ih =>
    have hlive : Place.Live values ⟨above, instruction⟩ := h
    rw [Node.events_mk, Node.places, liveEvents_cons_of_live hlive]
    congr 1
    split
    case isTrue hopens =>
      have hbelow : ∀ i ∈ above ++ [instruction], i.Opens values :=
        List.forall_mem_append.mpr ⟨h, List.forall_mem_singleton.mpr hopens⟩
      exact eventsAll_eq_liveEvents_of fun child hc => ih child hc hbelow
    case isFalse hopens =>
      have hin : instruction ∈ above ++ [instruction] := by simp
      exact (liveEvents_placesAll_of_not_opens hin hopens children).symm

/-- The events of a plan are those of its live places. -/
theorem eventsAll_eq_liveEvents (values : Ref → Option Value) (p : Plan) :
    eventsAll values p.roots = liveEvents values p.places :=
  eventsAll_eq_liveEvents_of fun node _ => node.events_eq_liveEvents nofun

/-! ### Runs -/

/-- **A run comes to the live places, to each of them once and in order.**  A session that proceeds
produces the events of the live places of the plan and no others, whatever faults are among them:
the faults come after those before, and bindings and guard stay what they are. -/
theorem Plan.execute_live_places (p : Plan) {s : Session}
    (proceeds : s.context.guard = ⟨.proceed, false⟩) :
    s.Produces (liveEvents s.context.bindings.lookup p.places) (s.execute p) ∧
      (s.execute p).context.guard = s.context.guard := by
  have hrun := Session.produces_takeAll_proceed proceeds
    (eventsAll s.context.bindings.lookup p.roots)
  rw [← Session.execute_eq_takeAll, eventsAll_eq_liveEvents] at hrun
  exact ⟨hrun.1, hrun.2.trans proceeds.symm⟩

/-- A condition without a value, a condition that does not hold, and a report with a node below. -/
theorem execute_live_places_beside_faults :
    let p : Plan := ⟨[.mk (.group (.reference ⟨1⟩)) [.mk (.record "unbound") []],
      .mk (.record "outer") [.mk (.group (.constant (.bool false))) [.mk (.record "unmet") []],
        .mk (.report "r" (.constant (.bool true))) [.mk (.record "ignored") []]]]⟩
    let s := Session.start (Context.fresh .empty .proceed)
    s.context.guard = ⟨.proceed, false⟩ ∧ p.places.length = 7 ∧
      (s.execute p).events.toList =
        [.fault (.evaluation (.unresolvedReference ⟨1⟩)), .action "outer", .action "r = true"] := by
  intro p s
  refine ⟨rfl, rfl, ?_⟩
  have hrun := (p.execute_live_places (s := s) rfl).1.events
  rw [hrun]
  rfl

end ParametricPlan
