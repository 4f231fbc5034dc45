/-
ParametricPlan/Proofs/Plan/Events.lean

Execution as the feeding of events.

What happens in the execution of a node that nothing ends depends on the values of references
only: `Node.events` writes it down as a list, without a state.  A runtime that takes in the events
of a list is asked before each of them whether it is halted (`Runtime.takeAll`).

`executeAll_eq_takeAll` is the semantics lemma.  If a runtime keeps the values of references
(`Runtime.Steady`), then

    executeAll rt nodes s = rt.takeAll (eventsAll (rt.values s) nodes) s.

Execution asks before each node, and not before each event; the lemma says that no event gets
through between two nodes, at whatever depth the runtime was halted.
-/
import ParametricPlan.Plan.Execution
import ParametricPlan.Proofs.Plan.Induction

namespace ParametricPlan

variable {S : Type}

/-! ### Taking in events -/

namespace Runtime

/-- Takes in an event. -/
def take (rt : Runtime S) (s : S) : Event → S
  | .action line => rt.act s line
  | .fault f => rt.fail s f

/-- Takes in events, up to the first before which the runtime is halted. -/
def takeAll (rt : Runtime S) : List Event → S → S
  | [], s => s
  | event :: events, s => if rt.halted s then s else takeAll rt events (rt.take s event)

/-- The values of references stay what they are. -/
structure Steady (rt : Runtime S) : Prop where
  act : ∀ s line, rt.values (rt.act s line) = rt.values s
  fail : ∀ s f, rt.values (rt.fail s f) = rt.values s

variable {rt : Runtime S} {s : S}

/-- A runtime that is halted takes in nothing. -/
theorem takeAll_halted (h : rt.halted s = true) (events : List Event) :
    rt.takeAll events s = s := by
  rcases events with - | ⟨event, events⟩
  · rfl
  · rw [takeAll, if_pos h]

theorem takeAll_cons (h : rt.halted s = false) (event : Event) (events : List Event) :
    rt.takeAll (event :: events) s = rt.takeAll events (rt.take s event) := by
  rw [takeAll, h]
  rfl

/-- Events may be taken in in two portions: if the runtime is halted in the first one, it is still
halted before the second. -/
theorem takeAll_append (events later : List Event) (s : S) :
    rt.takeAll (events ++ later) s = rt.takeAll later (rt.takeAll events s) := by
  induction events generalizing s with
  | nil => rfl
  | cons event events ih =>
    rcases h : rt.halted s with - | -
    · rw [List.cons_append, takeAll_cons h, takeAll_cons h, ih]
    · -- halted before the first event, and so before all later ones
      rw [takeAll_halted h, takeAll_halted h, takeAll_halted h]

/-- A runtime that is never halted takes in all events. -/
theorem takeAll_eq_foldl (h : ∀ s, rt.halted s = false) (events : List Event) (s : S) :
    rt.takeAll events s = events.foldl rt.take s := by
  induction events generalizing s with
  | nil => rfl
  | cons event events ih => rw [takeAll_cons (h s), ih, List.foldl_cons]

theorem Steady.values_take (steady : rt.Steady) (s : S) (event : Event) :
    rt.values (rt.take s event) = rt.values s := by
  rcases event with line | f
  · exact steady.act s line
  · exact steady.fail s f

/-- The values are the same after any events, taken in or not. -/
theorem Steady.values_takeAll (steady : rt.Steady) (events : List Event) (s : S) :
    rt.values (rt.takeAll events s) = rt.values s := by
  induction events generalizing s with
  | nil => rfl
  | cons event events ih =>
    rcases h : rt.halted s with - | -
    · rw [takeAll_cons h, ih, steady.values_take]
    · rw [takeAll_halted h]

end Runtime

/-! ### The events of nodes -/

mutual

/-- The events of a node and of what is below it, if nothing ends the run. -/
def Node.events (values : Ref → Option Value) : Node → List Event
  | .mk instruction children =>
    match instruction with
    | .group condition =>
      match condition.eval values with
      | .ok (.bool true) => eventsAll values children
      | .ok (.bool false) => []
      | .ok v => [.fault (.notBoolean v.kind)]
      | .error e => [.fault (.evaluation e)]
    | .report label formula =>
      match formula.eval values with
      | .ok v => [.action (label ++ " = " ++ v.text)]
      | .error e => [.fault (.evaluation e)]
    | .record label => .action label :: eventsAll values children
    | .assign _ _ => []

/-- The events of nodes, in order. -/
def eventsAll (values : Ref → Option Value) : List Node → List Event
  | [] => []
  | node :: nodes => node.events values ++ eventsAll values nodes

end

/-! ### Execution -/

section

variable {rt : Runtime S}

theorem executeAll_halted {s : S} (h : rt.halted s = true) (nodes : List Node) :
    executeAll rt nodes s = s := by
  rcases nodes with - | ⟨node, nodes⟩
  · rfl
  · rw [executeAll, if_pos h]

/-- The semantics lemma for siblings, from that for each of them. The values after a node are those
before it, so that the events of the later siblings may be written down beforehand. -/
theorem executeAll_eq_takeAll_of (steady : rt.Steady) {nodes : List Node}
    (hnodes : ∀ node ∈ nodes, ∀ s, rt.halted s = false →
      node.execute rt s = rt.takeAll (node.events (rt.values s)) s) (s : S) :
    executeAll rt nodes s = rt.takeAll (eventsAll (rt.values s) nodes) s := by
  induction nodes generalizing s with
  | nil => rfl
  | cons node nodes ih =>
    rcases h : rt.halted s with - | -
    · have hnode := hnodes node List.mem_cons_self s h
      have hrest := ih (fun n hn => hnodes n (List.mem_cons_of_mem node hn)) (node.execute rt s)
      rw [executeAll, h, eventsAll, Runtime.takeAll_append, ← hnode, if_neg Bool.false_ne_true,
        hrest, hnode, steady.values_takeAll]
    · -- halted before the node: neither side goes on
      rw [executeAll_halted h, Runtime.takeAll_halted h]

/-- The semantics lemma for a node. It asks for a runtime that is not halted, as a node does not ask
before its own event. -/
theorem execute_eq_takeAll (steady : rt.Steady) (node : Node) {s : S}
    (h : rt.halted s = false) :
    node.execute rt s = rt.takeAll (node.events (rt.values s)) s := by
  induction node generalizing s with
  | mk instruction children ih =>
    have hchildren : ∀ s, executeAll rt children s =
        rt.takeAll (eventsAll (rt.values s) children) s :=
      executeAll_eq_takeAll_of steady fun child hc s hs => ih child hc hs
    rcases instruction with condition | ⟨label, formula⟩ | label | ⟨target, formula⟩
    · -- a group: each of the values of its condition but `true` gives at most one event
      rcases hv : condition.eval (rt.values s) with e | ⟨_ | _⟩ | x | ⟨x, y⟩ <;>
        simp only [Node.execute, Node.events, hv, hchildren, Runtime.takeAll_cons h,
          Runtime.takeAll, Runtime.take]
    · rcases hv : formula.eval (rt.values s) with e | v <;>
        simp only [Node.execute, Node.events, hv, Runtime.takeAll_cons h, Runtime.takeAll,
          Runtime.take]
    · rw [Node.execute, Node.events, Runtime.takeAll_cons h, hchildren, steady.act]
      rfl
    · rfl

/-- **Execution feeds the runtime the events of the nodes** until it is halted. -/
theorem executeAll_eq_takeAll (steady : rt.Steady) (nodes : List Node) (s : S) :
    executeAll rt nodes s = rt.takeAll (eventsAll (rt.values s) nodes) s :=
  executeAll_eq_takeAll_of steady (fun node _ _ hs => execute_eq_takeAll steady node hs) s

end
end ParametricPlan
