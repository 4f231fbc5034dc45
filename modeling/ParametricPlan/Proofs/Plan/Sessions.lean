/-
ParametricPlan/Proofs/Plan/Sessions.lean

Sessions over any number of runs.

A session may execute plans and single nodes, be reset, and have its bindings changed, in whatever
order (`Operation`).  A run gives it some events to take in, one after the other
(`Session.takeIn`); a plan asks before each of them whether the session is halted, and a node that
is executed by itself does not ask before its own.  So what is kept by one event is kept by any run:

* bindings and policy stay what they are, and events and faults are only added (`produces_takeIn`);
* the session is halted afterwards if and only if it was before, or its policy is `halt` and there
  is a fault among the events (`halted_takeIn`);
* the session is halted just if its policy is `halt` and its log is not empty
  (`Context.Settled.report`).

What a session has done before makes no difference to what it does next but through its context
(`execute_following`), and a reset leaves the context fresh.  `operations_keep_settled` is the main
result.
-/
import ParametricPlan.Proofs.Evaluation.Bindings
import ParametricPlan.Proofs.Plan.Places

namespace ParametricPlan

/-! ### Settled contexts -/

namespace Context

/-- A context is halted if and only if its policy is `halt` and there are faults in its log. -/
def Settled (c : Context) : Prop :=
  c.halted = true ↔ c.guard.policy = .halt ∧ c.faults.toList ≠ []

theorem settled_fresh (bindings : Bindings) (policy : Policy) :
    (fresh bindings policy).Settled := by
  simp [Settled, fresh, halted, Guard.fresh]

theorem settled_reset (c : Context) : c.reset.Settled := by
  simp [Settled, reset, halted, Guard.reset]

/-- A fault is logged, and halts the context if the policy is `halt`. -/
theorem Settled.report {c : Context} (h : c.Settled) (f : Fault) : (c.report f).Settled := by
  obtain ⟨bindings, ⟨- | -, halted⟩, faults⟩ := c
  · -- a fault does not halt the context, and it was not halted before
    have hrunning : halted = false := by
      rcases halted with - | -
      · rfl
      · exact absurd (h.mp rfl).1 nofun
    simp [Settled, Context.report, Context.halted, Guard.trip, hrunning]
  · simp [Settled, Context.report, Context.halted, Guard.trip]

end Context

/-! ### Taking in events -/

namespace Session

/-- What halts a session is a fault under the policy `halt`, and nothing ends that but a reset. -/
theorem halted_takeIn (s : Session) (events : List Event) :
    (s.takeIn events).context.halted = true ↔
      s.context.halted = true ∨ s.context.guard.policy = .halt ∧ Faulty events := by
  induction events generalizing s with
  | nil => exact ⟨Or.inl, fun h => h.elim id fun hfaulty => absurd hfaulty.2 not_faulty_nil⟩
  | cons event events ih =>
    have hrest := ih (runtime.take s event)
    rw [(produces_take s event).policy] at hrest
    show ((runtime.take s event).takeIn events).context.halted = true ↔ _
    rw [hrest]
    rcases event with line | f
    · -- an action: the guard stays as it is
      rw [faulty_action_cons]
      rfl
    · have htrip : (runtime.take s (.fault f)).context.halted = true ↔
          s.context.halted = true ∨ s.context.guard.policy = .halt := s.context.guard.halted_trip
      rw [htrip]
      simp only [faulty_fault_cons, and_true]
      exact ⟨fun h => h.elim id fun h' => .inr h'.1, .inl⟩

theorem settled_takeIn {s : Session} (h : s.context.Settled) (events : List Event) :
    (s.takeIn events).context.Settled := by
  induction events generalizing s with
  | nil => exact h
  | cons event events ih =>
    rcases event with line | f
    · exact ih (s := runtime.take s (.action line)) h
    · exact ih (s := runtime.take s (.fault f)) (h.report f)

/-! ### Runs -/

/-- A plan that is executed gives the session some events to take in. -/
theorem exists_execute_eq_takeIn (s : Session) (p : Plan) :
    ∃ added, s.execute p = s.takeIn added := by
  obtain ⟨added, -, hrun⟩ :=
    s.exists_takeAll_eq_takeIn (eventsAll s.context.bindings.lookup p.roots)
  exact ⟨added, (s.execute_eq_takeAll p).trans hrun⟩

/-- A node that is executed by itself in a session that is halted does what its instruction does,
and nothing below it is run. -/
theorem executeNode_halted {s : Session} (h : s.context.halted = true) (instruction : Instruction)
    (children : List Node) :
    s.executeNode (.mk instruction children) =
      s.takeIn (instruction.event? s.context.bindings.lookup).toList := by
  show Node.execute runtime (.mk instruction children) s =
    s.takeIn (instruction.event? (runtime.values s)).toList
  rcases instruction with condition | ⟨label, formula⟩ | label | ⟨target, formula⟩
  · -- a group: if its condition holds, the session is asked before the children, and is halted
    have hbelow : executeAll runtime children s = s := executeAll_halted h children
    rcases hv : condition.eval (runtime.values s) with e | ⟨_ | _⟩ | x | ⟨x, y⟩ <;>
      simp only [Node.execute, Instruction.event?, hv, hbelow, takeIn, Option.toList, List.foldl,
        Runtime.take]
  · rcases hv : formula.eval (runtime.values s) with e | v <;>
      simp only [Node.execute, Instruction.event?, hv, takeIn, Option.toList, List.foldl,
        Runtime.take]
  · -- a record: it is logged, which leaves the session halted
    exact executeAll_halted (s := runtime.act s label) h children
  · rfl

example :
    let s := (start (.fresh .empty .halt)).execute ⟨[.mk (.group (.constant (.vector 0 0))) []]⟩
    (s.executeNode (.mk (.record "once more") [.mk (.record "below") []])).events.toList =
      [.fault (.notBoolean .vector), .action "once more"] :=
  rfl

/-- A node that is executed by itself gives the session some events to take in. -/
theorem exists_executeNode_eq_takeIn (s : Session) (node : Node) :
    ∃ added, s.executeNode node = s.takeIn added := by
  rcases halted : s.context.halted with - | -
  · -- the node may be run as one of a plan
    have hrun : s.executeNode node = runtime.takeAll (node.events s.context.bindings.lookup) s :=
      ParametricPlan.execute_eq_takeAll steady_runtime node halted
    obtain ⟨added, -, hadded⟩ :=
      s.exists_takeAll_eq_takeIn (node.events s.context.bindings.lookup)
    exact ⟨added, hrun.trans hadded⟩
  · obtain ⟨instruction, children⟩ := node
    exact ⟨_, executeNode_halted halted instruction children⟩

/-! ### What was done before -/

/-- A session after some events that it does not know of. -/
def following (s : Session) (earlier : Array Event) : Session :=
  ⟨s.context, earlier ++ s.events⟩

theorem take_following (s : Session) (earlier : Array Event) (event : Event) :
    runtime.take (s.following earlier) event = (runtime.take s event).following earlier := by
  rcases event with line | f
  · exact congrArg (Session.mk s.context) Array.push_append
  · exact congrArg (Session.mk (s.context.report f)) Array.push_append

theorem takeAll_following (s : Session) (earlier : Array Event) (events : List Event) :
    runtime.takeAll events (s.following earlier) =
      (runtime.takeAll events s).following earlier := by
  induction events generalizing s with
  | nil => rfl
  | cons event events ih =>
    rcases halted : runtime.halted s with - | -
    · have hfollowing : runtime.halted (s.following earlier) = false := halted
      rw [Runtime.takeAll_cons halted, Runtime.takeAll_cons hfollowing, take_following, ih]
    · have hfollowing : runtime.halted (s.following earlier) = true := halted
      rw [Runtime.takeAll_halted halted, Runtime.takeAll_halted hfollowing]

/-- A run does not look at the events of before. -/
theorem execute_following (s : Session) (earlier : Array Event) (p : Plan) :
    (s.following earlier).execute p = (s.execute p).following earlier := by
  rw [execute_eq_takeAll, execute_eq_takeAll]
  exact takeAll_following s earlier _

theorem reset_eq_following (s : Session) :
    s.reset =
      (start (.fresh s.context.bindings s.context.guard.policy)).following s.events :=
  congrArg (Session.mk s.context.reset) Array.append_empty.symm

/-! ### Operations -/

/-- Changes the bindings. -/
def change (s : Session) (c : Bindings.Change) : Session :=
  ⟨{ s.context with bindings := s.context.bindings.change c }, s.events⟩

/-- What can be done with a session. -/
inductive Operation where
  | execute (plan : Plan)
  | executeNode (node : Node)
  | reset
  | change (change : Bindings.Change)

/-- The session after an operation. -/
def operate (s : Session) : Operation → Session
  | .execute p => s.execute p
  | .executeNode node => s.executeNode node
  | .reset => s.reset
  | .change c => s.change c

/-- The session after some operations. -/
def operateAll (s : Session) (operations : List Operation) : Session :=
  operations.foldl operate s

/-- An operation gives the session events to take in, resets it, or changes its bindings. -/
theorem operate_cases (s : Session) (operation : Operation) :
    (∃ added, s.operate operation = s.takeIn added) ∨
      s.operate operation = s.reset ∨ ∃ c, s.operate operation = s.change c := by
  rcases operation with p | node | - | c
  · exact .inl (s.exists_execute_eq_takeIn p)
  · exact .inl (s.exists_executeNode_eq_takeIn node)
  · exact .inr (.inl rfl)
  · exact .inr (.inr ⟨c, rfl⟩)

theorem settled_operate {s : Session} (h : s.context.Settled) (operation : Operation) :
    (s.operate operation).context.Settled ∧
      (s.operate operation).context.guard.policy = s.context.guard.policy := by
  rcases s.operate_cases operation with ⟨added, hrun⟩ | hreset | ⟨c, hchange⟩
  · rw [hrun]
    exact ⟨settled_takeIn h added, (s.produces_takeIn added).policy⟩
  · rw [hreset]
    exact ⟨s.context.settled_reset, rfl⟩
  · rw [hchange]
    exact ⟨h, rfl⟩

/-- Any operations leave a settled session settled, with its policy. -/
theorem settled_operateAll {s : Session} (h : s.context.Settled) (operations : List Operation) :
    (s.operateAll operations).context.Settled ∧
      (s.operateAll operations).context.guard.policy = s.context.guard.policy := by
  induction operations generalizing s with
  | nil => exact ⟨h, rfl⟩
  | cons operation operations ih =>
    obtain ⟨hstep, hpolicy⟩ := settled_operate h operation
    obtain ⟨hsettled, hrest⟩ := ih hstep
    exact ⟨hsettled, hrest.trans hpolicy⟩

/-- **What any number of operations keeps.**  Start a session in a fresh context, and let any
operations be done with it.  It is halted if and only if its policy is `halt` and its log of faults
is not empty.  If it then executes a plan or a node, this produces some events: their faults come
after those in the log, bindings and policy stay, and the session is halted afterwards if and only
if it was before or a fault of the events halts it.  If it is reset and then executes a plan, its
context becomes what a fresh context with the same bindings and the same policy becomes, and the
same events are added. -/
theorem operations_keep_settled (bindings : Bindings) (policy : Policy)
    (operations : List Operation) :
    let s := (start (.fresh bindings policy)).operateAll operations
    let runs : Session → Prop := fun s' => ∃ added, s.Produces added s' ∧
      (s'.context.halted = true ↔ s.context.halted = true ∨ policy = .halt ∧ Faulty added)
    s.context.guard.policy = policy ∧
    (s.context.halted = true ↔ policy = .halt ∧ s.context.faults.toList ≠ []) ∧
    (∀ p, runs (s.execute p)) ∧
    (∀ node, runs (s.executeNode node)) ∧
    ∀ p, (s.reset.execute p).context =
        ((start (.fresh s.context.bindings policy)).execute p).context ∧
      (s.reset.execute p).events =
        s.events ++ ((start (.fresh s.context.bindings policy)).execute p).events := by
  intro s runs
  obtain ⟨hsettled, hpolicy⟩ := settled_operateAll (s := start (.fresh bindings policy))
    (Context.settled_fresh bindings policy) operations
  have hpolicy : s.context.guard.policy = policy := hpolicy
  have htakeIn : ∀ added, runs (s.takeIn added) := by
    intro added
    refine ⟨added, s.produces_takeIn added, ?_⟩
    rw [halted_takeIn, hpolicy]
  refine ⟨hpolicy, ?_, ?_, ?_, ?_⟩
  · rw [← hpolicy]
    exact hsettled
  · intro p
    obtain ⟨added, hrun⟩ := s.exists_execute_eq_takeIn p
    exact hrun ▸ htakeIn added
  · intro node
    obtain ⟨added, hrun⟩ := s.exists_executeNode_eq_takeIn node
    exact hrun ▸ htakeIn added
  · -- after a reset only the events of before are left, and they are not looked at
    intro p
    rw [reset_eq_following, execute_following, hpolicy]
    exact ⟨rfl, rfl⟩

end Session
end ParametricPlan
