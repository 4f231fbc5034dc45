/-
ParametricPlan/Proofs/Plan/Members.lean

Sessions as members of a board.

The context of a session has a guard and a log of its own, as a member of a board may have.  A board
that is told of each fault that the session takes in, and of each of its resets (`Session.told`),
therefore has the fault side of the context as a member, whatever else happens to the board
(`getElem?_members_run_of_told`).  Plans and nodes reach the member only through the faults that
they add: that is `member_takeIn`, and the rest is one step for each operation.

So what members tell of the events is true of sessions: `tells_operateAll` says which of its faults
a session still has in its log.
-/
import ParametricPlan.Proofs.Plan.FaultBoard
import ParametricPlan.Proofs.Plan.Sessions

namespace ParametricPlan

open BoardEvent

/-! ### Contexts -/

namespace Context

/-- The fault side of a context, which has a log of its own. -/
def member (c : Context) : Member :=
  ⟨c.guard, some c.faults.toList⟩

/-- A member of a board hears of faults and resets what a context makes of them. -/
theorem member_report (c : Context) (i : Nat) (f : Fault) :
    (c.report f).member = c.member.hear i (.report i f) := by
  rw [Member.hear_report]
  simp [member, report]

theorem member_reset (c : Context) (i : Nat) : c.reset.member = c.member.hear i (.reset i) := by
  rw [Member.hear_reset]
  rfl

end Context

/-! ### What a board is told -/

namespace Session

/-- What a board is told of an event in the session that is its member `i`: faults only. -/
def heard? (i : Nat) : Event → Option BoardEvent
  | .action _ => none
  | .fault f => some (.report i f)

/-- What a board is told of an operation: a reset, or the faults among the events that are added. -/
def told (i : Nat) (s : Session) : Operation → List BoardEvent
  | .reset => [.reset i]
  | operation => ((s.operate operation).events.toList.drop s.events.size).filterMap (heard? i)

/-- What a board is told of some operations. -/
def toldAll (i : Nat) : Session → List Operation → List BoardEvent
  | _, [] => []
  | s, operation :: operations =>
    s.told i operation ++ toldAll i (s.operate operation) operations

/-- The faults among the events of a run, however it came about, are all that a member needs to
hear of. -/
theorem member_takeIn (i : Nat) (s : Session) (events : List Event) :
    (s.takeIn events).context.member =
      (events.filterMap (heard? i)).foldl (Member.hear i) s.context.member := by
  induction events generalizing s with
  | nil => rfl
  | cons event events ih =>
    show ((runtime.take s event).takeIn events).context.member = _
    rw [ih]
    rcases event with line | f
    · -- an action is not heard of, and the context stays as it is
      rfl
    · show _ = (events.filterMap (heard? i)).foldl (Member.hear i)
        (s.context.member.hear i (.report i f))
      rw [← Context.member_report]
      rfl

theorem drop_takeIn (s : Session) (events : List Event) :
    (s.takeIn events).events.toList.drop s.events.size = events := by
  rw [(s.produces_takeIn events).events, ← Array.length_toList, List.drop_left]

/-- **One operation.** -/
theorem member_operate (i : Nat) (s : Session) (operation : Operation) :
    (s.operate operation).context.member =
      (s.told i operation).foldl (Member.hear i) s.context.member := by
  rcases operation with p | node | - | c
  · obtain ⟨added, hrun⟩ := s.exists_execute_eq_takeIn p
    have hoperate : s.operate (.execute p) = s.takeIn added := hrun
    rw [told, hoperate, drop_takeIn, member_takeIn]
    exact nofun
  · obtain ⟨added, hrun⟩ := s.exists_executeNode_eq_takeIn node
    have hoperate : s.operate (.executeNode node) = s.takeIn added := hrun
    rw [told, hoperate, drop_takeIn, member_takeIn]
    exact nofun
  · exact s.context.member_reset i
  · -- no event is added, and the fault side of the context does not depend on the bindings
    have hadded : s.told i (.change c) = [] := by
      show (s.events.toList.drop s.events.size).filterMap (heard? i) = []
      rw [← Array.length_toList, List.drop_length, List.filterMap_nil]
    rw [hadded]
    rfl

/-- The step above, along any number of operations. -/
theorem member_operateAll (i : Nat) (s : Session) (operations : List Operation) :
    (s.operateAll operations).context.member =
      (s.toldAll i operations).foldl (Member.hear i) s.context.member := by
  induction operations generalizing s with
  | nil => rfl
  | cons operation operations ih =>
    show ((s.operate operation).operateAll operations).context.member = _
    rw [ih, member_operate i, toldAll, List.foldl_append]

/-! ### Sessions and members -/

/-- What a session tells of what was done with it: it is halted just if its policy is `halt` and it
took in a fault since its last reset, and its log has the faults since then. -/
theorem tells_operateAll (i : Nat) (bindings : Bindings) (policy : Policy)
    (operations : List Operation) :
    let s := start (.fresh bindings policy)
    (s.operateAll operations).context.member.Tells i policy false (s.toldAll i operations) := by
  intro s
  rw [member_operateAll i]
  exact Member.tells_foldl_hear i policy false _

/-- **A session is a member of a board.**  Let a fresh board have at `i` a member with the policy of
a session and a log of its own, and let a fresh session do some operations.  If what happens to the
board and concerns the member is what the session tells of the operations, then the member is the
fault side of the session's context, whatever happens to the others and to the shared log in
between. -/
theorem getElem?_members_run_of_told {members : List (Policy × Bool)} {i : Nat} {policy : Policy}
    (h : members[i]? = some (policy, false)) (bindings : Bindings) (operations : List Operation)
    {events : List BoardEvent}
    (htold : events.filter (concerns i) =
      (start (.fresh bindings policy)).toldAll i operations) :
    ((FaultBoard.fresh members).run events).members[i]? =
      some ((start (.fresh bindings policy)).operateAll operations).context.member := by
  rw [FaultBoard.getElem?_members_run, FaultBoard.fresh, List.getElem?_map, h,
    member_operateAll i, ← htold, Member.foldl_hear_filter]
  rfl

example :
    let operations : List Operation :=
      [.execute ⟨[.mk (.group (.constant (.vector 0 0))) []]⟩, .reset,
        .executeNode (.mk (.record "on") [])]
    let events : List BoardEvent := [.report 0 (.notBoolean .number),
      .report 1 (.notBoolean .vector), .clear, .reset 1, .clearOf 0]
    events.filter (concerns 1) = (start (.fresh .empty .halt)).toldAll 1 operations :=
  rfl

end Session
end ParametricPlan
