/-
ParametricPlan/Proofs/Plan/FaultBoard.lean

What the guards and logs of a board tell of its events.

A board keeps no events, but all that it keeps can be read off them:

* a member is halted if its policy is `halt` and a fault was reported to it since it was last reset,
  whatever has become of the logs;
* a log of a member's own has the faults that were reported to the member since the member was reset
  or the log cleared;
* the shared log has the faults that were written to it, by whoever uses it, since somebody cleared
  it.

So guards and logs part: a member that is reset takes the faults of others from the shared log, and
leaves the others halted.

An event reaches a member through `Member.hear` alone, whatever the rest of the board is
(`getElem?_members_run`), and what a member tells of the events is kept by one event more
(`Member.Tells.hear`).  The shared log needs to know of the members only which of them use it, and
that never changes (`usesShared_run`).  `guards_and_logs_tell_events` is the main result.
-/
import Mathlib.Data.List.DropRight
import Mathlib.Data.List.Induction
import ParametricPlan.Plan.FaultBoard

namespace ParametricPlan

/-! ### Events and logs -/

namespace BoardEvent

/-- The events after the last one of a kind, or all of them if none is of that kind. -/
def since (kind : BoardEvent → Bool) (events : List BoardEvent) : List BoardEvent :=
  events.rtakeWhile fun event => !kind event

/-- One more event is added to those since the last of a kind, unless it is of that kind. -/
theorem since_concat (kind : BoardEvent → Bool) (events : List BoardEvent) (event : BoardEvent) :
    since kind (events ++ [event]) = if kind event then [] else since kind events ++ [event] := by
  rw [since, List.rtakeWhile_concat]
  rcases kind event with - | - <;> rfl

/-- Whether an event happens to a member or to the log it uses. -/
def concerns (i : Nat) : BoardEvent → Bool
  | report j _ | reset j | clearOf j => j = i
  | record _ | clear => false

theorem concerns_iff {i : Nat} {event : BoardEvent} :
    event.concerns i = true ↔
      (∃ f, event = .report i f) ∨ event = .reset i ∨ event = .clearOf i := by
  cases event <;> simp [concerns]

/-- The fault that an event reports to a member. -/
def faultTo? (i : Nat) : BoardEvent → Option Fault
  | report j f => if j = i then some f else none
  | reset _ | record _ | clear | clearOf _ => none

/-- Whether an event clears the log that a member uses, by way of the member. -/
def clearsBy (i : Nat) : BoardEvent → Bool
  | reset j | clearOf j => j = i
  | report .. | record _ | clear => false

/-- The fault that an event writes to the shared log, if these members use it. -/
def sharedFault? (uses : Nat → Bool) : BoardEvent → Option Fault
  | report j f => if uses j then some f else none
  | record f => some f
  | reset _ | clear | clearOf _ => none

/-- Whether an event clears the shared log, if these members use it. -/
def clearsShared (uses : Nat → Bool) : BoardEvent → Bool
  | reset j | clearOf j => uses j
  | clear => true
  | report .. | record _ => false

/-- A log that was empty at first and has taken in some events. -/
def logged (clears : BoardEvent → Bool) (fault? : BoardEvent → Option Fault)
    (events : List BoardEvent) : List Fault :=
  (since clears events).filterMap fault?

/-- One more event clears the log, or is logged. -/
theorem logged_concat (clears : BoardEvent → Bool) (fault? : BoardEvent → Option Fault)
    (events : List BoardEvent) (event : BoardEvent) :
    logged clears fault? (events ++ [event]) =
      if clears event then [] else logged clears fault? events ++ (fault? event).toList := by
  rw [logged, since_concat]
  split
  · rfl
  · rw [List.filterMap_append]
    rcases h : fault? event with - | f <;> simp [logged, h]

end BoardEvent

open BoardEvent

/-! ### Members -/

namespace Member

/-- What becomes of a member at an event; `i` is its position. -/
def hear (i : Nat) (m : Member) : BoardEvent → Member
  | .report j f => if j = i then ⟨m.guard.trip, m.ownLog.map (· ++ [f])⟩ else m
  | .reset j => if j = i then ⟨m.guard.reset, m.ownLog.map fun _ => []⟩ else m
  | .clearOf j => if j = i then ⟨m.guard, m.ownLog.map fun _ => []⟩ else m
  | .record _ | .clear => m

theorem hear_of_not_concerns {i : Nat} {event : BoardEvent} (h : event.concerns i = false)
    (m : Member) : m.hear i event = m := by
  cases event with
  | report j f => exact if_neg (of_decide_eq_false h)
  | reset j => exact if_neg (of_decide_eq_false h)
  | record f => rfl
  | clear => rfl
  | clearOf j => exact if_neg (of_decide_eq_false h)

/-- Events that do not concern a member may be left out. -/
theorem foldl_hear_filter (i : Nat) (events : List BoardEvent) (m : Member) :
    (events.filter (concerns i)).foldl (hear i) m = events.foldl (hear i) m := by
  induction events generalizing m with
  | nil => rfl
  | cons event events ih =>
    by_cases h : event.concerns i
    · rw [List.filter_cons_of_pos h, List.foldl_cons, List.foldl_cons, ih]
    · rw [List.filter_cons_of_neg h, List.foldl_cons, ih,
        hear_of_not_concerns (eq_false_of_ne_true h)]

section

variable (i : Nat) (f : Fault) (m : Member)

theorem hear_report :
    m.hear i (.report i f) = ⟨m.guard.trip, m.ownLog.map (· ++ [f])⟩ :=
  if_pos rfl

theorem hear_reset : m.hear i (.reset i) = ⟨m.guard.reset, m.ownLog.map fun _ => []⟩ :=
  if_pos rfl

theorem hear_clearOf : m.hear i (.clearOf i) = ⟨m.guard, m.ownLog.map fun _ => []⟩ :=
  if_pos rfl

end

theorem policy_hear (i : Nat) (m : Member) (event : BoardEvent) :
    (m.hear i event).guard.policy = m.guard.policy := by
  by_cases h : event.concerns i
  · rcases concerns_iff.mp h with ⟨f, rfl⟩ | rfl | rfl
    · rw [hear_report, Guard.policy_trip]
    · rw [hear_reset]
      rfl
    · rw [hear_clearOf]
  · rw [hear_of_not_concerns (eq_false_of_ne_true h)]

theorem halted_hear (i : Nat) (m : Member) (event : BoardEvent) :
    (m.hear i event).guard.halted = true ↔
      event ≠ .reset i ∧
        (m.guard.halted = true ∨ m.guard.policy = .halt ∧ ∃ f, event = .report i f) := by
  by_cases h : event.concerns i
  · rcases concerns_iff.mp h with ⟨f, rfl⟩ | rfl | rfl
    · rw [hear_report, Guard.halted_trip]
      simp
    · rw [hear_reset]
      simp [Guard.reset]
    · rw [hear_clearOf]
      simp
  · have hreset : event ≠ .reset i := fun heq => h (concerns_iff.mpr (.inr (.inl heq)))
    have hreport : ¬ ∃ f, event = .report i f := fun hf => h (concerns_iff.mpr (.inl hf))
    rw [hear_of_not_concerns (eq_false_of_ne_true h)]
    simp [hreset, hreport]

theorem ownLog_hear (i : Nat) (m : Member) (event : BoardEvent) :
    (m.hear i event).ownLog =
      m.ownLog.map fun log =>
        if event.clearsBy i then [] else log ++ (event.faultTo? i).toList := by
  cases event with
  | report j f => by_cases hj : j = i <;> simp [hear, hj, clearsBy, faultTo?]
  | reset j => by_cases hj : j = i <;> simp [hear, hj, clearsBy, faultTo?]
  | record f => simp [hear, clearsBy, faultTo?]
  | clear => simp [hear, clearsBy, faultTo?]
  | clearOf j => by_cases hj : j = i <;> simp [hear, hj, clearsBy, faultTo?]

/-- What a member tells of the events so far; `i` is its position. -/
structure Tells (m : Member) (i : Nat) (policy : Policy) (shares : Bool)
    (events : List BoardEvent) : Prop where
  halted : m.guard.halted = true ↔
    policy = .halt ∧ ∃ f, .report i f ∈ since (· = .reset i) events
  ownLog : m.ownLog = if shares then none else some (logged (clearsBy i) (faultTo? i) events)
  policy_eq : m.guard.policy = policy

theorem tells_fresh (i : Nat) (policy : Policy) (shares : Bool) :
    Tells ⟨.fresh policy, if shares then none else some []⟩ i policy shares [] where
  halted := by simp [Guard.fresh, since]
  ownLog := rfl
  policy_eq := rfl

/-- **One more event.** -/
theorem Tells.hear {m : Member} {i : Nat} {policy : Policy} {shares : Bool}
    {events : List BoardEvent} (h : m.Tells i policy shares events) (event : BoardEvent) :
    (m.hear i event).Tells i policy shares (events ++ [event]) where
  halted := by
    rw [halted_hear, h.halted, h.policy_eq, since_concat]
    by_cases hreset : event = .reset i
    · simp [hreset]
    · -- the event comes after all those since the last reset
      simp only [ne_eq, hreset, not_false_eq_true, true_and, decide_false, Bool.false_eq_true,
        if_false, List.mem_append, List.mem_singleton, exists_or, and_or_left, eq_comm]
  ownLog := by
    rw [ownLog_hear, h.ownLog, logged_concat]
    rcases shares with - | - <;> rfl
  policy_eq := (policy_hear i m event).trans h.policy_eq

theorem tells_foldl_hear (i : Nat) (policy : Policy) (shares : Bool) (events : List BoardEvent) :
    (events.foldl (Member.hear i) ⟨.fresh policy, if shares then none else some []⟩).Tells
      i policy shares events := by
  induction events using List.reverseRecOn with
  | nil => exact tells_fresh i policy shares
  | append_singleton events event ih =>
    rw [List.foldl_concat]
    exact ih.hear event

end Member

/-! ### Boards -/

namespace FaultBoard

/-- Whether a member uses the shared log. -/
def usesShared (b : FaultBoard) (i : Nat) : Bool :=
  b.members[i]?.any fun m => m.ownLog.isNone

theorem getElem?_members_update (b : FaultBoard) (j : Nat) (guard : Guard → Guard)
    (log : List Fault → List Fault) (i : Nat) :
    (b.update j guard log).members[i]? =
      b.members[i]?.map fun m => if j = i then ⟨guard m.guard, m.ownLog.map log⟩ else m := by
  rcases hj : b.members[j]? with - | ⟨g, own⟩
  · -- there is no such member, and nothing happens
    have hnone : b.update j guard log = b := by rw [update, hj]
    rw [hnone]
    by_cases hji : j = i
    · rw [← hji, hj]
      rfl
    · simp only [if_neg hji, Option.map_id']
  · have hset : (b.update j guard log).members = b.members.set j ⟨guard g, own.map log⟩ := by
      rw [update, hj]
      rcases own with - | own <;> rfl
    rw [hset]
    by_cases hji : j = i
    · subst hji
      obtain ⟨hlt, -⟩ := List.getElem?_eq_some_iff.mp hj
      rw [List.getElem?_set_self hlt, hj, Option.map_some, if_pos rfl]
    · rw [List.getElem?_set_ne hji]
      simp only [if_neg hji, Option.map_id']

/-- An operation on a member changes the shared log just if the member uses it. -/
theorem shared_update (b : FaultBoard) (j : Nat) (guard : Guard → Guard)
    (log : List Fault → List Fault) :
    (b.update j guard log).shared = if b.usesShared j then log b.shared else b.shared := by
  rw [update, usesShared]
  rcases b.members[j]? with - | ⟨g, - | own⟩ <;> rfl

/-- An event reaches each member by itself. -/
theorem getElem?_members_step (b : FaultBoard) (event : BoardEvent) (i : Nat) :
    (b.step event).members[i]? = b.members[i]?.map fun m => m.hear i event := by
  cases event with
  | report j f => exact b.getElem?_members_update j _ _ i
  | reset j => exact b.getElem?_members_update j _ _ i
  | record f => exact Option.map_id'.symm
  | clear => exact Option.map_id'.symm
  | clearOf j => exact b.getElem?_members_update j _ _ i

/-- The events of a run reach each member by itself. -/
theorem getElem?_members_run (b : FaultBoard) (events : List BoardEvent) (i : Nat) :
    (b.run events).members[i]? = b.members[i]?.map fun m => events.foldl (Member.hear i) m := by
  induction events generalizing b with
  | nil => exact Option.map_id'.symm
  | cons event events ih =>
    show ((b.step event).run events).members[i]? = _
    rw [ih, getElem?_members_step, Option.map_map]
    rfl

theorem usesShared_step (b : FaultBoard) (event : BoardEvent) :
    (b.step event).usesShared = b.usesShared := by
  funext i
  rw [usesShared, usesShared, getElem?_members_step, Option.any_map]
  congr 1
  funext m
  show (m.hear i event).ownLog.isNone = m.ownLog.isNone
  rw [Member.ownLog_hear, Option.isNone_map]

/-- Which members use the shared log never changes. -/
theorem usesShared_run (b : FaultBoard) (events : List BoardEvent) :
    (b.run events).usesShared = b.usesShared := by
  induction events generalizing b with
  | nil => rfl
  | cons event events ih => exact (ih (b.step event)).trans (b.usesShared_step event)

theorem shared_step (b : FaultBoard) (event : BoardEvent) :
    (b.step event).shared =
      if event.clearsShared b.usesShared then []
      else b.shared ++ (event.sharedFault? b.usesShared).toList := by
  cases event with
  | report j f =>
    rw [step, shared_update, sharedFault?]
    rcases b.usesShared j with - | - <;> simp [clearsShared]
  | reset j =>
    rw [step, shared_update, clearsShared]
    simp [sharedFault?]
  | record f => rfl
  | clear => rfl
  | clearOf j =>
    rw [step, shared_update, clearsShared]
    simp [sharedFault?]

/-- The shared log has what was written to it since it was cleared. -/
theorem shared_run (b : FaultBoard) (hempty : b.shared = []) (events : List BoardEvent) :
    (b.run events).shared =
      logged (clearsShared b.usesShared) (sharedFault? b.usesShared) events := by
  induction events using List.reverseRecOn with
  | nil => exact hempty
  | append_singleton events event ih =>
    have hrun : b.run (events ++ [event]) = (b.run events).step event := List.foldl_concat ..
    rw [hrun, shared_step, usesShared_run, ih, logged_concat]

theorem usesShared_fresh (members : List (Policy × Bool)) :
    (fresh members).usesShared = fun i => members[i]?.any Prod.snd := by
  funext i
  rw [usesShared, fresh, List.getElem?_map, Option.any_map]
  congr 1
  funext ⟨policy, shares⟩
  rcases shares with - | - <;> rfl

/-- Each member of a board that was fresh tells of the events. -/
theorem tells_run_fresh {members : List (Policy × Bool)} {i : Nat} {policy : Policy}
    {shares : Bool} (h : members[i]? = some (policy, shares)) (events : List BoardEvent) :
    ∃ m, ((fresh members).run events).members[i]? = some m ∧ m.Tells i policy shares events := by
  refine ⟨_, ?_, Member.tells_foldl_hear i policy shares events⟩
  rw [getElem?_members_run, fresh, List.getElem?_map, h]
  rfl

/-- **What guards and logs tell of the events.**  Let a board be fresh, and then some events happen.

The shared log has the faults that were written to it, or reported to a member that uses it, after
it was cleared for the last time, be it by itself or by way of a member that uses it.

Each member keeps its policy.  It is halted if and only if its policy is `halt` and a fault was
reported to it since it was reset for the last time.  Its log is the shared one, or has the faults
reported to it since it was reset or its log cleared; and of all the events only those that concern
the member make any difference to its guard and to a log of its own. -/
theorem guards_and_logs_tell_events (members : List (Policy × Bool)) (events : List BoardEvent) :
    let uses : Nat → Bool := fun i => members[i]?.any Prod.snd
    let b := (fresh members).run events
    b.shared = logged (clearsShared uses) (sharedFault? uses) events ∧
    (∀ i policy shares, members[i]? = some (policy, shares) →
      ∃ m, b.members[i]? = some m ∧ m.guard.policy = policy ∧
        (m.guard.halted = true ↔
          policy = .halt ∧ ∃ f, .report i f ∈ since (· = .reset i) events) ∧
        b.logOf m = if shares then b.shared else logged (clearsBy i) (faultTo? i) events) ∧
    ∀ i, ((fresh members).run (events.filter (concerns i))).members[i]? = b.members[i]? := by
  intro uses b
  refine ⟨?_, ?_, ?_⟩
  · show b.shared = _
    rw [shared_run _ rfl, usesShared_fresh]
  · intro i policy shares h
    obtain ⟨m, hm, htells⟩ := tells_run_fresh h events
    refine ⟨m, hm, htells.policy_eq, htells.halted, ?_⟩
    rw [logOf, htells.ownLog]
    rcases shares with - | - <;> rfl
  · intro i
    rw [getElem?_members_run, getElem?_members_run]
    congr 1
    funext m
    exact Member.foldl_hear_filter i events m

/-- One member is halted and another one is reset, which empties the log of both; the third keeps a
log of its own until that is cleared, and stays halted. -/
theorem guards_and_logs_part :
    let members : List (Policy × Bool) := [(.halt, true), (.proceed, true), (.halt, false)]
    let events : List BoardEvent := [.report 0 (.notBoolean .number), .report 2 (.notBoolean .bool),
      .reset 1, .record (.notBoolean .vector), .clearOf 2]
    let b := (fresh members).run events
    members[0]? = some (.halt, true) ∧ members[2]? = some (.halt, false) ∧
      b.shared = [.notBoolean .vector] ∧
      (∃ m, b.members[0]? = some m ∧ m.guard.halted = true ∧ b.logOf m = [.notBoolean .vector]) ∧
      ∃ m, b.members[2]? = some m ∧ m.guard.halted = true ∧ b.logOf m = [] := by
  intro members events b
  obtain ⟨hshared, hmembers, -⟩ := guards_and_logs_tell_events members events
  obtain ⟨m, hm, -, hhalted, hlog⟩ := hmembers 0 .halt true rfl
  obtain ⟨m', hm', -, hhalted', hlog'⟩ := hmembers 2 .halt false rfl
  refine ⟨rfl, rfl, hshared.trans rfl, ⟨m, hm, hhalted.mpr ⟨rfl, .notBoolean .number, ?_⟩,
    hlog.trans (hshared.trans rfl)⟩, m', hm', hhalted'.mpr ⟨rfl, .notBoolean .bool, ?_⟩,
    hlog'.trans rfl⟩
  · decide
  · decide

end FaultBoard
end ParametricPlan
