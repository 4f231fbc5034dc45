/-
ParametricPlan/Plan/FaultBoard.lean

Contexts that share a fault log.

A board has one shared log and any number of members, each of them the fault side of a context: a
guard, and either a log of its own or the use of the shared one.  A reset of a member that uses the
shared log clears it for all of them, and lets only that member's run go on.
-/
import ParametricPlan.Plan.Fault

namespace ParametricPlan

/-- The fault side of a context; without a log of its own it uses the shared one. -/
structure Member where
  guard : Guard
  ownLog : Option (List Fault)
deriving DecidableEq

/-- A shared log and the contexts around it; logs have the oldest fault first. -/
structure FaultBoard where
  shared : List Fault
  members : List Member
deriving DecidableEq

/-- What can happen to a board; members are known by their position. -/
inductive BoardEvent where
  /-- A fault is reported to a member. -/
  | report (member : Nat) (fault : Fault)
  /-- A member is reset. -/
  | reset (member : Nat)
  /-- A fault is written to the shared log. -/
  | record (fault : Fault)
  /-- The shared log is cleared. -/
  | clear
  /-- The log that a member uses is cleared. -/
  | clearOf (member : Nat)
deriving DecidableEq

namespace FaultBoard

/-- A board with nothing in its logs; the flags say which members use the shared log. -/
def fresh (members : List (Policy × Bool)) : FaultBoard where
  shared := []
  members := members.map fun (policy, shares) =>
    ⟨.fresh policy, if shares then none else some []⟩

/-- The log that a member uses. -/
def logOf (b : FaultBoard) (m : Member) : List Fault :=
  m.ownLog.getD b.shared

/-- Changes the guard of a member, and the log that it uses. -/
def update (b : FaultBoard) (i : Nat) (guard : Guard → Guard) (log : List Fault → List Fault) :
    FaultBoard :=
  match b.members[i]? with
  | none => b
  | some ⟨g, some own⟩ => ⟨b.shared, b.members.set i ⟨guard g, some (log own)⟩⟩
  | some ⟨g, none⟩ => ⟨log b.shared, b.members.set i ⟨guard g, none⟩⟩

/-- The board after an event. -/
def step (b : FaultBoard) : BoardEvent → FaultBoard
  | .report i f => b.update i Guard.trip (· ++ [f])
  | .reset i => b.update i Guard.reset fun _ => []
  | .record f => ⟨b.shared ++ [f], b.members⟩
  | .clear => ⟨[], b.members⟩
  | .clearOf i => b.update i id fun _ => []

/-- The board after some events. -/
def run (b : FaultBoard) (events : List BoardEvent) : FaultBoard :=
  events.foldl step b

end FaultBoard
end ParametricPlan
