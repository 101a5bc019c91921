import ErrorIntake.Bounds
import ErrorIntake.GroupStatus
import ErrorIntake.Report

/-!
# Groups

A group stands for one error of one project: every event with the same checksum belongs to it.  It
keeps what the first event told, counts the events, and has a status that people set and that a new
event can change: a resolved group that is seen again is unresolved.
-/

namespace ErrorIntake.Ledger

open Json (Value)
open Calendar (Instant)

/-- What tells two groups apart. -/
structure Key where
  project : ProjectId
  checksum : String
  deriving DecidableEq, Repr

/-- A group as its first event describes it. -/
structure NewGroup where
  project : ProjectId
  logger : String
  level : Level
  message : String
  culprit : String
  checksum : String
  platform : String
  data : Value
  seenAt : Instant
  deriving Repr

/-- The group that a report belongs to, if it is the first of it. -/
def NewGroup.ofReport (r : Report) (project : ProjectId) (seenAt : Instant) : NewGroup where
  project := project
  logger := r.logger
  level := r.level
  message := r.message
  culprit := r.culprit
  checksum := r.checksum
  platform := r.platform
  data := .ofTable r.data
  seenAt := seenAt

/-- The key of a group that is not stored yet. -/
def NewGroup.key (g : NewGroup) : Key := ⟨g.project, g.checksum⟩

/-- All events of one error. -/
structure Group where
  id : Int
  project : ProjectId
  logger : String
  level : Level
  message : String
  culprit : String
  checksum : String
  platform : String
  status : GroupStatus
  /-- How many events were recorded. -/
  timesSeen : Int
  firstSeen : Instant
  lastSeen : Instant
  /-- When the group was unresolved for the last time, which its creation does. -/
  activeAt : Instant
  resolvedAt : Option Instant
  /-- The milliseconds of all events that told them. -/
  timeSpentTotal : Int
  /-- How many events told milliseconds. -/
  timeSpentCount : Int
  data : Value
  deriving Repr

namespace Group

/-- The key of a group. -/
def key (g : Group) : Key := ⟨g.project, g.checksum⟩

/-- A group without events. -/
def create (id : Int) (g : NewGroup) : Group where
  id := id
  project := g.project
  logger := g.logger
  level := g.level
  message := g.message
  culprit := g.culprit
  checksum := g.checksum
  platform := g.platform
  status := .unresolved
  timesSeen := 0
  firstSeen := g.seenAt
  lastSeen := g.seenAt
  activeAt := g.seenAt
  resolvedAt := none
  timeSpentTotal := 0
  timeSpentCount := 0
  data := g.data

/-- The milliseconds that an event took, on average over the events that told them. -/
def averageTimeSpent (g : Group) : Option Double :=
  if 0 < g.timeSpentCount then
    (Double.ofInt g.timeSpentTotal).div? (Double.ofInt g.timeSpentCount)
  else none

/-- The group with another status.  Resolving notes the time; unresolving makes the group active
    again and forgets when it was resolved. -/
def withStatus (g : Group) (status : GroupStatus) (now : Instant) : Group :=
  match status with
  | .resolved => { g with status := .resolved, resolvedAt := some now }
  | .unresolved => { g with status := .unresolved, resolvedAt := none, activeAt := now }
  | .muted => { g with status := .muted }

/-- The totals of milliseconds once one more event is counted; none if the sum does not fit. -/
def addTimeSpent? (g : Group) (spent : Option Int) : Option (Int × Int) :=
  match spent with
  | none => some (g.timeSpentTotal, g.timeSpentCount)
  | some ms =>
    let total := g.timeSpentTotal + ms
    if IsInt64 total then some (total, g.timeSpentCount + 1) else none

/-- The group with one more event, and with these totals.  A resolved group is reopened. -/
def counted (g : Group) (seenAt : Instant) (total count : Int) : Group :=
  let counted :=
    { g with timesSeen := g.timesSeen + 1, lastSeen := seenAt, timeSpentTotal := total,
             timeSpentCount := count }
  if g.status = .resolved then counted.withStatus .unresolved seenAt else counted

end Group

end ErrorIntake.Ledger
