import ErrorIntake.Report

/-!
# Events

An event is one occurrence of an error.  It belongs to a group, and is never changed once it is
recorded.
-/

namespace ErrorIntake.Ledger

open Json (Value)
open Calendar (Instant)

/-- An event that is not recorded yet. -/
structure NewEvent where
  eventId : String
  project : ProjectId
  group : Int
  message : String
  level : Level
  logger : String
  serverName : String
  culprit : String
  platform : String
  checksum : String
  timeSpent : Option Int
  datetime : Instant
  data : Value
  deriving Repr

/-- The event of a report in a group. -/
def NewEvent.ofReport (r : Report) (project : ProjectId) (group : Int) : NewEvent where
  eventId := r.eventId
  project := project
  group := group
  message := r.message
  level := r.level
  logger := r.logger
  serverName := r.serverName
  culprit := r.culprit
  platform := r.platform
  checksum := r.checksum
  timeSpent := r.timeSpent
  datetime := r.datetime
  data := .ofTable r.snapshot

/-- A recorded event: its row, and what was recorded. -/
structure Event extends NewEvent where
  id : Int
  deriving Repr

end ErrorIntake.Ledger
