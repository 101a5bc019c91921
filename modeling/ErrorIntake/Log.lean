import ErrorIntake.Error

/-!
# Log records

The records of warnings and errors that operators see.  A record is a value that the operation
returns beside its result, so what is logged, and in which order, is part of what can be stated.
-/

namespace ErrorIntake

/-- How grave a record is. -/
inductive Severity
  | warn
  | error
  deriving DecidableEq, Repr

/-- A warning or an error worth an operator's attention. -/
inductive LogRecord
  /-- An interface could not be decoded and is kept with nothing set. -/
  | malformedInterface (interface key : String)
  /-- A message was delivered as often as allowed and is parked. -/
  | attemptsExhausted (queue : String) (id : MessageId) (attempt limit : Nat)
  /-- A message is no event and is parked. -/
  | undecodable (queue : String) (id : MessageId)
  /-- A hook panicked on an event that is stored. -/
  | hookPanicked (hook eventId : String) (group : Int) (panic : String)
  /-- An event could not be stored and will be delivered again. -/
  | storeFailed (error : StoreError)
  /-- The queue failed, and the worker waits before it asks again. -/
  | queueUnavailable (error : TransportError)
  /-- Workers are given up that did not stop in time. -/
  | graceElapsed (remaining : Nat)
  deriving DecidableEq, Repr

namespace LogRecord

/-- How grave a record is. -/
def severity : LogRecord → Severity
  | hookPanicked .. => .error
  | storeFailed .. => .error
  | _ => .warn

/-- What a record says. -/
def message : LogRecord → String
  | malformedInterface .. => "Malformed interface, keeping defaults"
  | attemptsExhausted .. => "Delivery attempts exhausted, dead-lettering"
  | undecodable .. => "Undecodable message, dead-lettering"
  | hookPanicked .. => "Event hook panicked"
  | storeFailed .. => "Failed to store event, leaving for redelivery"
  | queueUnavailable .. => "Queue unavailable, backing off"
  | graceElapsed .. => "Shutdown grace period elapsed, aborting workers"

end LogRecord

end ErrorIntake
