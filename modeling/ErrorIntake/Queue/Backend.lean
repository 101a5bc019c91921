import ErrorIntake.Calendar.Clock
import ErrorIntake.Error
import ErrorIntake.Text.Utf8

/-!
# Queue backends

A backend holds named queues of messages.  A consumer claims the oldest message that is visible on
a queue and then acknowledges it, gives it back or moves it to another queue; a claimed message is
hidden from others for as long as the claim says.  Every call may fail.

A backend also promises that a message which is moved away is no longer held by the queue it came
from.  Loops that move messages away end because of that promise.
-/

namespace ErrorIntake.Queue

open Calendar (Instant Reading)

/-- A message that a consumer has claimed. -/
structure Message where
  id : MessageId
  payload : Bytes
  /-- How often it was claimed on its queue, this claim included. -/
  attempt : UInt32
  enqueuedAt : Instant
  deriving DecidableEq, Repr

/-- The outcome of a call, and the backend after it. -/
abbrev Called (σ α : Type) := Except QueueError α × σ

/-- Named queues with at-least-once delivery. -/
class QueueBackend (σ : Type) where
  /-- Adds a message at the end of a queue. -/
  publish (now : Reading) (queue : String) (payload : Bytes) (s : σ) : Called σ MessageId
  /-- Claims the oldest visible message and hides it for so many nanoseconds.  More of them than any
      clock can show are an overflow. -/
  receive (now : Reading) (queue : String) (timeout : Nat) (s : σ) : Called σ (Option Message)
  /-- Removes a message for good. -/
  ack (queue : String) (id : MessageId) (s : σ) : Called σ Unit
  /-- Makes a claimed message visible again at once. -/
  nack (now : Reading) (queue : String) (id : MessageId) (s : σ) : Called σ Unit
  /-- Moves a message to another queue, where it is visible at once and counts no attempts. -/
  deadLetter (now : Reading) (queue : String) (id : MessageId) (dead : String) (s : σ) :
    Called σ Unit
  /-- How many messages a queue holds, claimed or not. -/
  depth (queue : String) (s : σ) : Called σ Nat
  /-- What a queue holds, whatever the calls say. -/
  backlog (queue : String) (s : σ) : Nat
  /-- A claim adds nothing to a queue. -/
  backlog_receive (now : Reading) (queue : String) (timeout : Nat) (s : σ) :
    backlog queue (receive now queue timeout s).2 ≤ backlog queue s
  /-- A message that is moved away is no longer held. -/
  backlog_deadLetter (now : Reading) (queue : String) (id : MessageId) (dead : String) (s : σ) :
    queue ≠ dead → (deadLetter now queue id dead s).1 = .ok () →
      backlog queue (deadLetter now queue id dead s).2 < backlog queue s

end ErrorIntake.Queue
