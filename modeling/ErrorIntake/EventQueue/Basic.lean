import ErrorIntake.EventQueue.Payload
import ErrorIntake.Log
import ErrorIntake.Queue.Backend
import ErrorIntake.Settings.Basic
import ErrorIntake.Text.Quoted

/-!
# Event queues

An event queue puts reports on a named queue of some backend and takes them off again.  Delivery is
at least once: a message stays on the queue until its delivery is acknowledged.  A message that was
delivered as often as allowed, or that holds no report, is parked on another queue and skipped.
-/

namespace ErrorIntake

open Calendar (Reading)
open Queue (Message QueueBackend Called)

/-- How reports cross a queue. -/
structure EventQueue where
  /-- The queue that reports are published to. -/
  name : String
  compressor : Zlib.Compressor
  /-- The level of compression. -/
  compression : Nat
  /-- How often a message may be delivered. -/
  maxAttempts : UInt32
  /-- For how many seconds a claimed message is hidden. -/
  timeoutSecs : UInt64
  compression_le : compression ≤ Zlib.highestLevel
  maxAttempts_ne_zero : maxAttempts ≠ 0

/-- A report that was taken off a queue and is not acknowledged yet. -/
structure Delivery where
  event : Report
  id : MessageId
  /-- How often the message was delivered, this time included. -/
  attempt : UInt32
  queue : String
  deriving Repr

/-- What becomes of a claimed message. -/
inductive Verdict
  | deliver (event : Report)
  /-- It is parked, and the record says why. -/
  | park (warning : LogRecord)
  deriving Repr

/-- What a consumer gets: a delivery, or none if no message is visible. -/
abbrev Popped := Except TransportError (Option Delivery)

namespace EventQueue

/-- The queue of some settings.  Compression is capped, and one delivery is always allowed. -/
def ofSettings (s : QueueSettings) (compressor : Zlib.Compressor := .stored) : EventQueue where
  name := s.name
  compressor
  compression := min s.compressionLevel Zlib.highestLevel
  maxAttempts := if s.maxAttempts = 0 then 1 else s.maxAttempts
  timeoutSecs := s.visibilityTimeoutSecs
  compression_le := Nat.min_le_right ..
  maxAttempts_ne_zero := by
    split
    · decide
    · assumption

/-- The queue that messages are parked on. -/
def deadName (q : EventQueue) : String := q.name ++ ".dead"

theorem name_ne_deadName (q : EventQueue) : q.name ≠ q.deadName := by
  intro h
  have := congrArg String.length h
  simp [deadName, String.length_append] at this

/-- The payload that a report is published as. -/
def payload (q : EventQueue) (r : Report) : Bytes := encode q.compressor q.compression r

/-- For how many nanoseconds a claimed message is hidden. -/
def timeout (q : EventQueue) : Nat := q.timeoutSecs.toNat * Calendar.nanosPerSecond

/-- Claims that hide nothing end when they are made. -/
theorem timeout_eq_zero (q : EventQueue) (unhidden : q.timeoutSecs = 0) : q.timeout = 0 := by
  rw [timeout, unhidden]
  exact Nat.zero_mul _

/-- What becomes of a claimed message. -/
def judge (q : EventQueue) (m : Message) : Verdict :=
  if q.maxAttempts < m.attempt then
    .park (.attemptsExhausted q.name m.id m.attempt.toNat q.maxAttempts.toNat)
  else
    match decode? m.payload with
    | some event => .deliver event
    | none => .park (.undecodable q.name m.id)

/-- The delivery of a message that holds a report. -/
def delivery (q : EventQueue) (m : Message) (event : Report) : Delivery :=
  ⟨event, m.id, m.attempt, q.name⟩

/-- A call of the backend, whose failure is a failure to cross the queue. -/
def crossing (c : Called σ α) : Except TransportError α × σ :=
  (c.1.mapError TransportError.queue, c.2)

/-- A timeout as diagnostics show it. -/
def timeoutText (secs : UInt64) : String := if secs = 0 then "0ns" else s!"{secs.toNat}s"

/-- The diagnostic text of an event queue. -/
def debugText (q : EventQueue) : String :=
  "EventQueue \x7b queue: " ++ Text.quoted q.name ++ ", dead_letter: " ++ Text.quoted q.deadName ++
    ", compression: " ++ toString q.compression ++ ", max_attempts: " ++
    toString q.maxAttempts.toNat ++ ", visibility_timeout: " ++ timeoutText q.timeoutSecs ++
    ", .. \x7d"

section

variable {σ : Type} [QueueBackend σ]

/-- Publishes a report. -/
def push (q : EventQueue) (now : Reading) (r : Report) (s : σ) :
    Except TransportError MessageId × σ :=
  crossing (QueueBackend.publish now q.name (q.payload r) s)

/-- How many messages are parked. -/
def deadDepth (q : EventQueue) (s : σ) : Except TransportError Nat × σ :=
  crossing (QueueBackend.depth q.deadName s)

end

end EventQueue

namespace Delivery

/-- The diagnostic text of a delivery. -/
def debugText (d : Delivery) : String :=
  "Delivery \x7b event_id: " ++ Text.quoted d.event.eventId ++ ", message_id: MessageId(" ++
    d.id.toText ++ "), attempt: " ++ toString d.attempt.toNat ++ ", queue: " ++
    Text.quoted d.queue ++ ", .. \x7d"

variable {σ : Type} [QueueBackend σ]

/-- Removes a delivered message for good. -/
def ack (d : Delivery) (s : σ) : Except TransportError Unit × σ :=
  EventQueue.crossing (QueueBackend.ack d.queue d.id s)

/-- Gives a delivered message back, to be delivered again at once. -/
def nack (d : Delivery) (now : Reading) (s : σ) : Except TransportError Unit × σ :=
  EventQueue.crossing (QueueBackend.nack now d.queue d.id s)

end Delivery

end ErrorIntake
