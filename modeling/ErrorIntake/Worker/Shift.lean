import ErrorIntake.Worker.Attempt

/-!
# The loop of a worker

A worker drains the queue: it makes one attempt after another until the queue is empty or fails.
Then it rests and drains again.  A worker that is told to stop ends the attempt it is in, begins no
other, and stops.  A call that panics ends its worker then and there.
-/

namespace ErrorIntake.Worker

open Calendar (Reading)
open Ledger (EventStore)
open Queue (QueueBackend)

/-- Where a worker stands. -/
inductive Shift
  /-- It is about to ask whether it was told to stop. -/
  | asking
  | attempting (a : Attempt)
  /-- It has left the queue, and stops or drains again. -/
  | resting
  | stopped
  deriving Repr

namespace Shift

/-- Where the end of an attempt leads to, and what is logged about it. -/
def afterAttempt : Attempted → Shift × List LogRecord
  | .ok (some _) => (.asking, [])
  | .ok none => (.resting, [])
  | .error (.store e) => (.asking, [.storeFailed e])
  | .error (.transport (.queue .overflow)) => (.stopped, [])
  | .error (.transport e) => (.resting, [.queueUnavailable e])

/-- No attempt follows the end of another. -/
theorem afterAttempt_ne_attempting (result : Attempted) (a : Attempt) :
    (afterAttempt result).1 ≠ .attempting a := by
  intro same
  unfold afterAttempt at same
  split at same <;> cases same

variable {σ τ : Type} [QueueBackend σ] [EventStore τ]

/-- One step of a worker: one call of queue or store, or one look at whether it was told to
    stop. -/
def step (q : EventQueue) (hooks : List Hook) (toldToStop : Bool) (now : Reading) (w : Shift)
    (s : σ) (t : τ) : Shift × σ × τ × Trace :=
  match w with
  | .asking => (if toldToStop then .resting else .attempting .start, s, t, {})
  | .attempting a =>
    match a.step q hooks now s t with
    | (.more next, s, t, shown) => (.attempting next, s, t, shown)
    | (.done result, s, t, shown) =>
      let (next, logs) := afterAttempt result
      (next, s, t, shown ++ { logs })
  | .resting => (if toldToStop then .stopped else .asking, s, t, {})
  | .stopped => (.stopped, s, t, {})

/-- The worker is about to record an event. -/
def isRecording : Shift → Bool
  | .attempting (.recording ..) => true
  | _ => false

/-- The worker has left the queue. -/
def isResting : Shift → Bool
  | .resting => true
  | _ => false

/-- The worker has stopped. -/
def isStopped : Shift → Bool
  | .stopped => true
  | _ => false

end Shift

end ErrorIntake.Worker
