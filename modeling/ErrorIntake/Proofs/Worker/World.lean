import ErrorIntake.Proofs.Ledger.Counters
import ErrorIntake.Proofs.Worker.Calls
import Mathlib.Logic.Function.Basic
import Mathlib.Logic.Relation

/-!
# Workers at one queue

Any number of workers and producers share one event queue over a broker and one store, and take
their calls in any order.  Beside broker, store and workers a `World` keeps what happened so far:
which messages were published and acknowledged, and which row came of which message.
-/

namespace ErrorIntake.Worker

open Calendar (Reading)
open Ledger (Event Memory Unreliable)
open Queue (Broker)

/-- A queue, a store and workers, and what happened so far. -/
structure World where
  broker : Broker
  store : Unreliable Memory
  /-- The attempt that each worker is in, if it is in one. -/
  workers : Nat → Option Attempt
  published : List MessageId
  acked : List MessageId
  /-- The rows in the order in which they were recorded, each with the message that it came of. -/
  produced : List (MessageId × Event)

namespace World

/-- Nothing was published yet and no worker is at work. -/
def start : World where
  broker := .empty
  store := { inner := .empty, failure := fun _ => .database }
  workers := fun _ => none
  published := []
  acked := []
  produced := []

/-- A producer publishes a report. -/
def push (q : EventQueue) (now : Reading) (r : Report) (w : World) : World :=
  let (answer, broker) := q.push now r w.broker
  { w with broker, published := w.published ++ answer.toOption.toList }

/-- The next calls of the store fail, so many of each kind and in this way. -/
def suffer (outages : Ledger.Call → Nat) (failure : Ledger.Call → StoreError) (w : World) :
    World :=
  { w with store := { w.store with outages, failure } }

/-- An idle worker begins an attempt. -/
def begin (i : Nat) (w : World) : World :=
  { w with workers := Function.update w.workers i (some .start) }

/-- The attempt after a call, if the call did not end it. -/
def nextOf : Progress Attempt Attempted → Option Attempt
  | .more a => some a
  | .done _ => none

/-- What a call acknowledges. -/
def ackedBy : Progress Attempt Attempted → Attempt → List MessageId
  | .done (.ok (some _)), a => a.claimed?.toList
  | _, _ => []

/-- What a call records. -/
def producedBy : Progress Attempt Attempted → List (MessageId × Event)
  | .more (.acking d o) => [(d.id, o.event)]
  | _ => []

/-- The world after a call of a worker that led to this. -/
def after (i : Nat) (a : Attempt) (p : Progress Attempt Attempted) (b : Broker)
    (t : Unreliable Memory) (w : World) : World where
  broker := b
  store := t
  workers := Function.update w.workers i (nextOf p)
  published := w.published
  acked := w.acked ++ ackedBy p a
  produced := w.produced ++ producedBy p

/-- A worker makes the next call of its attempt. -/
def act (q : EventQueue) (hooks : List Hook) (i : Nat) (a : Attempt) (now : Reading) (w : World) :
    World :=
  let (p, b, t, _) := a.step q hooks now w.broker w.store
  w.after i a p b t

/-- Some worker holds a message. -/
def Claims (w : World) (id : MessageId) : Prop :=
  ∃ i a, w.workers i = some a ∧ a.claimed? = some id

/-- Some worker has recorded a message and not acknowledged it yet. -/
def Records (w : World) (id : MessageId) : Prop :=
  ∃ i a, w.workers i = some a ∧ a.recorded? = some id

/-- No message that a worker holds can be claimed at this time. -/
def Hides (q : EventQueue) (now : Reading) (w : World) : Prop :=
  ∀ id s, w.Claims id → w.broker.slot? id = some s → ¬ s.isAvailable q.name now.steady

/-- One call, or one change from outside. -/
inductive Step (q : EventQueue) (hooks : List Hook) : World → World → Prop
  | push (w : World) (now : Reading) (r : Report) : Step q hooks w (w.push q now r)
  | suffer (w : World) (outages : Ledger.Call → Nat) (failure : Ledger.Call → StoreError) :
      Step q hooks w (w.suffer outages failure)
  | begin (w : World) (i : Nat) (idle : w.workers i = none) : Step q hooks w (w.begin i)
  /-- A message is claimed only once the worker that held it has ended its attempt. -/
  | act (w : World) (i : Nat) (a : Attempt) (now : Reading) (busy : w.workers i = some a)
      (hidden : a = .start → w.Hides q now) : Step q hooks w (w.act q hooks i a now)

/-- A world that comes of the empty one. -/
def Reachable (q : EventQueue) (hooks : List Hook) (w : World) : Prop :=
  Relation.ReflTransGen (Step q hooks) start w

/-- How many rows came of a message. -/
def rowsOf (w : World) (id : MessageId) : Nat := (w.produced.map Prod.fst).count id

/-- Where a published message can be. -/
inductive Place
  | queued
  | parked
  | acked
  deriving DecidableEq, Repr

/-- A message is at a place. -/
def At (q : EventQueue) (w : World) (id : MessageId) : Place → Prop
  | .queued => ∃ s, w.broker.slot? id = some s ∧ s.queue = q.name
  | .parked => ∃ s, w.broker.slot? id = some s ∧ s.queue = q.deadName
  | .acked => id ∈ w.acked

end World

end ErrorIntake.Worker
