import ErrorIntake.Intake
import ErrorIntake.Ledger.Memory
import ErrorIntake.Ledger.Unreliable
import ErrorIntake.Queue.Unreliable
import ErrorIntake.Worker.Crew

/-!
# The pipeline

A whole intake in memory: protocols that read submissions, the queue that reports cross, hooks, and
the store that workers fill.  Queue and store can be given outages, to see what the pipeline makes
of them.
-/

namespace ErrorIntake

open Calendar (Reading)
open Queue (Broker Connection)
open Submission (Envelope Protocols)
open Worker (Crew Hook Outcome Site Trace)

/-- An intake in memory. -/
structure Pipeline where
  protocols : Protocols
  queue : EventQueue
  hooks : List Hook
  broker : Queue.Unreliable Broker
  store : Ledger.Unreliable Ledger.Memory
  /-- How many of the next recordings the store will never answer. -/
  stalls : Nat := 0

namespace Pipeline

/-- The calls of a queue backend that can fail. -/
def queueCalls : List Queue.Call := [.publish, .receive, .ack, .nack, .deadLetter, .depth]

/-- The calls of a store that can fail. -/
def storeCalls : List Ledger.Call := [.group, .record]

/-- How many calls are still to fail. -/
def outages (p : Pipeline) : Nat :=
  (queueCalls.map p.broker.outages ++ storeCalls.map p.store.outages).foldl Nat.add 0

/-- How many messages wait on the queue, claimed or not. -/
def queued (p : Pipeline) : Nat := p.broker.inner.depth p.queue.name

/-- How many messages are parked. -/
def parked (p : Pipeline) : Nat := p.broker.inner.depth p.queue.deadName

/-- Takes a submission in. -/
def ingest (p : Pipeline) (now : Reading) (freshId version : String) (e : Envelope) :
    Except IntakeError (List String) × Pipeline × List LogRecord :=
  let (answer, broker, logs) := Intake.ingest p.protocols p.queue now freshId version e p.broker
  (answer, { p with broker }, logs)

/-- One attempt of a worker. -/
def runOnce (p : Pipeline) (now : Reading) : Worker.Attempted × Pipeline × Trace :=
  let (result, broker, store, shown) := Worker.runOnce p.queue p.hooks now p.broker p.store
  (result, { p with broker, store }, shown)

/-- Processes a report that did not cross the queue. -/
def process (p : Pipeline) (now : Reading) (r : Report) :
    Except StoreError Outcome × Pipeline × Trace :=
  let (result, store, shown) := Worker.process p.hooks r now.wall p.store
  (result, { p with store }, shown)

/-- Lets so many workers work until the queue is empty or one of them is stuck, and shuts them down.
    Workers that are told to stop at once do not begin, and without grace none gets to its end. -/
def employ (p : Pipeline) (now : Reading) (count : Nat) (stopAtOnce hasGrace : Bool) :
    Pipeline × Trace :=
  let most := Crew.roundsFor p.queue count p.queued p.outages
  let site : Site _ _ := { queue := p.broker, store := p.store, stalls := p.stalls }
  let (crew, site) :=
    if stopAtOnce then (Crew.start count, site)
    else Crew.rounds p.queue p.hooks now (Crew.isIdle p.queue) most (Crew.start count) site
  let site := Crew.shutdown p.queue p.hooks now (if hasGrace then most else 0) crew site
  ({ p with broker := site.queue, store := site.store, stalls := site.stalls }, site.trace)

end Pipeline

end ErrorIntake
