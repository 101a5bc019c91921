import ErrorIntake.Worker.Shift

/-!
# A crew of workers

Several workers share one queue and one store.  They take turns.  Calls of a queue and a store in
memory are answered at once, so a worker that has its turn keeps it until it rests, stops, or waits
for an answer of the store that never comes.  This is one of the orders in which workers can act, and
nothing is claimed of the others here.  The crew works until the queue is empty or a worker is stuck;
then it is told to stop, and workers that cannot stop are given up.
-/

namespace ErrorIntake.Worker

open Calendar (Reading)
open Ledger (EventStore)
open Queue (QueueBackend)

/-- A worker of a crew: at work, or waiting for an answer that never comes. -/
inductive Member
  | working (w : Shift)
  | stuck
  deriving Repr

/-- What the workers of a crew share, and what is seen of their work. -/
structure Site (σ τ : Type) where
  queue : σ
  store : τ
  /-- How many of the next recordings the store will never answer. -/
  stalls : Nat := 0
  trace : Trace := {}

/-- Workers that share a queue and a store. -/
structure Crew where
  members : List Member
  toldToStop : Bool := false
  deriving Repr

namespace Crew

/-- A crew that has not done anything yet. -/
def start (count : Nat) : Crew := ⟨List.replicate count (.working .asking), false⟩

/-- The crew told to stop. -/
def stop (c : Crew) : Crew := { c with toldToStop := true }

/-- A worker that waits for an answer that never comes. -/
def isStuck : Member → Bool
  | .stuck => true
  | .working _ => false

/-- A worker that has stopped. -/
def hasStopped : Member → Bool
  | .stuck => false
  | .working w => w.isStopped

/-- The worker lets the next one have its turn. -/
def yields : Member → Bool
  | .stuck => true
  | .working w => w.isResting || w.isStopped

/-- How many workers have not stopped. -/
def remaining (c : Crew) : Nat := c.members.countP fun m => !hasStopped m

/-- Every worker has stopped or never will. -/
def isOver (c : Crew) : Bool := c.members.all fun m => hasStopped m || isStuck m

variable {σ τ : Type} [QueueBackend σ] [EventStore τ]

/-- The step of one worker. -/
def step (q : EventQueue) (hooks : List Hook) (toldToStop : Bool) (now : Reading) :
    Member → Site σ τ → Member × Site σ τ
  | .stuck, site => (.stuck, site)
  | .working w, site =>
    if w.isRecording && 0 < site.stalls then (.stuck, { site with stalls := site.stalls - 1 })
    else
      let (next, queue, store, shown) := w.step q hooks toldToStop now site.queue site.store
      (.working next, { site with queue, store, trace := site.trace ++ shown })

/-- The steps of one worker until it yields, at most so many. -/
def turn (q : EventQueue) (hooks : List Hook) (toldToStop : Bool) (now : Reading) :
    (most : Nat) → Member → Site σ τ → Member × Site σ τ
  | 0, m, site => (m, site)
  | most + 1, m, site =>
    let (m, site) := step q hooks toldToStop now m site
    if yields m then (m, site) else turn q hooks toldToStop now most m site

/-- One turn of each of these workers. -/
def turns (q : EventQueue) (hooks : List Hook) (toldToStop : Bool) (now : Reading) (most : Nat) :
    List Member → Site σ τ → List Member × Site σ τ
  | [], site => ([], site)
  | m :: rest, site =>
    let (m, site) := turn q hooks toldToStop now most m site
    let (rest, site) := turns q hooks toldToStop now most rest site
    (m :: rest, site)

/-- One turn of every worker, of at most so many steps. -/
def round (q : EventQueue) (hooks : List Hook) (now : Reading) (most : Nat) (c : Crew)
    (site : Site σ τ) : Crew × Site σ τ :=
  let (members, site) := turns q hooks c.toldToStop now most c.members site
  ({ c with members }, site)

/-- Rounds until a crew is done, at most so many. -/
def rounds (q : EventQueue) (hooks : List Hook) (now : Reading)
    (isDone : Crew → Site σ τ → Bool) : (most : Nat) → Crew → Site σ τ → Crew × Site σ τ
  | 0, c, site => (c, site)
  | most + 1, c, site =>
    if isDone c site then (c, site)
    else
      let (c, site) := c.round q hooks now (most + 1) site
      rounds q hooks now isDone most c site

/-- The queue holds nothing, or a worker is stuck. -/
def isIdle (q : EventQueue) (c : Crew) (site : Site σ τ) : Bool :=
  QueueBackend.backlog q.name site.queue == 0 || c.members.any isStuck

/-- Rounds enough, and steps enough in each, for so many workers to deliver every message of a
    backlog as often as allowed, and to meet so many outages. -/
def roundsFor (q : EventQueue) (count backlog outages : Nat) : Nat :=
  8 * (backlog * (q.maxAttempts.toNat + 2) + outages + count + 2)

/-- Tells a crew to stop and gives it so many rounds to do so.  It is logged if some workers do not
    stop. -/
def shutdown (q : EventQueue) (hooks : List Hook) (now : Reading) (grace : Nat) (c : Crew)
    (site : Site σ τ) : Site σ τ :=
  let (c, site) := rounds q hooks now (fun c _ => c.isOver) grace c.stop site
  if c.remaining = 0 then site
  else { site with trace := site.trace ++ { logs := [.graceElapsed c.remaining] } }

end Crew

end ErrorIntake.Worker
