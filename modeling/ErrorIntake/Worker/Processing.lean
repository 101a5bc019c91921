import ErrorIntake.Worker.Hook

/-!
# Processing a report

Processing finds or makes the group of a report, records the report as an event of that group, and
shows the result to the hooks.  `resolve` and `record` are one call of the store each, and others
may use the store between them; `process` makes both calls at one time.
-/

namespace ErrorIntake.Worker

open Calendar (Instant)
open Ledger (Event Group EventStore NewEvent NewGroup)

/-- What came of processing a report. -/
structure Outcome where
  event : Event
  /-- The group with the event counted. -/
  group : Group
  isNewGroup : Bool
  isRegression : Bool
  /-- How many hooks panicked. -/
  hookFailures : Nat
  deriving Repr

/-- What is seen of work from outside: what is logged, and which hooks are called. -/
structure Trace where
  logs : List LogRecord := []
  calls : List HookCall := []
  deriving Repr, Inhabited

instance : Append Trace := ⟨fun a b => ⟨a.logs ++ b.logs, a.calls ++ b.calls⟩⟩

/-- The group of a report as it was found, and when. -/
structure Found where
  project : ProjectId
  now : Instant
  group : Group
  /-- The group was made for this report. -/
  isNew : Bool
  deriving Repr

/-- The event reopened its group: it was resolved when it was found, and is unresolved with the
    event counted. -/
def isRegression (found counted : Group) : Bool :=
  found.status == .resolved && counted.status == .unresolved

/-- What hooks see once the event is recorded. -/
def Found.processed (f : Found) (event : Event) (counted : Group) : Processed :=
  ⟨event, counted, f.isNew, isRegression f.group counted⟩

/-- The outcome after these calls of hooks. -/
def Processed.outcome (p : Processed) (calls : List HookCall) : Outcome :=
  ⟨p.event, p.group, p.isNewGroup, p.isRegression, failures calls⟩

/-- What is seen of calls of hooks. -/
def Trace.ofCalls (calls : List HookCall) : Trace := ⟨calls.filterMap HookCall.record?, calls⟩

/-- What is said about a report that names no project. -/
def noProject (r : Report) : StoreError := .internal s!"event {r.eventId} has no project"

variable {τ : Type} [EventStore τ]

/-- Finds or makes the group of a report. -/
def resolve (r : Report) (now : Instant) (t : τ) : Ledger.Called τ Found :=
  match r.project with
  | none => (.error (noProject r), t)
  | some project =>
    let (answer, t) := EventStore.getOrCreateGroup (.ofReport r project now) t
    (answer.map fun (group, isNew) => ⟨project, now, group, isNew⟩, t)

/-- Records the report in its group and calls the hooks. -/
def record (hooks : List Hook) (r : Report) (f : Found) (t : τ) :
    Except StoreError Outcome × τ × Trace :=
  let (answer, t) := EventStore.recordEvent (.ofReport r f.project f.group.id) f.now t
  match answer with
  | .error e => (.error e, t, {})
  | .ok (event, counted) =>
    let seen := f.processed event counted
    let calls := fire hooks seen
    (.ok (seen.outcome calls), t, .ofCalls calls)

/-- Processes a report. -/
def process (hooks : List Hook) (r : Report) (now : Instant) (t : τ) :
    Except StoreError Outcome × τ × Trace :=
  let (found, t) := resolve r now t
  match found with
  | .error e => (.error e, t, {})
  | .ok f => record hooks r f t

/-- The diagnostic text of a processor with these hooks. -/
def debugText (hooks : List Hook) : String :=
  "EventProcessor \x7b callbacks: " ++ Hook.debugText hooks ++ ", .. \x7d"

end ErrorIntake.Worker
