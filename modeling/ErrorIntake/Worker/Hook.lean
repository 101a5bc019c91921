import ErrorIntake.Ledger.Store
import ErrorIntake.Log
import ErrorIntake.Text.Quoted

/-!
# Hooks

Hooks look at every event once it is stored, in the order in which they were registered.  A hook may
panic; that is logged and counted, and the other hooks are called all the same.
-/

namespace ErrorIntake.Worker

open Ledger (Event Group)

/-- What a hook sees. -/
structure Processed where
  event : Event
  /-- The group with the event counted. -/
  group : Group
  /-- The event made its group. -/
  isNewGroup : Bool
  /-- The event reopened its group, which was resolved. -/
  isRegression : Bool
  deriving Repr

/-- What a hook panics with. -/
inductive Panic
  | text (s : String)
  /-- Something that is no text. -/
  | opaqueValue
  deriving DecidableEq, Repr

/-- What is said about a panic. -/
def Panic.message : Panic → String
  | text s => s
  | opaqueValue => "non-string panic payload"

/-- How a call of a hook ends. -/
inductive Reaction
  | returned
  | panicked (panic : Panic)
  deriving DecidableEq, Repr

/-- Someone who wants to see every stored event. -/
structure Hook where
  name : String
  onEvent : Processed → Reaction

/-- A call of a hook and how it ended. -/
structure HookCall where
  hook : String
  seen : Processed
  reaction : Reaction
  deriving Repr

namespace Hook

/-- Calls a hook. -/
def call (h : Hook) (p : Processed) : HookCall := ⟨h.name, p, h.onEvent p⟩

/-- The diagnostic text of hooks: their names. -/
def debugText (hooks : List Hook) : String := Text.quotedList (hooks.map Hook.name)

end Hook

namespace HookCall

/-- The record of a call that panicked. -/
def record? (c : HookCall) : Option LogRecord :=
  match c.reaction with
  | .returned => none
  | .panicked panic =>
    some (.hookPanicked c.hook c.seen.event.eventId c.seen.group.id panic.message)

end HookCall

/-- The calls of all hooks for one event, in their order. -/
def fire (hooks : List Hook) (p : Processed) : List HookCall := hooks.map (Hook.call · p)

/-- How many calls panicked. -/
def failures (calls : List HookCall) : Nat := calls.countP fun c => c.record?.isSome

end ErrorIntake.Worker
