import ErrorIntake.Ledger.Store

/-!
# Stores with outages

A store whose next calls of a kind fail before they do anything.  It behaves as the store inside as
long as no outage is left, and whatever fails leaves that store alone.
-/

namespace ErrorIntake.Ledger

/-- The calls of a store that can fail. -/
inductive Call
  | group
  | record
  deriving DecidableEq, Repr

/-- A store and how many calls of each kind will fail next. -/
structure Unreliable (τ : Type) where
  inner : τ
  outages : Call → Nat := fun _ => 0
  /-- The failure of a call. -/
  failure : Call → StoreError

namespace Unreliable

variable {τ α : Type}

/-- Lets the next calls of a kind fail, so many of them. -/
def fail (t : Unreliable τ) (call : Call) (times : Nat) : Unreliable τ :=
  { t with outages := fun c => if c = call then times else t.outages c }

/-- Makes a call of the store inside. -/
def passing (t : Unreliable τ) (f : τ → Called τ α) : Called (Unreliable τ) α :=
  ((f t.inner).1, { t with inner := (f t.inner).2 })

/-- Makes a call of the store inside, or fails if an outage of its kind is left. -/
def calling (t : Unreliable τ) (call : Call) (f : τ → Called τ α) : Called (Unreliable τ) α :=
  match t.outages call with
  | 0 => t.passing f
  | left + 1 => (.error (t.failure call), t.fail call left)

end Unreliable

open EventStore in
instance [EventStore τ] : EventStore (Unreliable τ) where
  getOrCreateGroup g t := t.calling .group (getOrCreateGroup g)
  recordEvent e seenAt t := t.calling .record (recordEvent e seenAt)
  getGroup key t := t.passing (getGroup key)
  getGroupById id t := t.passing (getGroupById id)
  listEvents group t := t.passing (listEvents group)
  setGroupStatus id status now t := t.passing (setGroupStatus id status now)

end ErrorIntake.Ledger
