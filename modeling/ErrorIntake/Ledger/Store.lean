import ErrorIntake.Error
import ErrorIntake.Ledger.Event
import ErrorIntake.Ledger.Group

/-!
# Stores

A store keeps groups and events.  A group is made once for its key, and an event is recorded and
counted in one call, so that a call which fails leaves nothing behind.
-/

namespace ErrorIntake.Ledger

open Calendar (Instant)

/-- The outcome of a call, and the store after it. -/
abbrev Called (τ α : Type) := Except StoreError α × τ

/-- A place for groups and events. -/
class EventStore (τ : Type) where
  /-- The group of a key, and whether this call made it. -/
  getOrCreateGroup (g : NewGroup) (t : τ) : Called τ (Group × Bool)
  /-- Records an event and counts it in its group; gives the event and the group after it. -/
  recordEvent (e : NewEvent) (seenAt : Instant) (t : τ) : Called τ (Event × Group)
  /-- The group of a key. -/
  getGroup (key : Key) (t : τ) : Called τ (Option Group)
  /-- The group with an id. -/
  getGroupById (id : Int) (t : τ) : Called τ (Option Group)
  /-- The events of a group, the oldest first. -/
  listEvents (group : Int) (t : τ) : Called τ (List Event)
  /-- Changes the status of a group. -/
  setGroupStatus (id : Int) (status : GroupStatus) (now : Instant) (t : τ) : Called τ Group

end ErrorIntake.Ledger
