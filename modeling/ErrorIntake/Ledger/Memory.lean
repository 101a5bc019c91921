import ErrorIntake.Ledger.Location
import ErrorIntake.Ledger.Store

/-!
# The store in memory

Groups stand in the order in which they were made and events in the order in which they were
recorded; both are numbered from 1 on.  An index tells the group of a key.
-/

namespace ErrorIntake.Ledger

open Calendar (Instant)

/-- Groups and events in memory. -/
structure Memory where
  groups : List Group := []
  /-- The group of each key. -/
  index : List (Key × Int) := []
  events : List Event := []
  /-- The id of the latest group. -/
  lastGroup : Int := 0
  /-- The id of the latest event. -/
  lastEvent : Int := 0
  deriving Repr, Inhabited

namespace Memory

/-- A store without groups and events. -/
def empty : Memory := {}

/-- The group with an id. -/
def groupById? (m : Memory) (id : Int) : Option Group := m.groups.find? fun g => g.id == id

/-- The group that the index tells for a key. -/
def group? (m : Memory) (key : Key) : Option Group := (m.index.lookup key).bind m.groupById?

/-- The store with another group in place of the one with its id. -/
def replaceGroup (m : Memory) (g : Group) : Memory :=
  { m with groups := m.groups.map fun old => if old.id = g.id then g else old }

/-- The store with one more group. -/
def addGroup (m : Memory) (g : NewGroup) : Group × Memory :=
  let created := Group.create (m.lastGroup + 1) g
  (created,
    { m with groups := m.groups ++ [created]
             index := (created.key, created.id) :: m.index
             lastGroup := m.lastGroup + 1 })

/-- The store with one more event. -/
def addEvent (m : Memory) (e : NewEvent) : Event × Memory :=
  let stored : Event := { e with id := m.lastEvent + 1 }
  (stored, { m with events := m.events ++ [stored], lastEvent := m.lastEvent + 1 })

/-- The group of a key, and whether this call made it. -/
def getOrCreateGroup (m : Memory) (g : NewGroup) : (Group × Bool) × Memory :=
  match m.group? g.key with
  | some existing => ((existing, false), m)
  | none =>
    let (created, m) := m.addGroup g
    ((created, true), m)

/-- Records an event and counts it in its group.  Nothing is written unless all of it can be. -/
def recordEvent (m : Memory) (e : NewEvent) (seenAt : Instant) : Called Memory (Event × Group) :=
  match m.groupById? e.group with
  | none => (.error (.groupNotFound e.group), m)
  | some g =>
    match g.addTimeSpent? e.timeSpent with
    | none => (.error (.internal s!"time_spent total overflows for group {g.id}"), m)
    | some (total, count) =>
      let (stored, m) := m.addEvent e
      let counted := g.counted seenAt total count
      (.ok (stored, counted), m.replaceGroup counted)

/-- The events of a group, the oldest first. -/
def listEvents (m : Memory) (group : Int) : List Event := m.events.filter fun e => e.group == group

/-- Changes the status of a group. -/
def setGroupStatus (m : Memory) (id : Int) (status : GroupStatus) (now : Instant) :
    Called Memory Group :=
  match m.groupById? id with
  | none => (.error (.groupNotFound id), m)
  | some g =>
    let changed := g.withStatus status now
    (.ok changed, m.replaceGroup changed)

end Memory

instance : EventStore Memory where
  getOrCreateGroup g m :=
    let (answer, m) := m.getOrCreateGroup g
    (.ok answer, m)
  recordEvent e seenAt m := m.recordEvent e seenAt
  getGroup key m := (.ok (m.group? key), m)
  getGroupById id m := (.ok (m.groupById? id), m)
  listEvents group m := (.ok (m.listEvents group), m)
  setGroupStatus id status now m := m.setGroupStatus id status now

/-- The store at a location.  No database can be reached from here. -/
def Location.open? : Location → Except StoreError Memory
  | .memory => .ok .empty
  | .postgres .. => .error .database

end ErrorIntake.Ledger
