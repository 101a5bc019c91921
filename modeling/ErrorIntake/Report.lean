import ErrorIntake.Calendar.Reading
import ErrorIntake.Level
import ErrorIntake.ProjectId
import ErrorIntake.Text.Utf8

/-!
# Reports

A report is an accepted submission on its way to the store: its fields are typed, its fingerprint
is known, and whatever the client sent beside the known fields stands in `data`.  Reports cross the
queue as JSON; `ofTree?` reads what `toText` writes.
-/

namespace ErrorIntake

open Json (Tree Value)
open Calendar (Instant)

/-- An accepted submission that is not stored yet. -/
structure Report where
  eventId : String
  message : String
  level : Level
  logger : String
  serverName : String
  culprit : String
  platform : String
  release : String
  /-- The version of the protocol that the submission was written in. -/
  version : String
  /-- The project, once the body or the request has named one. -/
  project : Option ProjectId
  datetime : Instant
  /-- The fingerprint by which reports are grouped. -/
  checksum : String
  /-- Milliseconds that the failing operation took, if they were told. -/
  timeSpent : Option Int := none
  tags : Table String := ∅
  extra : Table Value := ∅
  /-- Interfaces under their ids, and unclaimed members as the text they were written in. -/
  data : Table Value := ∅
  deriving Repr

namespace Report

/-- Tags as a list of pairs. -/
def tagPairs (tags : Table String) : Value :=
  .array (tags.entries.map fun tag => .array [.string tag.1, .string tag.2])

/-- What is stored with the event: the data, and tags and extra where there are any. -/
def snapshot (r : Report) : Table Value :=
  let tagged := if r.tags.isEmpty then r.data else r.data.insert "tags" (tagPairs r.tags)
  if r.extra.isEmpty then tagged else tagged.insert "extra" (.ofTable r.extra)

/-- The members of a report with their values, in the order in which they are written. -/
def members (r : Report) : List (String × Value) :=
  [("event_id", .string r.eventId), ("message", .string r.message), ("level", .ofInt r.level.code),
   ("logger", .string r.logger), ("server_name", .string r.serverName),
   ("culprit", .string r.culprit), ("platform", .string r.platform), ("release", .string r.release),
   ("version", .string r.version), ("project", .ofOption (fun p => .ofInt p.value) r.project),
   ("datetime", .string r.datetime.toText), ("checksum", .string r.checksum),
   ("time_spent", .ofOption .ofInt r.timeSpent), ("tags", .ofTexts r.tags),
   ("extra", .ofTable r.extra), ("data", .ofTable r.data)]

/-- The JSON text of a report. -/
def toText (r : Report) : String := Value.toText (.object r.members)

/-- The members of a report in their order. -/
def memberNames : List String :=
  ["event_id", "message", "level", "logger", "server_name", "culprit", "platform", "release",
   "version", "project", "datetime", "checksum", "time_spent", "tags", "extra", "data"]

/-- An instant from JSON. -/
def instant? (t : Tree) : Option Instant := t.text?.bind Instant.ofOffsetText?

/-- A free object from JSON. -/
def object? : (room : Nat) → Tree → Option (Table Value)
  | 0, _ => none
  | room + 1, t => t.table? (Value.ofTree? room)

/-- A report from JSON.  The project may be left out, and the members behind the checksum. -/
def ofTree? : (room : Nat) → Tree → Option Report
  | 0, _ => none
  | room + 1, t => do
    let members ← t.record? memberNames
    let eventId ← Tree.required? Tree.text? members "event_id"
    let message ← Tree.required? Tree.text? members "message"
    let level ← Tree.required? Level.ofTree? members "level"
    let logger ← Tree.required? Tree.text? members "logger"
    let serverName ← Tree.required? Tree.text? members "server_name"
    let culprit ← Tree.required? Tree.text? members "culprit"
    let platform ← Tree.required? Tree.text? members "platform"
    let release ← Tree.required? Tree.text? members "release"
    let version ← Tree.required? Tree.text? members "version"
    let project ← Tree.optional? (Tree.option? ProjectId.ofTree?) none members "project"
    let datetime ← Tree.required? instant? members "datetime"
    let checksum ← Tree.required? Tree.text? members "checksum"
    let timeSpent ← Tree.optional? (Tree.option? Tree.int64?) none members "time_spent"
    let tags ← Tree.optional? (Tree.table? Tree.text?) ∅ members "tags"
    let extra ← Tree.optional? (object? room) ∅ members "extra"
    let data ← Tree.optional? (object? room) ∅ members "data"
    return { eventId, message, level, logger, serverName, culprit, platform, release, version,
             project, datetime, checksum, timeSpent, tags, extra, data }

/-- The report that a JSON text describes. -/
def ofText? (text : String) : Option Report := (Tree.ofText? text).bind (ofTree? Json.nestingLimit)

end Report

end ErrorIntake
