import ErrorIntake.Calendar.Reading
import ErrorIntake.Level
import ErrorIntake.ProjectId

/-!
# Known fields

The fields of a submission that have a meaning of their own.  Each has a decoder from the JSON text
that stands for it in the body, and that text counts as one JSON text: nesting is counted anew.
-/

namespace ErrorIntake.Submission

open Json (Tree Value)
open Calendar (Instant)

/-- A field of a submission with a meaning of its own. -/
inductive Field
  | eventId
  | message
  | level
  | logger
  | serverName
  | culprit
  | platform
  | release
  | project
  | tags
  | timestamp
  | timeSpent
  | extra
  deriving DecidableEq, Repr

namespace Field

/-- The fields in the order in which they are looked at. -/
def all : List Field :=
  [eventId, message, level, logger, serverName, culprit, platform, release, project, tags,
   timestamp, timeSpent, extra]

/-- The key of a field. -/
def name : Field → String
  | eventId => "event_id"
  | message => "message"
  | level => "level"
  | logger => "logger"
  | serverName => "server_name"
  | culprit => "culprit"
  | platform => "platform"
  | release => "release"
  | project => "project"
  | tags => "tags"
  | timestamp => "timestamp"
  | timeSpent => "time_spent"
  | extra => "extra"

/-- A string, where `null` is the empty one. -/
def text? (raw : String) : Option String := do
  let t ← Tree.ofText? raw
  let s ← t.option? Tree.text?
  return s.getD ""

/-- A string, where `null` and the empty one stand for a default. -/
def textOr? (default raw : String) : Option String :=
  (text? raw).map fun s => if s.isEmpty then default else s

/-- An event id: 32 hexadecimal digits, with dashes that do not count and capitals that do not
    matter. -/
def eventId? (raw : String) : Option String := do
  let s ← text? raw
  let id := (s.toList.filter (· != '-')).map Char.toLower
  if id.length = 32 ∧ id.all Text.isHexDigit then return String.ofList id else none

/-- A level, by its name or its code. -/
def level? (raw : String) : Option Level := do
  match ← Value.ofText? raw with
  | .string s => (Level.parse s).toOption
  | .number n => n.toInt64?.bind Level.ofCode?
  | _ => none

/-- A project, by its integer or by a string that spells it. -/
def project? (raw : String) : Option ProjectId := do
  match ← Value.ofText? raw with
  | .string s => (ProjectId.parse s).toOption
  | .number n => n.toInt64?.map ProjectId.mk
  | _ => none

/-- A tag from a pair of strings. -/
def tag? : Value → Option (String × String)
  | .array [.string key, .string value] => some (key, value)
  | _ => none

/-- Tags: an object of strings, or a list of pairs of strings in which other elements are
    skipped. -/
def tags? (raw : String) : Option (Table String) := do
  let t ← Tree.ofText? raw
  match t.table? Tree.text? with
  | some given => return given
  | none =>
    let elements ← t.list? (Value.ofTree? (Json.nestingLimit - 1))
    return .ofList (elements.filterMap tag?)

/-- A time without offset, as a string. -/
def timestamp? (raw : String) : Option Instant := (text? raw).bind Instant.ofTimestamp?

/-- Milliseconds, or `null` for none. -/
def timeSpent? (raw : String) : Option (Option Int) :=
  (Tree.ofText? raw).bind (Tree.option? Tree.int64?)

/-- A free object, where `null` is the empty one. -/
def extra? (raw : String) : Option (Table Value) := do
  let t ← Tree.ofText? raw
  let members ← t.option? (Tree.table? (Value.ofTree? (Json.nestingLimit - 1)))
  return members.getD ∅

end Field

end ErrorIntake.Submission
