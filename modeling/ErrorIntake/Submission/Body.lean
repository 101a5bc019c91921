import ErrorIntake.Interface.Registry
import ErrorIntake.Report
import ErrorIntake.Submission.Field

/-!
# The body of a submission

A body of version 2.0 is one JSON object.  Its members are kept as the text they are written in; of
two members with one key the later counts.  Known fields are decoded in their fixed order, and the
first that has no meaning refuses the submission.  Interfaces claim their keys among the other
members, and what nobody claims is archived as it was written.
-/

namespace ErrorIntake.Submission

open Json (Tree Value Literal)
open Calendar (Instant)

/-- Members of a body under their keys, each as the JSON text it was written in. -/
abbrev Payload := Table String

namespace Body

/-- The characters that were read between two places of one text. -/
def between (before after : List Char) : List Char := before.take (before.length - after.length)

/-- Reads members, at least one, up to the brace that closes the body, and keeps the text of each
    value.  The number of characters is fuel enough. -/
def readMembers : (fuel : Nat) → List Char → Option (List (Literal × String) × List Char)
  | 0, _ => none
  | fuel + 1, cs => do
    match Json.skipBlanks cs with
    | '"' :: rest =>
      let (key, rest) ← Literal.read rest
      match Json.skipBlanks rest with
      | ':' :: rest =>
        let start := Json.skipBlanks rest
        let (_, rest) ← Tree.read start
        let raw := String.ofList (between start rest)
        match Json.skipBlanks rest with
        | ',' :: rest =>
          let (members, rest) ← readMembers fuel rest
          return ((key, raw) :: members, rest)
        | '}' :: rest => return ([(key, raw)], rest)
        | _ => none
      | _ => none
    | _ => none

/-- The members of a text that is one object, in the order in which they are written. -/
def members? (cs : List Char) : Option (List (Literal × String)) := do
  match Json.skipBlanks cs with
  | '{' :: rest =>
    let (members, rest) ←
      match Json.skipBlanks rest with
      | '}' :: rest => some ([], rest)
      | _ => readMembers rest.length rest
    if (Json.skipBlanks rest).isEmpty then return members else none
  | _ => none

/-- The payload of a body; none if the body is not one JSON object with readable keys. -/
def payload? (body : Bytes) : Option Payload := do
  let text ← Text.ofBytes? body
  let members ← members? text.toList
  let named ← members.mapM fun (l, raw) => l.text?.map fun key => (key, raw)
  return .ofList named

end Body

/-- The version of the protocol whose bodies are read here. -/
def version : String := "2.0"

/-- The logger of a submission that names none. -/
def defaultLogger : String := "root"

/-- The platform of a submission that names none. -/
def defaultPlatform : String := "other"

/-- What a reader adds to a body: the time for a submission that tells none, and an id for one that
    brings none. -/
structure Occasion where
  now : Instant
  freshId : String
  deriving Repr

/-- The value of a field, or its default where the payload has none. -/
def decodeField (payload : Payload) (field : Field) (decode : String → Option α) (default : α) :
    Except SubmissionError α :=
  match payload.get? field.name with
  | none => .ok default
  | some raw =>
    match decode raw with
    | some a => .ok a
    | none => .error (.invalidField field.name raw)

/-- The payload without the known fields. -/
def unknownMembers (payload : Payload) : Payload :=
  Field.all.foldl (fun rest field => rest.erase field.name) payload

/-- The fingerprint of a submission: that of its most important interface, or of its message. -/
def fingerprintOf (claims : List Interface.Claim) (message : String) : String :=
  match claims with
  | first :: _ => first.value.fingerprint
  | [] => Digest.fingerprint message

/-- The data of a submission: claimed interfaces under the ids of their descriptors, and unclaimed
    members as strings of the text they were written in. -/
def dataOf (claims : List Interface.Claim) (left : Payload) : Table Value :=
  let claimed := claims.foldl (fun data c => data.insert c.id c.value.toValue) (∅ : Table Value)
  left.entries.foldl (fun data entry => data.insert entry.1 (.string entry.2)) claimed

/-- The report of a payload, and the warnings about its interfaces. -/
def readPayload (interfaces : Interface.Registry) (occasion : Occasion) (payload : Payload) :
    Except SubmissionError (Report × List LogRecord) := do
  let eventId ← decodeField payload .eventId Field.eventId? occasion.freshId
  let message ← decodeField payload .message Field.text? ""
  let level ← decodeField payload .level Field.level? default
  let logger ← decodeField payload .logger (Field.textOr? defaultLogger) defaultLogger
  let serverName ← decodeField payload .serverName Field.text? ""
  let culprit ← decodeField payload .culprit Field.text? ""
  let platform ← decodeField payload .platform (Field.textOr? defaultPlatform) defaultPlatform
  let release ← decodeField payload .release Field.text? ""
  let project ← decodeField payload .project (fun raw => (Field.project? raw).map some) none
  let tags ← decodeField payload .tags Field.tags? ∅
  let datetime ← decodeField payload .timestamp Field.timestamp? occasion.now
  let timeSpent ← decodeField payload .timeSpent Field.timeSpent? none
  let extra ← decodeField payload .extra Field.extra? ∅
  let (claims, left) := interfaces.claim (unknownMembers payload)
  let report : Report :=
    { eventId, message, level, logger, serverName, culprit, platform, release, version, project,
      datetime, checksum := fingerprintOf claims message, timeSpent, tags, extra,
      data := dataOf claims left }
  return (report, claims.filterMap Interface.Claim.warning?)

/-- The report of a body, and the warnings about its interfaces. -/
def readBody (interfaces : Interface.Registry) (occasion : Occasion) (body : Bytes) :
    Except SubmissionError (Report × List LogRecord) :=
  match Body.payload? body with
  | some payload => readPayload interfaces occasion payload
  | none => .error .malformedJson

end ErrorIntake.Submission
