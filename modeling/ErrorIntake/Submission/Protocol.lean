import ErrorIntake.Submission.Body
import ErrorIntake.Submission.Envelope

/-!
# Protocol versions

A protocol is a way to write submissions: how bodies are packed, and how they are read.  Protocols
are registered under version texts, each version once and for all: a second registration is refused
and the first stays in force.
-/

namespace ErrorIntake.Submission

/-- The reports of a body, and what was logged while it was read. -/
structure Parsed where
  reports : List Report
  logs : List LogRecord := []

/-- A way to write submissions. -/
structure Protocol where
  /-- What the protocol calls its version. -/
  version : String
  /-- Unpacks a body; by default bodies are not packed. -/
  unpack : Envelope → Except SubmissionError Bytes := fun e => .ok e.body
  /-- Reads an unpacked body. -/
  parse : Occasion → Bytes → Except SubmissionError Parsed

namespace Protocol

/-- Version 2.0 with the interfaces that it looks for. -/
def standard (interfaces : Interface.Registry) : Protocol where
  version := Submission.version
  unpack := Envelope.unpack
  parse occasion body := (readBody interfaces occasion body).map fun (r, logs) => ⟨[r], logs⟩

/-- The report bound to the project that its request may write to. -/
def bind (expected : ProjectId) (r : Report) : Except SubmissionError Report :=
  match r.project with
  | none => .ok { r with project := some expected }
  | some actual => if actual = expected then .ok r else .error (.projectMismatch expected actual)

/-- What a request gives: its reports or a refusal, and what was logged on the way. -/
structure Answer where
  result : Except SubmissionError (List Report)
  logs : List LogRecord := []

/-- Unpacks and reads a request and binds every report to its project. -/
def parseEnvelope (p : Protocol) (occasion : Occasion) (e : Envelope) : Answer :=
  match p.unpack e with
  | .error err => ⟨.error err, []⟩
  | .ok body =>
    match p.parse occasion body with
    | .error err => ⟨.error err, []⟩
    | .ok parsed => ⟨parsed.reports.mapM (bind e.project), parsed.logs⟩

end Protocol

/-- The protocols in force under their versions. -/
structure Protocols where
  byVersion : Table Protocol := ∅

namespace Protocols

/-- Version 2.0 alone, with the interfaces that it looks for. -/
def standard (interfaces : Interface.Registry) : Protocols :=
  ⟨(∅ : Table Protocol).insert Submission.version (.standard interfaces)⟩

/-- The registered versions in their order. -/
def versions (ps : Protocols) : List String := ps.byVersion.keys

/-- Registers a protocol under a version that has none yet. -/
def register (ps : Protocols) (version : String) (p : Protocol) :
    Except SubmissionError Protocols :=
  if ps.byVersion.contains version then .error (.versionTaken version)
  else .ok ⟨ps.byVersion.insert version p⟩

/-- The protocol of a version. -/
def find (ps : Protocols) (version : String) : Except SubmissionError Protocol :=
  match ps.byVersion.get? version with
  | some p => .ok p
  | none => .error (.unknownVersion version)

/-- Reads an unpacked body of a version. -/
def parse (ps : Protocols) (occasion : Occasion) (version : String) (body : Bytes) :
    Except SubmissionError Parsed :=
  match ps.find version with
  | .ok p => p.parse occasion body
  | .error err => .error err

/-- Unpacks and reads a request of a version. -/
def parseEnvelope (ps : Protocols) (occasion : Occasion) (version : String) (e : Envelope) :
    Protocol.Answer :=
  match ps.find version with
  | .ok p => p.parseEnvelope occasion e
  | .error err => ⟨.error err, []⟩

/-- The diagnostic text of the protocols in force. -/
def debugText (ps : Protocols) : String :=
  "ProtocolRegistry \x7b versions: " ++ Text.quotedList ps.versions ++ " \x7d"

end Protocols

end ErrorIntake.Submission
