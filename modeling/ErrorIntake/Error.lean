import ErrorIntake.ProjectId

/-!
# Failures

What can go wrong between a submission and its stored event, as causes, and what is said about each
cause.  A failure that passes through an outer layer keeps its cause; only the queue's failures gain
a few words in front.
-/

namespace ErrorIntake

/-- The handle of a queued message. -/
structure MessageId where
  value : Int
  deriving DecidableEq, Repr, Inhabited

/-- The text of a message's handle. -/
def MessageId.toText (id : MessageId) : String := toString id.value

/-- Why a queue refuses. -/
inductive QueueError
  /-- The named queue does not hold the message. -/
  | unknownMessage (queue : String) (id : MessageId)
  /-- There is no backend of this name. -/
  | backendDisabled (backend : String)
  /-- The name cannot be that of a table. -/
  | invalidTable (table : String)
  /-- The database cannot be reached. -/
  | database
  /-- The call panicked: no clock can show the time at which the message would be visible again.
      Nobody handles a panic, so it ends whatever task made the call. -/
  | overflow
  deriving DecidableEq, Repr

/-- Why a submission is refused. -/
inductive SubmissionError
  /-- No protocol of this version is registered. -/
  | unknownVersion (version : String)
  /-- A protocol of this version is registered already. -/
  | versionTaken (version : String)
  /-- The body is no JSON object. -/
  | malformedJson
  /-- A known field has a value that it cannot have; the value is given as it was written. -/
  | invalidField (field raw : String)
  /-- The body cannot be unpacked, and this stage of unpacking fails. -/
  | encoding (stage : String)
  /-- The body names another project than the one the request is allowed to write to. -/
  | projectMismatch (expected actual : ProjectId)
  deriving DecidableEq, Repr

/-- Why an event cannot be put on a queue or taken off it. -/
inductive TransportError
  | queue (e : QueueError)
  | compression
  | serialisation
  deriving DecidableEq, Repr

/-- Why an event cannot be stored. -/
inductive StoreError
  /-- No group has this id. -/
  | groupNotFound (id : Int)
  | serialisation (text : String)
  | internal (text : String)
  /-- The database cannot be reached. -/
  | database
  deriving DecidableEq, Repr

/-- Why an attempt to process a message fails. -/
inductive WorkerError
  | transport (e : TransportError)
  | store (e : StoreError)
  deriving DecidableEq, Repr

/-- What is said about a queue's refusal. -/
def QueueError.message : QueueError → String
  | unknownMessage queue id => s!"message {id.toText} not found in queue '{queue}'"
  | backendDisabled backend => s!"queue backend '{backend}' is not compiled in"
  | invalidTable table => s!"invalid queue table name: {table}"
  | database => "database error"
  | overflow => "overflow when adding duration to instant"

/-- What is said about a refused submission. -/
def SubmissionError.message : SubmissionError → String
  | unknownVersion version => s!"protocol version not found: {version}"
  | versionTaken version => s!"protocol version already registered: {version}"
  | malformedJson => "malformed JSON body"
  | invalidField field raw => s!"invalid value for field '{field}': {raw}"
  | encoding stage => s!"invalid transport encoding: {stage}"
  | projectMismatch expected actual =>
    s!"project mismatch: request authenticated for {expected.toText}, body names {actual.toText}"

/-- What is said about an event that cannot cross the queue. -/
def TransportError.message : TransportError → String
  | queue e => s!"queue error: {e.message}"
  | compression => "compression error"
  | serialisation => "serialisation error"

/-- What is said about an event that cannot be stored. -/
def StoreError.message : StoreError → String
  | groupNotFound id => s!"event group not found: {id}"
  | serialisation text => s!"serialisation error: {text}"
  | internal text => s!"internal error: {text}"
  | database => "database error"

/-- What is said about a failed attempt. -/
def WorkerError.message : WorkerError → String
  | transport e => e.message
  | store e => e.message

end ErrorIntake
