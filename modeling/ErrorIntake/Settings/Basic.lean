import ErrorIntake.Ledger.Location
import ErrorIntake.Queue.Connection
import ErrorIntake.Zlib.Deflate

/-!
# Settings

How a pipeline is set up: its queue, its workers and its store.  Every setting has a default, and
`validate` refuses the few combinations of types and values with which no pipeline can run.
-/

namespace ErrorIntake

open Json (Value)

/-- How events cross the queue. -/
structure QueueSettings where
  /-- The queue that events are published to. -/
  name : String := "events"
  connection : Queue.Connection := .memory
  /-- From 0, which does not compress, to 9. -/
  compressionLevel : Nat := 6
  /-- How often a message may be delivered before it is parked. -/
  maxAttempts : UInt32 := 5
  /-- For how long a claimed message is hidden. -/
  visibilityTimeoutSecs : UInt64 := 30
  deriving DecidableEq, Repr

/-- How workers run. -/
structure WorkerSettings where
  count : Nat := 4
  /-- How long a worker rests when the queue is empty. -/
  pollIntervalMs : Nat := 1000
  /-- How long workers may take to finish when they are told to stop. -/
  shutdownGraceSecs : Nat := 10
  deriving DecidableEq, Repr

/-- How a pipeline is set up. -/
structure Settings where
  queue : QueueSettings := {}
  worker : WorkerSettings := {}
  store : Ledger.Location := .memory
  deriving DecidableEq, Repr

namespace QueueSettings

/-- The queue that messages are parked on. -/
def deadLetterName (q : QueueSettings) : String := q.name ++ ".dead"

end QueueSettings

namespace Settings

/-- Why a pipeline cannot run with its settings. -/
inductive Fault
  /-- What is given for them cannot be read, or a value is none that its setting can have. -/
  | unreadable
  | compressionLevel (level : Nat)
  | maxAttempts
  | workerCount
  deriving DecidableEq, Repr

/-- What is said about settings that no pipeline can run with. -/
def Fault.message : Fault → String
  | unreadable => "settings cannot be read"
  | compressionLevel level =>
    s!"queue.compression_level must be between 0 and 9, got {level}"
  | maxAttempts => "queue.max_attempts must be at least 1"
  | workerCount => "worker.count must be at least 1"

/-- Lets settings through that a pipeline can run with. -/
def validate (s : Settings) : Except Fault Settings :=
  if Zlib.highestLevel < s.queue.compressionLevel then .error (.compressionLevel s.queue.compressionLevel)
  else if s.queue.maxAttempts = 0 then .error .maxAttempts
  else if s.worker.count = 0 then .error .workerCount
  else .ok s

end Settings

end ErrorIntake
