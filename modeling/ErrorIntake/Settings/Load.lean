import ErrorIntake.Settings.Basic
import ErrorIntake.Settings.Environment
import ErrorIntake.Settings.Toml.Document

/-!
# Loading settings

Settings come from a file and from the environment, which wins, and what neither gives has its
default.  A value of the wrong type is refused; what no setting is called is let pass.
-/

namespace ErrorIntake

/-- The kinds of backend in their order. -/
def backendTags : List String := ["memory", "postgres"]

/-- A connection of queues. -/
def Queue.Connection.ofSetting? (s : Setting) : Option Queue.Connection := do
  let (backend, fields) ← s.tagged? "backend" backendTags
  ofFields? Setting.exactText? Setting.nat32? backend fields

/-- A place for groups and events. -/
def Ledger.Location.ofSetting? (s : Setting) : Option Ledger.Location := do
  let (backend, fields) ← s.tagged? "backend" backendTags
  ofFields? Setting.exactText? Setting.nat32? backend fields

/-- Settings of a queue. -/
def QueueSettings.ofSetting? (s : Setting) : Option QueueSettings := do
  let given ← s.members?
    ["name", "connection", "compression_level", "max_attempts", "visibility_timeout_secs"]
  let default : QueueSettings := {}
  let name ← Fields.optional? Setting.text? default.name given "name"
  let connection ←
    Fields.optional? Queue.Connection.ofSetting? default.connection given "connection"
  let compressionLevel ←
    Fields.optional? Setting.nat32? default.compressionLevel given "compression_level"
  let maxAttempts ←
    Fields.optional? (fun s => s.nat32?.map UInt32.ofNat) default.maxAttempts given "max_attempts"
  let visibilityTimeoutSecs ←
    Fields.optional? (fun s => s.nat64?.map UInt64.ofNat) default.visibilityTimeoutSecs given
      "visibility_timeout_secs"
  return { name, connection, compressionLevel, maxAttempts, visibilityTimeoutSecs }

/-- Settings of workers. -/
def WorkerSettings.ofSetting? (s : Setting) : Option WorkerSettings := do
  let given ← s.members? ["count", "poll_interval_ms", "shutdown_grace_secs"]
  let default : WorkerSettings := {}
  let count ← Fields.optional? Setting.nat64? default.count given "count"
  let pollIntervalMs ← Fields.optional? Setting.nat64? default.pollIntervalMs given "poll_interval_ms"
  let shutdownGraceSecs ←
    Fields.optional? Setting.nat64? default.shutdownGraceSecs given "shutdown_grace_secs"
  return { count, pollIntervalMs, shutdownGraceSecs }

namespace Settings

/-- Settings of a pipeline. -/
def ofSetting? (s : Setting) : Option Settings := do
  let given ← s.members? ["queue", "worker", "store"]
  let default : Settings := {}
  let queue ← Fields.optional? QueueSettings.ofSetting? default.queue given "queue"
  let worker ← Fields.optional? WorkerSettings.ofSetting? default.worker given "worker"
  let store ← Fields.optional? Ledger.Location.ofSetting? default.store given "store"
  return { queue, worker, store }

/-- The settings that the text of a file, if there is one, and the variables of an environment
    give. -/
def load (file : Option String) (environment : List (String × String)) : Except Fault Settings :=
  match Toml.ofText? (file.getD "") with
  | none => .error .unreadable
  | some said =>
    match ofSetting? (Setting.merge (some said) (Environment.toSetting environment)) with
    | none => .error .unreadable
    | some s => s.validate

end Settings

end ErrorIntake
