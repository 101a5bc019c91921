import ErrorIntake.Json.Decode

/-!
# The status of a group

A group of events is unresolved while somebody should look at it, resolved once it is marked as
fixed, and muted while nobody wants to hear of it.
-/

namespace ErrorIntake

/-- Where a group stands. -/
inductive GroupStatus
  | unresolved
  | resolved
  | muted
  deriving DecidableEq, Repr

namespace GroupStatus

/-- The name of a status. -/
def name : GroupStatus → String
  | unresolved => "unresolved"
  | resolved => "resolved"
  | muted => "muted"

/-- The status with a name. -/
def ofName? : String → Option GroupStatus
  | "unresolved" => some unresolved
  | "resolved" => some resolved
  | "muted" => some muted
  | _ => none

/-- What is said about a name that no status has. -/
def unknownMessage (name : String) : String := "unknown group status: " ++ name

/-- A status as its name, or as an object whose one member has that name and is `null`. -/
def ofTree? : Json.Tree → Option GroupStatus
  | .string l => l.text?.bind ofName?
  | .object [(l, .null)] => l.text?.bind ofName?
  | _ => none

@[simp] theorem ofName?_name (status : GroupStatus) : ofName? status.name = some status := by
  cases status <;> rfl

end GroupStatus

end ErrorIntake
