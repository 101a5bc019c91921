import ErrorIntake.Fields

/-!
# Where groups and events are kept

A configuration names a store and, for a database, how to reach it.
-/

namespace ErrorIntake.Ledger

open Json (Tree Value)

/-- Where groups and events are kept. -/
inductive Location
  | memory
  | postgres (url : String) (maxConnections : Nat)
  deriving DecidableEq, Repr

/-- How many connections to a database are kept, unless another number is given. -/
def defaultMaxConnections : Nat := 10

namespace Location

/-- Events are kept in memory unless the configuration says otherwise. -/
instance : Inhabited Location := ⟨memory⟩

/-- The store of a kind with these fields. -/
def ofFields? (text? : α → Option String) (nat32? : α → Option Nat) (backend : String)
    (fields : Fields α) : Option Location :=
  match backend with
  | "memory" => (fields.take? []).map fun _ => memory
  | "postgres" => do
    let given ← fields.take? ["url", "max_connections"]
    let url ← Fields.required? text? given "url"
    let maxConnections ← Fields.optional? nat32? defaultMaxConnections given "max_connections"
    return postgres url maxConnections
  | _ => none

/-- A location from JSON. -/
def ofTree? (t : Tree) : Option Location := do
  let (backend, fields) ← t.tagged? "backend"
  ofFields? Value.text? Value.nat32? backend fields

end Location

end ErrorIntake.Ledger
