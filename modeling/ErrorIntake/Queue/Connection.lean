import ErrorIntake.Fields
import ErrorIntake.Queue.Broker

/-!
# Where queues are kept

A configuration names a backend and, for a database, how to reach it.  The name of a table goes
into the text of a database command, so only plain names are let through.
-/

namespace ErrorIntake.Queue

open Json (Tree Value)

/-- Where queues are kept. -/
inductive Connection
  | memory
  | postgres (url table : String) (maxConnections : Nat)
  deriving DecidableEq, Repr

/-- The table of queues in a database, unless another is named. -/
def defaultTable : String := "faultline_queue"

/-- How many connections to a database are kept, unless another number is given. -/
def defaultMaxConnections : Nat := 10

namespace Connection

/-- Queues are kept in memory unless the configuration says otherwise. -/
instance : Inhabited Connection := ⟨memory⟩

/-- The connection to a backend with these fields. -/
def ofFields? (text? : α → Option String) (nat32? : α → Option Nat) (backend : String)
    (fields : Fields α) : Option Connection :=
  match backend with
  | "memory" => (fields.take? []).map fun _ => memory
  | "postgres" => do
    let given ← fields.take? ["url", "table", "max_connections"]
    let url ← Fields.required? text? given "url"
    let table ← Fields.optional? text? defaultTable given "table"
    let maxConnections ← Fields.optional? nat32? defaultMaxConnections given "max_connections"
    return postgres url table maxConnections
  | _ => none

/-- A connection from JSON. -/
def ofTree? (t : Tree) : Option Connection := do
  let (backend, fields) ← t.tagged? "backend"
  ofFields? Value.text? Value.nat32? backend fields

/-- The queues of a connection.  No database can be reached from here. -/
def open? : Connection → Except QueueError Broker
  | memory => .ok .empty
  | postgres .. => .error .database

end Connection

/-- A character that a plain name may have. -/
def isNameChar (c : Char) : Bool :=
  Text.isDigit c || ('a' ≤ c && c ≤ 'z') || ('A' ≤ c && c ≤ 'Z') || c == '_' || c == '.'

/-- A plain name: letters and digits of ASCII, underscores and points, of which the first is no
    digit. -/
def isPlainName (name : String) : Bool :=
  match name.toList with
  | [] => false
  | c :: rest => !Text.isDigit c && isNameChar c && rest.all isNameChar

/-- Lets a table's name through if it is plain. -/
def checkTable (table : String) : Except QueueError Unit :=
  if isPlainName table then .ok () else .error (.invalidTable table)

end ErrorIntake.Queue
