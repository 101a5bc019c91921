import ErrorIntake.Settings.Setting

/-!
# The tables of a TOML document

A table may be stated once, by its header, as a value, or by keys with points in them; the three do
not mix.  A header also opens the tables on the way to its own, and those may still be stated once
by a header.  Every key of a table has one value.
-/

namespace ErrorIntake.Toml

/-- How a table has come about. -/
inductive TableKind
  /-- A header of another table leads through it. -/
  | opened
  /-- A key with points leads into it. -/
  | dotted
  /-- A header states it. -/
  | stated
  deriving DecidableEq, Repr

/-- What stands under a key of a document. -/
inductive Node
  | value (s : Setting)
  | table (kind : TableKind) (members : List (String × Node))
  /-- A list of tables, which grows by a header for each. -/
  | tables (elements : List (List (String × Node)))
  deriving Repr

/-- The members of a table. -/
abbrev Body := List (String × Node)

namespace Node

mutual

/-- What a node says. -/
def toSetting : Node → Setting
  | .value s => s
  | .table _ members => .table (toMembers members)
  | .tables elements => .list (toElements elements)

/-- What the members of a table say. -/
def toMembers : List (String × Node) → List (String × Setting)
  | [] => []
  | (key, node) :: rest => Table.insertEntry key (toSetting node) (toMembers rest)

/-- What a list of tables says. -/
def toElements : List (List (String × Node)) → List Setting
  | [] => []
  | members :: rest => .table (toMembers members) :: toElements rest

end

end Node

namespace Body

/-- The body with another node under a key. -/
def put (key : String) (node : Node) : Body → Body
  | [] => [(key, node)]
  | entry :: rest => if entry.1 = key then (key, node) :: rest else entry :: put key node rest

/-- Changes the table at the end of a path of keys.  Tables on the way that are not there come about
    as `kind` says; the change is told how its table came about.  Of a list of tables the last is
    entered.  A key with points does not enter a table that is stated. -/
def enter (kind : TableKind) (change : TableKind → Body → Option Body) :
    List String → TableKind → Body → Option Body
  | [], reached, body => change reached body
  | key :: path, _, body =>
    match body.lookup key with
    | none => do
      let inner ← enter kind change path kind []
      return put key (.table kind inner) body
    | some (.value _) => none
    | some (.table reached inner) =>
      if kind = .dotted ∧ reached = .stated then none
      else do
        let inner ← enter kind change path reached inner
        return put key (.table reached inner) body
    | some (.tables elements) =>
      match elements.getLast? with
      | none => none
      | some last => do
        let inner ← enter kind change path .stated last
        return put key (.tables (elements.dropLast ++ [inner])) body

/-- The body with a value under a key with points. -/
def define (path : List String) (key : String) (value : Setting) (body : Body) : Option Body :=
  enter .dotted
    (fun reached table =>
      if (path = [] ∨ reached = .dotted) ∧ (table.lookup key).isNone then
        some (put key (.value value) table)
      else none)
    path .stated body

/-- The body with a table stated by its header. -/
def stateTable (path : List String) (key : String) : Body → Option Body :=
  enter .opened
    (fun _ table =>
      match table.lookup key with
      | none => some (put key (.table .stated []) table)
      | some (.table .opened members) => some (put key (.table .stated members) table)
      | some _ => none)
    path .stated

/-- The body with one more table in a list of tables. -/
def addTable (path : List String) (key : String) : Body → Option Body :=
  enter .opened
    (fun _ table =>
      match table.lookup key with
      | none => some (put key (.tables [[]]) table)
      | some (.tables elements) => some (put key (.tables (elements ++ [[]])) table)
      | some _ => none)
    path .stated

/-- The body with a value under a key in the table that the last header states. -/
def defineIn (header path : List String) (key : String) (value : Setting) : Body → Option Body :=
  enter .opened (fun _ table => define path key value table) header .stated

/-- What a body says. -/
def toSetting (body : Body) : Setting := .table (Node.toMembers body)

end Body

end ErrorIntake.Toml
