import ErrorIntake.Settings.Setting

/-!
# Wrapped values

A table below the top of a document may wrap a value: it has a member of the name `contentKey`, and
stands for that member's value.  A member of the name `originKey` numbers where a table came from;
it must be an integer, and is left out.
-/

namespace ErrorIntake.Toml

/-- The name of the member that a table wraps. -/
def contentKey : String := "___figment_value_value"

/-- The name of the member that numbers where a table came from. -/
def originKey : String := "___figment_value_id"

/-- The value that a table of some members stands for. -/
def contentOf (members : List (String × Setting)) : Setting :=
  match members.lookup contentKey with
  | some content => content
  | none => .table members

mutual

/-- The setting in which no table wraps a value. -/
def bare? : Setting → Option Setting
  | .table members => (bareMembers? members).map contentOf
  | .list elements => (bareElements? elements).map .list
  | s => some s

/-- Elements in which no table wraps a value. -/
def bareElements? : List Setting → Option (List Setting)
  | [] => some []
  | s :: rest => do
    let s ← bare? s
    let rest ← bareElements? rest
    return s :: rest

/-- Members in which no table wraps a value, without the one that numbers their origin. -/
def bareMembers? : List (String × Setting) → Option (List (String × Setting))
  | [] => some []
  | (key, s) :: rest =>
    if key = originKey then
      match s with
      | .integer _ => bareMembers? rest
      | _ => none
    else do
      let s ← bare? s
      let rest ← bareMembers? rest
      return (key, s) :: rest

end

/-- The members of the top table of a document, in each of which no table wraps a value. -/
def bareEach? (members : List (String × Setting)) : Option (List (String × Setting)) :=
  members.mapM fun (key, s) => (bare? s).map fun s => (key, s)

end ErrorIntake.Toml
