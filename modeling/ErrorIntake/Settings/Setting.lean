import ErrorIntake.Bounds
import ErrorIntake.Fields

/-!
# Untyped settings

What a configuration file or an environment says, before it is known what is asked for.  Settings
of two sources are merged table by table, and the later source wins wherever it says anything that
is no table.
-/

namespace ErrorIntake

/-- A setting as it is given. -/
inductive Setting
  | bool (b : Bool)
  | integer (n : Int)
  /-- A number that is known to have no sign. -/
  | count (n : Nat)
  /-- A number with a fraction, whose value nothing asks for. -/
  | fractional
  | character (c : Char)
  | text (s : String)
  | list (elements : List Setting)
  | table (members : List (String × Setting))
  deriving Repr, Inhabited

namespace Setting

mutual

/-- What two sources say together; the second is the later. -/
def merge (earlier : Option Setting) : Setting → Setting
  | .table later =>
    match earlier with
    | some (.table members) => .table (mergeMembers members later)
    | _ => .table (mergeMembers [] later)
  | later => later

/-- The members of two tables together. -/
def mergeMembers (earlier : List (String × Setting)) :
    List (String × Setting) → List (String × Setting)
  | [] => earlier
  | (name, later) :: rest =>
    mergeMembers (Table.insertEntry name (merge (earlier.lookup name) later) earlier) rest

end

/-- A setting under a row of names, each within the table of the one before. -/
def nested (names : List String) (s : Setting) : Setting :=
  names.foldr (fun name inner => .table [(name, inner)]) s

/-- A text. -/
def exactText? : Setting → Option String
  | .text s => some s
  | _ => none

/-- A text, or a character as a text. -/
def text? : Setting → Option String
  | .text s => some s
  | .character c => some (String.singleton c)
  | _ => none

/-- A number without sign. -/
def nat? : Setting → Option Nat
  | .integer n => if 0 ≤ n then some n.toNat else none
  | .count n => some n
  | _ => none

/-- A number of 32 bits without sign. -/
def nat32? (s : Setting) : Option Nat := s.nat?.filter fun n => IsNat32 n

/-- A number of 64 bits without sign. -/
def nat64? (s : Setting) : Option Nat := s.nat?.filter fun n => IsNat64 n

/-- The members of a record: from a table, or from a list in which they stand in their order.  What
    is not asked for is let pass. -/
def members? (names : List String) : Setting → Option (List (String × Setting))
  | .table members => some members
  | .list elements => some (names.zip elements)
  | _ => none

/-- The tag of a record: its name, or the place of that name among all. -/
def tag? (tags : List String) : Setting → Option String
  | .text s => some s
  | .count n => tags[n]?
  | _ => none

/-- The name and the fields of a tagged record. -/
def tagged? (tag : String) (tags : List String) : Setting → Option (String × Fields Setting)
  | .table members => do
    let (name, others) ← Fields.extract? tag members
    return (← name.tag? tags, .named others)
  | .list (name :: others) => do return (← name.tag? tags, .placed others)
  | _ => none

end Setting

end ErrorIntake
