import ErrorIntake.Bounds
import ErrorIntake.Json.Decode

/-!
# Fields of tagged records

A tagged record is a name and the fields that go with that name.  It is written as an object with
the name under its tag, or as an array with the name first and the fields in their order behind it.
Fields that nobody asks for are let pass in an object and refused in an array.
-/

namespace ErrorIntake

open Json (Tree Value Literal)

/-- What is given for the fields of a record. -/
inductive Fields (α : Type)
  | named (members : List (String × α))
  | placed (elements : List α)
  deriving Repr

namespace Fields

variable {α β : Type}

/-- What is given for fields of these names, in their order; none if a name is given twice or more
    is given than there are names. -/
def take? (names : List String) : Fields α → Option (List (String × α))
  | named members =>
    if names.all fun name => members.countP (fun m => m.1 == name) ≤ 1 then some members else none
  | placed elements =>
    if elements.length ≤ names.length then some (names.zip elements) else none

/-- A field that must be given. -/
def required? (read : α → Option β) (given : List (String × α)) (name : String) : Option β :=
  (given.lookup name).bind read

/-- A field with a default. -/
def optional? (read : α → Option β) (default : β) (given : List (String × α)) (name : String) :
    Option β :=
  match given.lookup name with
  | some a => read a
  | none => some default

/-- The value of a member that must stand exactly once, and the other members. -/
def extract? (tag : String) (members : List (String × α)) : Option (α × List (String × α)) :=
  match members.partition fun m => m.1 == tag with
  | ([(_, a)], others) => some (a, others)
  | _ => none

end Fields

namespace Json.Value

/-- A text. -/
def text? : Value → Option String
  | .string s => some s
  | _ => none

/-- An integer of 32 bits without sign. -/
def nat32? : Value → Option Nat
  | .number (.integer n) => if 0 ≤ n ∧ IsNat32 n.toNat then some n.toNat else none
  | _ => none

end Json.Value

/-- The name and the fields of a tagged record. -/
def Json.Tree.tagged? (tag : String) : Tree → Option (String × Fields Value)
  | .object members => do
    let members ← members.mapM fun (l, t) => do
      return (← l.text?, ← Value.plainOfTree? (Json.nestingLimit - 1) t)
    let (name, others) ← Fields.extract? tag members
    return (← name.text?, .named others)
  | .array elements => do
    match ← elements.mapM (Value.plainOfTree? (Json.nestingLimit - 1)) with
    | name :: others => return (← name.text?, .placed others)
    | [] => none
  | _ => none

end ErrorIntake
