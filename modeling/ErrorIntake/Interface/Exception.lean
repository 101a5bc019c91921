import ErrorIntake.Interface.Stacktrace

/-!
# Exceptions

A raised exception, with its stacktrace if there is one.  Its fingerprint is that of the
stacktrace, and empty without one.
-/

namespace ErrorIntake

open Json (Tree Value)

/-- A raised exception. -/
structure Exception where
  value : String := ""
  type : String := ""
  moduleName : String := ""
  stacktrace : Option Stacktrace := none
  deriving Repr, Inhabited

namespace Exception

/-- The fingerprint of the stacktrace. -/
def fingerprint (e : Exception) : String :=
  match e.stacktrace with
  | some s => s.fingerprint
  | none => ""

/-- The members of an exception in their order. -/
def memberNames : List String := ["value", "type", "module", "stacktrace"]

/-- An exception from JSON. -/
def ofTree? : (room : Nat) → Tree → Option Exception
  | 0, _ => none
  | room + 1, t => do
    let members ← t.record? memberNames
    let value ← Tree.lenient? Tree.text? "" members "value"
    let type ← Tree.lenient? Tree.text? "" members "type"
    let moduleName ← Tree.lenient? Tree.text? "" members "module"
    let stacktrace ← Tree.optional? (Tree.option? (Stacktrace.ofTree? room)) none members
      "stacktrace"
    return { value, type, moduleName, stacktrace }

/-- The members that an exception is written with; a stacktrace that is missing is left out. -/
def members (e : Exception) : List (String × Value) :=
  [("value", .string e.value), ("type", .string e.type), ("module", .string e.moduleName)] ++
  (match e.stacktrace with
   | some s => [("stacktrace", s.toValue)]
   | none => [])

/-- An exception as JSON. -/
def toValue (e : Exception) : Value := .ofTable (.ofList e.members)

end Exception

end ErrorIntake
