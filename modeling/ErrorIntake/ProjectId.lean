import ErrorIntake.Json.Decode
import ErrorIntake.Text.Blank
import ErrorIntake.Text.Integer

/-!
# Projects

A project is known by an integer of 64 bits.  It may be written with blanks around it.
-/

namespace ErrorIntake

/-- The project that an event belongs to. -/
structure ProjectId where
  value : Int
  deriving DecidableEq, Repr, Inhabited

namespace ProjectId

/-- The text of a project. -/
def toText (p : ProjectId) : String := toString p.value

/-- The project that a text names, blanks around it aside. -/
def parse (text : String) : Except Text.IntegerFault ProjectId :=
  (Text.readInteger (Text.trim text.toList)).map ProjectId.mk

/-- A project as its integer. -/
def ofTree? (t : Json.Tree) : Option ProjectId := t.int64?.map ProjectId.mk

end ProjectId

end ErrorIntake
