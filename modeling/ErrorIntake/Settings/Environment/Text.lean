import ErrorIntake.Settings.Toml.Text

/-!
# Quoted texts in the environment

A text between double quotes, with the characters and the escapes of a text on one line in TOML.
Of what stands before the first escape as many octets are kept as there are characters: all of it if
it is ASCII, and its beginning if not.
-/

namespace ErrorIntake.Environment

/-- The first characters whose octets fit into so many. -/
def takeOctets (room : Nat) : List Char → List Char
  | [] => []
  | c :: cs => if c.utf8Size ≤ room then c :: takeOctets (room - c.utf8Size) cs else []

/-- The text before its first escape or its quote. -/
def plainPart (cs : List Char) : List Char := cs.takeWhile fun c => c != '"' && c != '\\'

/-- A text up to its double quote, and what follows it. -/
def readText (cs : List Char) : Option (List Char × List Char) := do
  let (text, rest) ← Toml.readBasic (cs.length + 1) cs
  let size := (plainPart cs).length
  if cs[size]? = some '\\' then return (takeOctets size (text.take size) ++ text.drop size, rest)
  else return (text, rest)

example : readText "a\\tb\"".toList = some ("a\tb".toList, []) := by decide +kernel

end ErrorIntake.Environment
