import ErrorIntake.Settings.Toml.Body
import ErrorIntake.Settings.Toml.Moment
import ErrorIntake.Settings.Toml.Number
import ErrorIntake.Settings.Toml.Text
import ErrorIntake.Settings.Toml.Wrapped

/-!
# TOML documents

A document is a row of lines: headers of tables, keys with values, and lines with nothing but blanks
or a comment.  `Toml.ofText?` reads TOML 1.0.  A date has no value that a setting could ask for, so
it stands as a table with one member that no setting is called.
-/

namespace ErrorIntake.Toml

/-- The text behind a comment, if one stands here. -/
def skipComment : List Char → List Char
  | '#' :: cs => cs.dropWhile isTextChar
  | cs => cs

/-- The text from its first character that is neither blank, line break nor part of a comment. -/
def skipGap : (fuel : Nat) → List Char → List Char
  | 0, cs => cs
  | fuel + 1, cs =>
    match skipComment (skipBlanks cs) with
    | '\n' :: cs => skipGap fuel cs
    | '\r' :: '\n' :: cs => skipGap fuel cs
    | cs => cs

/-- The text behind the end of a line; none if anything but a comment stands before it. -/
def endLine (cs : List Char) : Option (List Char) :=
  match skipComment (skipBlanks cs) with
  | [] => some []
  | '\n' :: cs => some cs
  | '\r' :: '\n' :: cs => some cs
  | _ => none

/-- How many lists and tables may be written inside one another. -/
def nestingLimit : Nat := 79

/-- A date or a time as a setting. -/
def moment : Setting := .table [("$date", .fractional)]

/-- A value that has no values inside. -/
def readScalar (cs : List Char) : Option (Setting × List Char) :=
  match cs with
  | 't' :: 'r' :: 'u' :: 'e' :: rest => some (.bool true, rest)
  | 'f' :: 'a' :: 'l' :: 's' :: 'e' :: rest => some (.bool false, rest)
  | '"' :: _ => (readText cs).map fun (text, rest) => (.text (String.ofList text), rest)
  | '\'' :: _ => (readText cs).map fun (text, rest) => (.text (String.ofList text), rest)
  | _ =>
    match readMoment cs with
    | some rest => some (moment, rest)
    | none =>
      match readFloat cs with
      | some rest => some (.fractional, rest)
      | none => (readInteger cs).map fun (n, rest) => (.integer n, rest)

/-- A key as the tables that lead to its value and its own name. -/
def splitKey (parts : List String) : List String × String := (parts.dropLast, parts.getLastD "")

mutual

/-- A value.  There is room for so many lists and tables inside one another. -/
def readValue : (fuel room : Nat) → List Char → Option (Setting × List Char)
  | 0, _, _ => none
  | fuel + 1, room, '[' :: cs =>
    match room with
    | 0 => none
    | room + 1 => do
      let (elements, cs) ← readElements fuel room cs
      return (.list elements, cs)
  | fuel + 1, room, '{' :: cs =>
    match room with
    | 0 => none
    | room + 1 => do
      let (body, cs) ←
        match skipBlanks cs with
        | '}' :: cs => some ([], cs)
        | cs => readMembers fuel room [] cs
      return (Body.toSetting body, cs)
  | _ + 1, _, cs => readScalar cs

/-- The elements of a list up to its bracket; a comma may stand before that. -/
def readElements : (fuel room : Nat) → List Char → Option (List Setting × List Char)
  | 0, _, _ => none
  | fuel + 1, room, cs =>
    match skipGap (cs.length + 1) cs with
    | ']' :: cs => some ([], cs)
    | cs => do
      let (value, cs) ← readValue fuel room cs
      match skipGap (cs.length + 1) cs with
      | ',' :: cs =>
        let (values, cs) ← readElements fuel room cs
        return (value :: values, cs)
      | ']' :: cs => return ([value], cs)
      | _ => none

/-- The members of a table on one line, up to its brace. -/
def readMembers : (fuel room : Nat) → Body → List Char → Option (Body × List Char)
  | 0, _, _, _ => none
  | fuel + 1, room, body, cs => do
    let (parts, cs) ← readKey keyLimit cs
    let (value, cs) ← readValue fuel room (skipBlanks (← readMark '=' cs))
    let (path, key) := splitKey parts
    let body ← body.define path key value
    match skipBlanks cs with
    | ',' :: cs => readMembers fuel room body cs
    | '}' :: cs => return (body, cs)
    | _ => none

end

/-- What was read of a document: its tables, and the path of the last header. -/
structure Draft where
  body : Body := []
  header : List String := []

/-- A header behind the bracket or brackets that open it. -/
def readHeader (isList : Bool) (d : Draft) (cs : List Char) : Option (Draft × List Char) := do
  let (parts, cs) ← readKey keyLimit cs
  let (path, key) := splitKey parts
  let cs ← readMark ']' cs
  if isList then
    let cs ← readMark ']' cs
    return (⟨← d.body.addTable path key, parts⟩, cs)
  else return (⟨← d.body.stateTable path key, parts⟩, cs)

/-- A key with its value. -/
def readDefinition (d : Draft) (cs : List Char) : Option (Draft × List Char) := do
  let (parts, cs) ← readKey keyLimit cs
  let cs := skipBlanks (← readMark '=' cs)
  let (value, cs) ← readValue (cs.length + 1) nestingLimit cs
  let (path, key) := splitKey parts
  return ({ d with body := ← d.body.defineIn d.header path key value }, cs)

/-- The lines of a document.  Fuel is the number of characters. -/
def readLinesOf : (fuel : Nat) → Draft → List Char → Option Draft
  | 0, _, _ => none
  | fuel + 1, d, cs =>
    match skipGap (cs.length + 1) cs with
    | [] => some d
    | '[' :: '[' :: cs => do
      let (d, cs) ← readHeader true d cs
      readLinesOf fuel d (← endLine cs)
    | '[' :: cs => do
      let (d, cs) ← readHeader false d cs
      readLinesOf fuel d (← endLine cs)
    | cs => do
      let (d, cs) ← readDefinition d cs
      readLinesOf fuel d (← endLine cs)

/-- The text without the mark that tells the order of its bytes. -/
def dropByteOrderMark : List Char → List Char
  | '\ufeff' :: cs => cs
  | cs => cs

/-- What a document says. -/
def ofText? (text : String) : Option Setting := do
  let cs := dropByteOrderMark text.toList
  let d ← readLinesOf (cs.length + 1) {} cs
  return .table (← bareEach? (Node.toMembers d.body))

end ErrorIntake.Toml
