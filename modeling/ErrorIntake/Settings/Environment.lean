import ErrorIntake.Bounds
import ErrorIntake.Settings.Environment.Text
import ErrorIntake.Settings.Setting
import ErrorIntake.Text.Blank

/-!
# Settings from the environment

A variable whose name begins with `FAULTLINE_`, capitals and blanks around it aside, gives one
setting.  What follows is the name of the setting in small letters, and two underscores or a point
lead into a table.  The value is read as a truth value, a number, a character, a quoted text, a list
or a table if all of it is one; otherwise it is a text.
-/

namespace ErrorIntake.Environment

/-- A blank of ASCII: space, tab, line feed, form feed or carriage return. -/
def isBlank (c : Char) : Bool :=
  c == ' ' || c == '\t' || c == '\n' || c == '\x0c' || c == '\r'

/-- The text from its first character that is no blank. -/
def skipBlanks (cs : List Char) : List Char := cs.dropWhile isBlank

/-- A character that ends a plain value. -/
def isSeparator (c : Char) : Bool :=
  c == ',' || c == '\x7b' || c == '\x7d' || c == '[' || c == ']'

/-- Decimal digits, at least one. -/
def isDigits (cs : List Char) : Bool := !cs.isEmpty && cs.all Text.isDigit

/-- An exponent with its mark, or nothing. -/
def isPower : List Char → Bool
  | [] => true
  | c :: cs =>
    (c == 'e' || c == 'E') &&
      match cs with
      | '+' :: cs => isDigits cs
      | '-' :: cs => isDigits cs
      | cs => isDigits cs

/-- A number with a point: digits on at least one side of it, a sign and an exponent if they are
    there. -/
def isFractional (cs : List Char) : Bool :=
  let unsigned := match cs with
    | '+' :: cs => cs
    | '-' :: cs => cs
    | cs => cs
  let whole := unsigned.takeWhile Text.isDigit
  match unsigned.dropWhile Text.isDigit with
  | '.' :: cs =>
    !(whole.isEmpty && (cs.takeWhile Text.isDigit).isEmpty) && isPower (cs.dropWhile Text.isDigit)
  | _ => false

/-- A number without sign, or with a plus. -/
def count? (cs : List Char) : Option Nat :=
  let digits := match cs with
    | '+' :: cs => cs
    | cs => cs
  if isDigits digits ∧ IsNat64 (Text.decimalValue digits) then some (Text.decimalValue digits)
  else none

/-- A number with a minus. -/
def negative? : List Char → Option Int
  | '-' :: cs =>
    if isDigits cs ∧ IsInt64 (-(Text.decimalValue cs : Int)) then some (-(Text.decimalValue cs : Int))
    else none
  | _ => none

/-- A plain value without blanks at its ends: a number if it reads as one, and a text if not. -/
def plain (cs : List Char) : Setting :=
  if isFractional cs then .fractional
  else
    match count? cs with
    | some n => .count n
    | none =>
      match negative? cs with
      | some n => .integer n
      | none => .text (String.ofList cs)

/-- The key of a member: a quoted text, or a row of letters, digits, underscores and dashes. -/
def readKey (cs : List Char) : Option (String × List Char) :=
  match cs with
  | '"' :: cs =>
    (readText cs).map fun (text, cs) => (String.ofList text, cs)
  | cs =>
    match cs.takeWhile Toml.isKeyChar with
    | [] => none
    | key => some (String.ofList key, cs.dropWhile Toml.isKeyChar)

/-- What follows a character that must stand here. -/
def readMark (mark : Char) : List Char → Option (List Char)
  | c :: cs => if c = mark then some cs else none
  | [] => none

mutual

/-- A value, with the blanks around it.  Fuel bounds the number of values. -/
def readValue : (fuel : Nat) → List Char → Option (Setting × List Char)
  | 0, _ => none
  | fuel + 1, cs => do
    let (value, cs) ←
      match skipBlanks cs with
      | 't' :: 'r' :: 'u' :: 'e' :: cs => some (.bool true, cs)
      | 'f' :: 'a' :: 'l' :: 's' :: 'e' :: cs => some (.bool false, cs)
      | '\x7b' :: cs => do
        let (members, cs) ← readMembers fuel [] cs
        return (.table members, cs)
      | '[' :: cs => do
        let (elements, cs) ← readElements fuel cs
        return (.list elements, cs)
      | '"' :: cs =>
        (readText cs).map fun (text, cs) => (.text (String.ofList text), cs)
      | '\'' :: c :: cs => (readMark '\'' cs).map fun cs => (.character c, cs)
      | ['\''] => none
      | cs =>
        let taken := cs.takeWhile fun c => !isSeparator c
        some (plain (Text.trim taken), cs.dropWhile fun c => !isSeparator c)
    return (value, skipBlanks cs)

/-- The elements of a list up to its bracket; a comma may stand directly before that. -/
def readElements : (fuel : Nat) → List Char → Option (List Setting × List Char)
  | 0, _ => none
  | _ + 1, ']' :: cs => some ([], cs)
  | fuel + 1, cs => do
    let (value, cs) ← readValue fuel cs
    match cs with
    | ',' :: cs =>
      let (values, cs) ← readElements fuel cs
      return (value :: values, cs)
    | ']' :: cs => return ([value], cs)
    | _ => none

/-- The members of a table up to its brace, added to those before them; a comma may stand directly
    before the brace. -/
def readMembers : (fuel : Nat) → List (String × Setting) → List Char →
    Option (List (String × Setting) × List Char)
  | 0, _, _ => none
  | fuel + 1, before, cs =>
    match cs with
    | '\x7d' :: cs => some (before, cs)
    | cs => do
      let (key, cs) ← readKey (skipBlanks cs)
      let (value, cs) ← readValue fuel (← readMark '=' (skipBlanks cs))
      let members := Table.insertEntry key value before
      match cs with
      | ',' :: cs => readMembers fuel members cs
      | '\x7d' :: cs => return (members, cs)
      | _ => none

end

/-- The setting that the value of a variable gives. -/
def ofValue (text : String) : Setting :=
  let cs := text.toList
  match readValue (cs.length + 1) cs with
  | some (value, []) => value
  | _ => .text text

/-- What the names of variables begin with, in small letters. -/
def opening : List Char := "faultline_".toList

/-- The names in a row of characters, which points and double underscores part. -/
def splitNames : (current : List Char) → List Char → List (List Char)
  | current, '_' :: '_' :: cs => current.reverse :: splitNames [] cs
  | current, '.' :: cs => current.reverse :: splitNames [] cs
  | current, c :: cs => splitNames (c :: current) cs
  | current, [] => [current.reverse]

/-- The names of the setting that a variable gives; none if it gives no setting. -/
def settingNames? (name : String) : Option (List String) :=
  let cs := (Text.trim name.toList).map Char.toLower
  if opening.isPrefixOf cs then
    let names := splitNames [] (Text.trim (cs.drop opening.length))
    if names.any List.isEmpty then none else some (names.map String.ofList)
  else none

/-- What an environment says, of whose variables a later one wins. -/
def toSetting (environment : List (String × String)) : Setting :=
  environment.foldl
    (fun said (name, value) =>
      match settingNames? name with
      | some names => Setting.merge (some said) (Setting.nested names (ofValue value))
      | none => said)
    (.table [])

end ErrorIntake.Environment
