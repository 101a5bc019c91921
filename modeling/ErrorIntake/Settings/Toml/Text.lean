import ErrorIntake.Text.Ascii

/-!
# Texts in TOML

A text stands between double quotes, where a backslash escapes, or between apostrophes, where every
character stands for itself.  Three marks in a row open a text of several lines, whose first line
break does not count; up to two marks may stand directly before the three that close it.

Every reader takes what stands behind the mark or marks that open the text, and gives the text and
what follows the mark that closes it.
-/

namespace ErrorIntake.Toml

/-- A character that may stand in a text: a tab, or one that is no control character of ASCII. -/
def isTextChar (c : Char) : Bool := c == '\t' || (0x20 ≤ c.toNat && c.toNat != 0x7F)

/-- A blank within a line. -/
def isBlank (c : Char) : Bool := c == ' ' || c == '\t'

/-- The text from its first character that is no blank. -/
def skipBlanks (cs : List Char) : List Char := cs.dropWhile isBlank

/-- The characters of a row of hexadecimal digits, as many as asked for. -/
def readHex : (count : Nat) → (value : Nat) → List Char → Option (Nat × List Char)
  | 0, value, cs => some (value, cs)
  | count + 1, value, c :: cs =>
    match Text.hexValue? c with
    | some digit => readHex count (value * 16 + digit) cs
    | none => none
  | _ + 1, _, [] => none

/-- The character of a code point, which must not be a surrogate. -/
def scalar? (n : Nat) : Option Char := if n.isValidChar then some (Char.ofNat n) else none

/-- The character behind a backslash, and the rest. -/
def readEscape : List Char → Option (Char × List Char)
  | 'b' :: cs => some ('\x08', cs)
  | 't' :: cs => some ('\t', cs)
  | 'n' :: cs => some ('\n', cs)
  | 'f' :: cs => some ('\x0c', cs)
  | 'r' :: cs => some ('\r', cs)
  | '"' :: cs => some ('"', cs)
  | '\\' :: cs => some ('\\', cs)
  | 'u' :: cs => do
    let (n, cs) ← readHex 4 0 cs
    return (← scalar? n, cs)
  | 'U' :: cs => do
    let (n, cs) ← readHex 8 0 cs
    return (← scalar? n, cs)
  | _ => none

/-- A text up to its double quote.  Fuel is the number of characters. -/
def readBasic : (fuel : Nat) → List Char → Option (List Char × List Char)
  | 0, _ => none
  | _, [] => none
  | _ + 1, '"' :: cs => some ([], cs)
  | fuel + 1, '\\' :: cs => do
    let (c, cs) ← readEscape cs
    let (text, cs) ← readBasic fuel cs
    return (c :: text, cs)
  | fuel + 1, c :: cs =>
    if isTextChar c then do
      let (text, cs) ← readBasic fuel cs
      return (c :: text, cs)
    else none

/-- A text up to its apostrophe. -/
def readLiteral : List Char → Option (List Char × List Char)
  | [] => none
  | c :: cs =>
    if c = '\'' then some ([], cs)
    else if isTextChar c then (readLiteral cs).map fun (text, cs) => (c :: text, cs)
    else none

/-- The text without the line break that it begins with. -/
def dropNewline : List Char → List Char
  | '\n' :: cs => cs
  | '\r' :: '\n' :: cs => cs
  | cs => cs

/-- What follows a backslash at the end of a line, up to the next character that is neither blank
    nor line break; none if anything else stands on the line. -/
def readContinuation (cs : List Char) : Option (List Char) :=
  match skipBlanks cs with
  | '\n' :: cs => some (skipLines cs)
  | '\r' :: '\n' :: cs => some (skipLines cs)
  | _ => none
where
  /-- The text from its first character that is neither blank nor line break. -/
  skipLines : List Char → List Char
    | '\n' :: cs => skipLines cs
    | '\r' :: '\n' :: cs => skipLines cs
    | c :: cs => if isBlank c then skipLines cs else c :: cs
    | [] => []

/-- A run of marks within a text of several lines: the marks that belong to the text, and whether
    the rest closes it.  More than five marks are one text and a mark too many. -/
def splitMarks (run : Nat) : Option (Nat × Bool) :=
  if run ≤ 2 then some (run, false) else if run ≤ 5 then some (run - 3, true) else none

/-- A text of several lines up to its three marks.  Fuel is the number of characters. -/
def readLines (mark : Char) (escapes : Bool) :
    (fuel : Nat) → List Char → Option (List Char × List Char)
  | 0, _ => none
  | _, [] => none
  | fuel + 1, c :: cs =>
    if c = mark then do
      let run := ((c :: cs).takeWhile (· == mark)).length
      let (kept, closes) ← splitMarks run
      let rest := (c :: cs).drop run
      let marks := List.replicate kept mark
      if closes then return (marks, rest)
      let (text, rest) ← readLines mark escapes fuel rest
      return (marks ++ text, rest)
    else if escapes && c == '\\' then
      match readContinuation cs with
      | some rest => readLines mark escapes fuel rest
      | none => do
        let (c, rest) ← readEscape cs
        let (text, rest) ← readLines mark escapes fuel rest
        return (c :: text, rest)
    else if c = '\n' ∨ isTextChar c then do
      let (text, rest) ← readLines mark escapes fuel cs
      return (c :: text, rest)
    else
      match c, cs with
      | '\r', '\n' :: cs => do
        let (text, rest) ← readLines mark escapes fuel cs
        return ('\n' :: text, rest)
      | _, _ => none

/-- A text on one line, with the mark that opens it. -/
def readLine : List Char → Option (List Char × List Char)
  | '"' :: cs => readBasic (cs.length + 1) cs
  | '\'' :: cs => readLiteral cs
  | _ => none

/-- A text on one line or several, with the marks that open it. -/
def readText : List Char → Option (List Char × List Char)
  | '"' :: '"' :: '"' :: cs => readLines '"' true (cs.length + 1) (dropNewline cs)
  | '\'' :: '\'' :: '\'' :: cs => readLines '\'' false (cs.length + 1) (dropNewline cs)
  | cs => readLine cs

/-- A character of a key without marks. -/
def isKeyChar (c : Char) : Bool :=
  Text.isDigit c || ('a' ≤ c && c ≤ 'z') || ('A' ≤ c && c ≤ 'Z') || c == '_' || c == '-'

/-- One part of a key. -/
def readKeyPart (cs : List Char) : Option (String × List Char) :=
  match cs with
  | '"' :: _ => (readLine cs).map fun (text, cs) => (String.ofList text, cs)
  | '\'' :: _ => (readLine cs).map fun (text, cs) => (String.ofList text, cs)
  | _ =>
    match cs.takeWhile isKeyChar with
    | [] => none
    | part => some (String.ofList part, cs.dropWhile isKeyChar)

/-- The most parts of a key. -/
def keyLimit : Nat := 79

/-- A key of parts with points between them, and blanks around each.  Fuel bounds the number of
    parts. -/
def readKey : (fuel : Nat) → List Char → Option (List String × List Char)
  | 0, _ => none
  | fuel + 1, cs => do
    let (part, cs) ← readKeyPart (skipBlanks cs)
    match skipBlanks cs with
    | '.' :: cs =>
      let (parts, cs) ← readKey fuel cs
      return (part :: parts, cs)
    | cs => return ([part], cs)

end ErrorIntake.Toml
