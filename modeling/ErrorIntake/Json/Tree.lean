import ErrorIntake.Json.Literal
import ErrorIntake.Json.Number

/-!
# JSON texts

A tree is a JSON text without its blanks: numbers and strings as written, members in their order
and with their repetitions.  Reading a tree only asks for the grammar, so nesting may be of any
depth, numbers of any size and code units any.  What a tree means is decided by those that decode
it.
-/

namespace ErrorIntake.Json

/-- A JSON text as written, without blanks. -/
inductive Tree
  | null
  | bool (b : Bool)
  | number (n : Numeral)
  | string (l : Literal)
  | array (elements : List Tree)
  | object (members : List (Literal × Tree))
  deriving Repr

/-- Blanks of JSON: space, tab, line feed and carriage return. -/
def isBlank (c : Char) : Bool := c == ' ' || c == '\t' || c == '\n' || c == '\r'

/-- The text from its first character that is no blank. -/
def skipBlanks (cs : List Char) : List Char := cs.dropWhile isBlank

namespace Numeral

/-- The digits at the start of a text, and the rest. -/
def readDigits (cs : List Char) : List Char × List Char :=
  (cs.takeWhile Text.isDigit, cs.dropWhile Text.isDigit)

/-- Digits before the point: a zero alone, or digits that begin with another. -/
def readWhole : List Char → Option (List Char × List Char)
  | '0' :: rest =>
    match rest with
    | c :: _ => if Text.isDigit c then none else some (['0'], rest)
    | [] => some (['0'], rest)
  | cs =>
    match readDigits cs with
    | ([], _) => none
    | (digits, rest) => some (digits, rest)

/-- A point with at least one digit behind it, if there is a point. -/
def readFraction : List Char → Option (List Char × List Char)
  | '.' :: cs =>
    match readDigits cs with
    | ([], _) => none
    | (digits, rest) => some (digits, rest)
  | cs => some ([], cs)

/-- The digits of an exponent, at least one. -/
def readPower (negative : Bool) (cs : List Char) : Option (Option Int × List Char) :=
  match readDigits cs with
  | ([], _) => none
  | (digits, rest) =>
    let power : Int := Text.decimalValue digits
    some (some (if negative then -power else power), rest)

/-- An exponent, if its mark stands here. -/
def readExponent : List Char → Option (Option Int × List Char)
  | c :: cs =>
    if c = 'e' ∨ c = 'E' then
      match cs with
      | '+' :: cs => readPower false cs
      | '-' :: cs => readPower true cs
      | cs => readPower false cs
    else some (none, c :: cs)
  | [] => some (none, [])

/-- A numeral without its sign. -/
def readUnsigned (negative : Bool) (cs : List Char) : Option (Numeral × List Char) := do
  let (whole, cs) ← readWhole cs
  let (fraction, cs) ← readFraction cs
  let (exponent, cs) ← readExponent cs
  return (⟨negative, whole, fraction, exponent⟩, cs)

/-- A numeral at the start of a text, and the rest. -/
def read : List Char → Option (Numeral × List Char)
  | '-' :: cs => readUnsigned true cs
  | cs => readUnsigned false cs

end Numeral

namespace Tree

mutual

/-- Reads one value, blanks before it included, and tells the rest.  Fuel bounds the number of
    characters that open or separate values. -/
def readValue : (fuel : Nat) → List Char → Option (Tree × List Char)
  | 0, _ => none
  | fuel + 1, cs =>
    match skipBlanks cs with
    | 'n' :: 'u' :: 'l' :: 'l' :: rest => some (.null, rest)
    | 't' :: 'r' :: 'u' :: 'e' :: rest => some (.bool true, rest)
    | 'f' :: 'a' :: 'l' :: 's' :: 'e' :: rest => some (.bool false, rest)
    | '"' :: rest => do
      let (l, rest) ← Literal.read rest
      return (.string l, rest)
    | '[' :: rest =>
      match skipBlanks rest with
      | ']' :: rest => some (.array [], rest)
      | rest => do
        let (elements, rest) ← readElements fuel rest
        return (.array elements, rest)
    | '{' :: rest =>
      match skipBlanks rest with
      | '}' :: rest => some (.object [], rest)
      | rest => do
        let (members, rest) ← readMembers fuel rest
        return (.object members, rest)
    | cs => do
      let (n, rest) ← Numeral.read cs
      return (.number n, rest)

/-- Reads elements, at least one, up to the bracket that closes their array. -/
def readElements : (fuel : Nat) → List Char → Option (List Tree × List Char)
  | 0, _ => none
  | fuel + 1, cs => do
    let (t, rest) ← readValue fuel cs
    match skipBlanks rest with
    | ',' :: rest =>
      let (elements, rest) ← readElements fuel rest
      return (t :: elements, rest)
    | ']' :: rest => return ([t], rest)
    | _ => none

/-- Reads members, at least one, up to the brace that closes their object. -/
def readMembers : (fuel : Nat) → List Char → Option (List (Literal × Tree) × List Char)
  | 0, _ => none
  | fuel + 1, cs => do
    match skipBlanks cs with
    | '"' :: rest =>
      let (key, rest) ← Literal.read rest
      match skipBlanks rest with
      | ':' :: rest =>
        let (t, rest) ← readValue fuel rest
        match skipBlanks rest with
        | ',' :: rest =>
          let (members, rest) ← readMembers fuel rest
          return ((key, t) :: members, rest)
        | '}' :: rest => return ([(key, t)], rest)
        | _ => none
      | _ => none
    | _ => none

end

/-- Reads one value at the start of a text, and tells the rest. -/
def read (cs : List Char) : Option (Tree × List Char) := readValue (cs.length + 1) cs

/-- The tree of a whole text: one value with nothing but blanks around it. -/
def ofChars? (cs : List Char) : Option Tree :=
  match read cs with
  | some (t, rest) => if (skipBlanks rest).isEmpty then some t else none
  | none => none

/-- The tree of a whole text. -/
def ofText? (s : String) : Option Tree := ofChars? s.toList

end Tree

end ErrorIntake.Json
