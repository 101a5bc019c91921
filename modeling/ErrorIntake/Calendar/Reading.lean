import ErrorIntake.Calendar.Instant
import ErrorIntake.Text.Blank

/-!
# Reading instants

Two layouts are read.  `ofTimestamp?` reads a date, `T` and a time without offset, which is
universal time.  `ofOffsetText?` reads the layout of RFC 3339 with its offset, and lets blanks stand
where parts meet and at the end, a space or a small letter for `T`, and the offset be written without
its colon.

In both, every number may have blanks before it and fewer digits than usual, a year may have a sign
and then any number of digits, and digits of a fraction after the ninth are dropped.
-/

namespace ErrorIntake.Calendar

/-- The digits at the start of a text, at most so many, and the rest. -/
def splitDigits : (most : Nat) → List Char → List Char × List Char
  | 0, cs => ([], cs)
  | _, [] => ([], [])
  | most + 1, c :: cs =>
    if Text.isDigit c then
      let (digits, rest) := splitDigits most cs
      (c :: digits, rest)
    else ([], c :: cs)

/-- A number of one digit up to so many. -/
def readNumber (most : Nat) (cs : List Char) : Option (Nat × List Char) :=
  match splitDigits most cs with
  | ([], _) => none
  | (digits, rest) => some (Text.decimalValue digits, rest)

/-- A number of one digit up to so many, blanks before it aside. -/
def readPart (most : Nat) (cs : List Char) : Option (Nat × List Char) :=
  readNumber most (Text.trimStart cs)

/-- A year: four digits at most, or a sign and any number of digits. -/
def readYear (cs : List Char) : Option (Int × List Char) :=
  match Text.trimStart cs with
  | '-' :: cs => (readNumber cs.length cs).map fun (n, rest) => (-(n : Int), rest)
  | '+' :: cs => (readNumber cs.length cs).map fun (n, rest) => ((n : Int), rest)
  | cs => (readNumber 4 cs).map fun (n, rest) => ((n : Int), rest)

/-- One character, which must stand here. -/
def readMark (mark : Char) : List Char → Option (List Char)
  | c :: cs => if c = mark then some cs else none
  | [] => none

/-- A fraction of a second in nanoseconds, if its point stands here. -/
def readFraction : List Char → Option (Nat × List Char)
  | '.' :: cs =>
    match splitDigits 9 cs with
    | ([], _) => none
    | (digits, rest) =>
      some (Text.decimalValue digits * Nat.pow 10 (9 - digits.length), rest.dropWhile Text.isDigit)
  | cs => some (0, cs)

/-- A date; `gap` is what may stand before its dashes. -/
def readDate (gap : List Char → List Char) (cs : List Char) : Option (Date × List Char) := do
  let (year, cs) ← readYear cs
  let cs ← readMark '-' (gap cs)
  let (month, cs) ← readPart 2 cs
  let cs ← readMark '-' (gap cs)
  let (day, cs) ← readPart 2 cs
  return (⟨year, month, day⟩, cs)

/-- A time of day behind a date; `gap` is what may stand before its colons. -/
def readTime (gap : List Char → List Char) (date : Date) (cs : List Char) :
    Option (Stamp × List Char) := do
  let (hour, cs) ← readPart 2 cs
  let cs ← readMark ':' (gap cs)
  let (minute, cs) ← readPart 2 cs
  let cs ← readMark ':' (gap cs)
  let (second, cs) ← readPart 2 cs
  let (nano, cs) ← readFraction cs
  return (⟨date, hour, minute, second, nano⟩, cs)

/-- The instant of a text such as `2012-08-31T15:20:01.25`, in universal time. -/
def Instant.ofTimestamp? (text : String) : Option Instant := do
  let (date, cs) ← readDate id text.toList
  let cs ← readMark 'T' cs
  let (stamp, cs) ← readTime id date cs
  if cs.isEmpty && stamp.isValid then return stamp.toInstant else none

/-- Two digits as a number. -/
def readPair : List Char → Option (Nat × List Char)
  | a :: b :: cs =>
    if Text.isDigit a && Text.isDigit b then some (Text.decimalValue [a, b], cs) else none
  | _ => none

/-- An offset in seconds behind its sign: hours, and minutes below sixty with colons or blanks
    between them. -/
def readOffsetBody (cs : List Char) : Option (Nat × List Char) := do
  let (hours, cs) ← readPair cs
  let (minutes, cs) ← readPair (cs.dropWhile fun c => c == ':' || Text.isBlank c)
  if minutes < 60 then return (hours * 3600 + minutes * 60, cs) else none

/-- An offset from universal time in seconds: `Z`, `UTC`, or a sign, hours and minutes.  The minus
    sign may be the hyphen of ASCII or the one of mathematics. -/
def readOffset (cs : List Char) : Option (Int × List Char) :=
  match cs with
  | u :: t :: c :: rest =>
    if Char.toLower u = 'u' ∧ Char.toLower t = 't' ∧ Char.toLower c = 'c' then some (0, rest)
    else signed cs
  | cs => signed cs
where
  /-- An offset that is not spelled `UTC`. -/
  signed : List Char → Option (Int × List Char)
    | 'Z' :: cs => some (0, cs)
    | 'z' :: cs => some (0, cs)
    | '+' :: cs => (readOffsetBody cs).map fun (n, rest) => ((n : Int), rest)
    | '-' :: cs => (readOffsetBody cs).map fun (n, rest) => (-(n : Int), rest)
    | '−' :: cs => (readOffsetBody cs).map fun (n, rest) => (-(n : Int), rest)
    | _ => none

/-- The character between a date and its time. -/
def readSeparator : List Char → Option (List Char)
  | 'T' :: cs => some cs
  | 't' :: cs => some cs
  | ' ' :: cs => some cs
  | _ => none

/-- The instant of a text such as `2024-01-02T03:04:05+02:00`. -/
def Instant.ofOffsetText? (text : String) : Option Instant := do
  let (date, cs) ← readDate Text.trimStart text.toList
  let cs ← readSeparator cs
  let (stamp, cs) ← readTime Text.trimStart date cs
  let (offset, cs) ← readOffset (Text.trimStart cs)
  if (Text.trimStart cs).isEmpty && stamp.isValid && offset.natAbs < 86400 then
    let t := stamp.toInstant.minusSeconds offset
    if t.isInRange then return t else none
  else none

end ErrorIntake.Calendar
