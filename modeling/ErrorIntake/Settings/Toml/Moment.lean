import ErrorIntake.Calendar.Date
import ErrorIntake.Text.Ascii

/-!
# Dates and times in TOML

A date, a time of day, or both with `T` or a space between them and an offset behind them or none.
No setting is a date, so readers only tell where it ends.
-/

namespace ErrorIntake.Toml

/-- Decimal digits, exactly so many, as a number. -/
def readFixed (count : Nat) (cs : List Char) : Option (Nat × List Char) :=
  let digits := cs.take count
  if digits.length = count ∧ digits.all Text.isDigit then
    some (Text.decimalValue digits, cs.drop count)
  else none

/-- What follows a character that must stand here. -/
def readMark (mark : Char) : List Char → Option (List Char)
  | c :: cs => if c = mark then some cs else none
  | [] => none

/-- Two digits that are at most so much. -/
def readPair (most : Nat) (cs : List Char) : Option (List Char) := do
  let (n, cs) ← readFixed 2 cs
  if n ≤ most then return cs else none

/-- A date of the calendar. -/
def readDate (cs : List Char) : Option (List Char) := do
  let (year, cs) ← readFixed 4 cs
  let (month, cs) ← readFixed 2 (← readMark '-' cs)
  let (day, cs) ← readFixed 2 (← readMark '-' cs)
  if (Calendar.Date.mk year month day).isValid then return cs else none

/-- A fraction of a second, if one stands here. -/
def skipFraction : List Char → List Char
  | '.' :: c :: cs => if Text.isDigit c then cs.dropWhile Text.isDigit else '.' :: c :: cs
  | cs => cs

/-- A time of day; the second may be 60. -/
def readTime (cs : List Char) : Option (List Char) := do
  let cs ← readPair 23 cs
  let cs ← readPair 59 (← readMark ':' cs)
  let cs ← readPair 60 (← readMark ':' cs)
  return skipFraction cs

/-- An offset from universal time. -/
def readOffset : List Char → Option (List Char)
  | 'Z' :: cs => some cs
  | 'z' :: cs => some cs
  | c :: cs =>
    if c = '+' ∨ c = '-' then do
      let cs ← readPair 23 cs
      readPair 59 (← readMark ':' cs)
    else none
  | [] => none

/-- A time of day behind a date, if one stands here, with its offset, if it has one. -/
def skipTime (cs : List Char) : List Char :=
  match cs with
  | c :: rest =>
    if c = 'T' ∨ c = 't' ∨ c = ' ' then
      match readTime rest with
      | some after => (readOffset after).getD after
      | none => cs
    else cs
  | [] => []

/-- A date, a time of day, or both; gives what follows. -/
def readMoment (cs : List Char) : Option (List Char) :=
  match readDate cs with
  | some rest => some (skipTime rest)
  | none => readTime cs

end ErrorIntake.Toml
