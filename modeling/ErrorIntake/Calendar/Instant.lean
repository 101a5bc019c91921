import ErrorIntake.Calendar.Date
import ErrorIntake.Text.Ascii

/-!
# Instants

An instant is a second of universal time and a number of nanoseconds behind it.  A leap second is
the second before it with a thousand million nanoseconds more, and is written with 60.

Instants are written as in RFC 3339 with `Z`: the fraction in as few groups of three digits as hold
it, years outside 0 to 9999 with a sign.
-/

namespace ErrorIntake.Calendar

/-- A point of universal time. -/
structure Instant where
  /-- Seconds since the beginning of 1970. -/
  second : Int
  /-- Nanoseconds behind the second; from a thousand million on, within a leap second. -/
  nano : Nat
  deriving DecidableEq, Repr, Inhabited

/-- Nanoseconds in a second. -/
def nanosPerSecond : Nat := 1000000000

/-- Seconds in a day. -/
def secondsPerDay : Int := 86400

/-- A date and a time of day as they are written, with 60 for a leap second. -/
structure Stamp where
  date : Date
  hour : Nat
  minute : Nat
  second : Nat
  nano : Nat
  deriving DecidableEq, Repr

namespace Stamp

/-- Every part is within its range. -/
def isValid (s : Stamp) : Bool :=
  s.date.isValid && s.hour ≤ 23 && s.minute ≤ 59 && s.second ≤ 60 && s.nano < nanosPerSecond

/-- The instant that a stamp of universal time names. -/
def toInstant (s : Stamp) : Instant :=
  let leap := s.second == 60
  let second := if leap then 59 else s.second
  ⟨s.date.toDays * secondsPerDay + (s.hour * 3600 + s.minute * 60 + second : Nat),
   if leap then s.nano + nanosPerSecond else s.nano⟩

end Stamp

namespace Instant

/-- The stamp of an instant. -/
def toStamp (t : Instant) : Stamp :=
  let seconds := (t.second % secondsPerDay).toNat
  let leap := nanosPerSecond ≤ t.nano
  ⟨Date.ofDays (t.second / secondsPerDay), seconds / 3600, seconds / 60 % 60,
   seconds % 60 + (if leap then 1 else 0), t.nano % nanosPerSecond⟩

/-- The instant so many seconds earlier. -/
def minusSeconds (t : Instant) (n : Int) : Instant := ⟨t.second - n, t.nano⟩

/-- The instant is on a day that dates can have. -/
def isInRange (t : Instant) : Bool :=
  let year := (Date.ofDays (t.second / secondsPerDay)).year
  firstYear ≤ year && year ≤ lastYear

/-- The text of a year: four digits, and a sign outside 0 to 9999. -/
def yearText (year : Int) : String :=
  if 0 ≤ year then
    if year ≤ 9999 then Text.padded 4 year.toNat else "+" ++ Text.padded 4 year.toNat
  else "-" ++ Text.padded 4 year.natAbs

/-- The text of a fraction of a second, in nanoseconds. -/
def fractionText (nano : Nat) : String :=
  if nano = 0 then ""
  else if nano % 1000000 = 0 then "." ++ Text.padded 3 (nano / 1000000)
  else if nano % 1000 = 0 then "." ++ Text.padded 6 (nano / 1000)
  else "." ++ Text.padded 9 nano

/-- The text of an instant. -/
def toText (t : Instant) : String :=
  let s := t.toStamp
  yearText s.date.year ++ "-" ++ Text.padded 2 s.date.month ++ "-" ++ Text.padded 2 s.date.day ++
    "T" ++ Text.padded 2 s.hour ++ ":" ++ Text.padded 2 s.minute ++ ":" ++ Text.padded 2 s.second ++
    fractionText s.nano ++ "Z"

/-- The beginning of 1970. -/
def epoch : Instant := ⟨0, 0⟩

end Instant

end ErrorIntake.Calendar
