import ErrorIntake.Bounds
import ErrorIntake.Text.Ascii

/-!
# Numbers in TOML

An integer has 64 bits and is written in base ten, with a sign or without, or without sign in base
sixteen, eight or two behind its prefix.  A number with a point or an exponent is fractional; it
must not be past the largest double above zero.  Single underscores may stand between digits.
-/

namespace ErrorIntake.Toml

/-- Digits after the first: each may have an underscore before it. -/
def readMoreDigits (isDigit : Char → Bool) : List Char → Option (List Char × List Char)
  | '_' :: c :: cs =>
    if isDigit c then (readMoreDigits isDigit cs).map fun (digits, cs) => (c :: digits, cs)
    else none
  | ['_'] => none
  | c :: cs =>
    if isDigit c then (readMoreDigits isDigit cs).map fun (digits, cs) => (c :: digits, cs)
    else some ([], c :: cs)
  | [] => some ([], [])

/-- A row of digits, at least one. -/
def readDigits (isDigit : Char → Bool) : List Char → Option (List Char × List Char)
  | c :: cs =>
    if isDigit c then (readMoreDigits isDigit cs).map fun (digits, cs) => (c :: digits, cs)
    else none
  | [] => none

/-- A sign, if one stands here: whether it is a minus. -/
def readSign : List Char → Bool × List Char
  | '-' :: cs => (true, cs)
  | '+' :: cs => (false, cs)
  | cs => (false, cs)

/-- Decimal digits that begin with a zero only if that is all of them. -/
def readWhole : List Char → Option (List Char × List Char)
  | '0' :: cs => some (['0'], cs)
  | cs => readDigits Text.isDigit cs

/-- An exponent behind its mark. -/
def readPower (cs : List Char) : Option (Int × List Char) := do
  let (negative, cs) := readSign cs
  let (digits, cs) ← readDigits Text.isDigit cs
  let power : Int := Text.decimalValue digits
  return (if negative then -power else power, cs)

/-- The least number that is nearer to 2^1024 than to the largest double. -/
def overflowThreshold : Nat := Nat.pow 2 1024 - Nat.pow 2 970

/-- The decimal is past the largest double.  Exponents far out are decided without the power. -/
def isPastLargest (digits : List Char) (power : Int) : Bool :=
  let significand := Text.decimalValue digits
  if significand = 0 ∨ digits.length + power < 300 then false
  else if 400 < power then true
  else if 0 ≤ power then overflowThreshold ≤ significand * Nat.pow 10 power.toNat
  else overflowThreshold * Nat.pow 10 (-power).toNat ≤ significand

/-- The rest of a number with a point or an exponent, behind its whole digits: fraction digits and
    power.  None if neither stands here. -/
def readFractional (cs : List Char) : Option (List Char × Int × List Char) := do
  match cs with
  | '.' :: cs =>
    let (fraction, cs) ← readDigits Text.isDigit cs
    match cs with
    | c :: rest =>
      if c = 'e' ∨ c = 'E' then
        let (power, rest) ← readPower rest
        return (fraction, power, rest)
      else return (fraction, 0, c :: rest)
    | [] => return (fraction, 0, [])
  | c :: cs =>
    if c = 'e' ∨ c = 'E' then
      let (power, cs) ← readPower cs
      return ([], power, cs)
    else none
  | [] => none

/-- A fractional number; gives what follows it. -/
def readFloat (cs : List Char) : Option (List Char) := do
  let (negative, cs) := readSign cs
  match cs with
  | 'i' :: 'n' :: 'f' :: cs => return cs
  | 'n' :: 'a' :: 'n' :: cs => return cs
  | cs =>
    let (whole, cs) ← readWhole cs
    let (fraction, power, cs) ← readFractional cs
    if !negative && isPastLargest (whole ++ fraction) (power - fraction.length) then none
    else return cs

/-- The number that digits spell in a base. -/
def valueInBase (base : Nat) (digits : List Char) : Nat :=
  digits.foldl (fun n c => n * base + (Text.hexValue? c).getD 0) 0

/-- An integer of 64 bits, if it is one. -/
def bounded? (n : Int) : Option Int := if IsInt64 n then some n else none

/-- Digits of a base as an integer. -/
def readInBase (base : Nat) (isDigit : Char → Bool) (cs : List Char) :
    Option (Int × List Char) := do
  let (digits, cs) ← readDigits isDigit cs
  return (← bounded? (valueInBase base digits), cs)

/-- An integer. -/
def readInteger : List Char → Option (Int × List Char)
  | '0' :: 'x' :: cs => readInBase 16 Text.isHexDigit cs
  | '0' :: 'o' :: cs => readInBase 8 (fun c => '0' ≤ c && c ≤ '7') cs
  | '0' :: 'b' :: cs => readInBase 2 (fun c => c == '0' || c == '1') cs
  | cs => do
    let (negative, cs) := readSign cs
    let (digits, cs) ← readWhole cs
    let n : Int := Text.decimalValue digits
    return (← bounded? (if negative then -n else n), cs)

end ErrorIntake.Toml
