import ErrorIntake.Bounds
import ErrorIntake.Double.Decimal
import ErrorIntake.Double.Shortest
import ErrorIntake.Text.Ascii

/-!
# JSON numbers

A numeral is a number as written: sign, digits before and after the point, exponent.  The number
it stands for is an integer when it has neither point nor exponent and fits 64 bits, with or
without sign; every other numeral stands for a double, or for nothing when it is past the largest
one.  `-0` has no integer and stands for the double.
-/

namespace ErrorIntake.Json

/-- A number as it is written. -/
structure Numeral where
  negative : Bool
  whole : List Char
  fraction : List Char
  exponent : Option Int
  deriving DecidableEq, Repr

/-- A number as it is meant. -/
inductive Number
  | integer (n : Int)
  | float (x : Double)
  deriving DecidableEq, Repr

namespace Numeral

/-- Significands are collected while they stay below this. -/
def significandLimit : Nat := 18446744073709551616

/-- Whole digits behind a significand: the significand they make, and how many digits were left
    over from the first that no longer fitted. -/
def collectWhole (significand : Nat) : List Char → Nat × Nat
  | [] => (significand, 0)
  | c :: rest =>
    let next := significand * 10 + Text.digitValue c
    if next < significandLimit then collectWhole next rest else (significand, rest.length + 1)

/-- Digits after the point behind a significand: the significand they make, and how many of them
    it holds.  Digits from the first that no longer fits are dropped. -/
def collectFraction (significand : Nat) : List Char → Nat × Nat
  | [] => (significand, 0)
  | c :: rest =>
    let next := significand * 10 + Text.digitValue c
    if next < significandLimit then
      let (s, taken) := collectFraction next rest
      (s, taken + 1)
    else (significand, 0)

/-- The numeral has neither a point nor an exponent. -/
def isWhole (n : Numeral) : Bool := n.fraction.isEmpty && n.exponent.isNone

/-- The double nearest to the numeral, as `Double.ofDecimal?` reads decimals. -/
def toDouble? (n : Numeral) : Option Double :=
  let (significand, left) := collectWhole 0 n.whole
  let (significand, taken) := collectFraction significand n.fraction
  Double.ofDecimal? n.negative significand ((left : Int) - (taken : Int) + n.exponent.getD 0)

/-- The integer that the numeral spells, if it is one and fits. -/
def toInt? (n : Numeral) : Option Int :=
  let value := Text.decimalValue n.whole
  if n.isWhole then
    if n.negative then
      if 0 < value ∧ value ≤ 9223372036854775808 then some (-(value : Int)) else none
    else if value < significandLimit then some value else none
  else none

/-- The number that the numeral stands for. -/
def value? (n : Numeral) : Option Number :=
  match n.toInt? with
  | some i => some (.integer i)
  | none => n.toDouble?.map .float

end Numeral

namespace Number

/-- The number as an integer that fits 64 bits with sign. -/
def toInt64? : Number → Option Int
  | .integer n => if IsInt64 n then some n else none
  | .float _ => none

/-- The text of a number. -/
def toText : Number → String
  | .integer n => toString n
  | .float x => x.toText Double.jsonLayout

end Number

end ErrorIntake.Json
