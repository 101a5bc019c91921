/-!
# Finite binary64 numbers

A double is a sign, a significand below 2^53 and a power of two.  Every operation computes the
exact quotient of two natural numbers and rounds it once, to the nearest double and to the even
significand when two are equally near; `ofRatio?` has no answer when the result would be past the
largest finite double.
-/

namespace ErrorIntake

/-- The finite number `(-1)^negative * significand * 2^exponent`.  Zero keeps a sign. -/
structure Double where
  negative : Bool
  significand : Nat
  exponent : Int
  deriving DecidableEq, Repr, Inhabited

namespace Double

/-- The exponent of the least positive double. -/
def leastExponent : Int := -1074

/-- The exponent of the largest double. -/
def greatestExponent : Int := 971

/-- Significands are below this, 2^53. -/
def significandLimit : Nat := 9007199254740992

/-- The least significand of a number whose exponent is not the least, 2^52. -/
def normalLeast : Nat := 4503599627370496

/-- Zero, with its sign. -/
def zero (negative : Bool) : Double := ⟨negative, 0, leastExponent⟩

/-- The quotient of two natural numbers, rounded to the nearest integer, a half to the even one. -/
def roundHalfEven (n d : Nat) : Nat :=
  let q := n / d
  let r := n % d
  if 2 * r < d then q else if d < 2 * r then q + 1 else q + q % 2

/-- The ratio `n / d` divided by `2^e`, again as a ratio. -/
def scaled (n d : Nat) (e : Int) : Nat × Nat :=
  if 0 ≤ e then (n, d * Nat.pow 2 e.toNat) else (n * Nat.pow 2 (-e).toNat, d)

/-- The exponent that gives `n / d` a significand of 53 bits, or the least exponent if that is
    more. -/
def exponentFor (n d : Nat) : Int :=
  let low : Int := (n.log2 : Int) - (d.log2 : Int) - 53
  let (a, b) := scaled n d low
  max leastExponent (if significandLimit ≤ a / b then low + 1 else low)

/-- The double nearest to `n / d`, with the given sign. -/
def ofRatio? (negative : Bool) (n d : Nat) : Option Double :=
  if n = 0 then some (zero negative)
  else
    let e := exponentFor n d
    let (a, b) := scaled n d e
    let m := roundHalfEven a b
    let (m, e) := if m = significandLimit then (normalLeast, e + 1) else (m, e)
    if e ≤ greatestExponent then some ⟨negative, m, e⟩ else none

/-- The size of the number as a ratio. -/
def toRatio (x : Double) : Nat × Nat :=
  if 0 ≤ x.exponent then (x.significand * Nat.pow 2 x.exponent.toNat, 1)
  else (x.significand, Nat.pow 2 (-x.exponent).toNat)

/-- The number is zero, of either sign. -/
def isZero (x : Double) : Bool := x.significand == 0

/-- The double nearest to an integer. -/
def ofInt (n : Int) : Double := (ofRatio? (n < 0) n.natAbs 1).getD (zero false)

/-- The rounded product. -/
def mul? (x y : Double) : Option Double :=
  let (a, b) := x.toRatio
  let (c, d) := y.toRatio
  ofRatio? (x.negative != y.negative) (a * c) (b * d)

/-- The rounded quotient; there is none by zero. -/
def div? (x y : Double) : Option Double :=
  if y.isZero then none
  else
    let (a, b) := x.toRatio
    let (c, d) := y.toRatio
    ofRatio? (x.negative != y.negative) (a * d) (b * c)

end Double

end ErrorIntake
