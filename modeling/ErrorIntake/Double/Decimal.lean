import ErrorIntake.Double.Basic

/-!
# Doubles from decimals

A decimal is a whole significand and a power of ten.  Its double is found in two roundings: the
significand is rounded first, then the product with, or the quotient by, the rounded power of ten.
Powers of ten beyond 10^308 are no doubles; a smaller exponent is reached by dividing by 10^308 as
often as needed, a larger one is reached by zero alone.
-/

namespace ErrorIntake.Double

/-- The greatest power of ten that is at most the largest double. -/
def greatestPower : Nat := 308

/-- A power of ten, rounded. -/
def powerOfTen (k : Nat) : Double := (ofRatio? false (Nat.pow 10 k) 1).getD (zero false)

/-- The number divided by `y` the given number of times; zero stays what it is. -/
def dividedTimes? (y : Double) : Nat → Double → Option Double
  | 0, x => some x
  | times + 1, x =>
    if x.isZero then some x
    else
      match x.div? y with
      | some z => dividedTimes? y times z
      | none => none

/-- The number divided by a power of ten: by the greatest power while more is left, then by the
    rest. -/
def dividedByPowerOfTen? (x : Double) (k : Nat) : Option Double :=
  let times := (k - 1) / greatestPower
  match dividedTimes? (powerOfTen greatestPower) times x with
  | some y => y.div? (powerOfTen (k - times * greatestPower))
  | none => none

/-- The number times a power of ten; none where that is past the largest double. -/
def timesPowerOfTen? (x : Double) (k : Int) : Option Double :=
  if k < 0 then x.dividedByPowerOfTen? (-k).toNat
  else if k ≤ greatestPower then x.mul? (powerOfTen k.toNat)
  else if x.isZero then some x
  else none

/-- The double read from a decimal. -/
def ofDecimal? (negative : Bool) (significand : Nat) (exponent : Int) : Option Double :=
  match ofRatio? negative significand 1 with
  | some x => x.timesPowerOfTen? exponent
  | none => none

end ErrorIntake.Double
