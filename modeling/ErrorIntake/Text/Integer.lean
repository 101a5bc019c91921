import ErrorIntake.Bounds
import ErrorIntake.Text.Ascii

/-!
# Integers in text

An integer of 64 bits is written as decimal digits, with one sign before them or none.  A text that
is none fails at its first offence from the left, and the fault says what that is.
-/

namespace ErrorIntake.Text

/-- Why a text is no integer of 64 bits. -/
inductive IntegerFault
  | empty
  | invalidDigit
  | positiveOverflow
  | negativeOverflow
  deriving DecidableEq, Repr

/-- Digits behind an integer, each added at the far side of zero. -/
def readDigits (negative : Bool) (value : Int) : List Char → Except IntegerFault Int
  | [] => .ok value
  | c :: rest =>
    if isDigit c then
      let next := if negative then value * 10 - digitValue c else value * 10 + digitValue c
      if IsInt64 next then readDigits negative next rest
      else .error (if negative then .negativeOverflow else .positiveOverflow)
    else .error .invalidDigit

/-- The integer that a text spells. -/
def readInteger : List Char → Except IntegerFault Int
  | [] => .error .empty
  | ['+'] => .error .invalidDigit
  | ['-'] => .error .invalidDigit
  | '+' :: digits => readDigits false 0 digits
  | '-' :: digits => readDigits true 0 digits
  | digits => readDigits false 0 digits

end ErrorIntake.Text
