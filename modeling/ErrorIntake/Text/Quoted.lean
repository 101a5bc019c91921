import ErrorIntake.Text.Ascii
import ErrorIntake.Text.GraphemeExtend
import ErrorIntake.Text.Unprintable

/-!
# Quoted text in diagnostics

Diagnostics show a text between double quotes.  Inside, a quote and a backslash have a backslash
before them, and tab, carriage return, line feed and the null character have their letters.  Any
other character that shows nothing, or that is shown as part of the one before it, is written by its
code point, and every other character stands for itself.
-/

namespace ErrorIntake.Text

/-- The digits of a number in base sixteen, without leading zeros. -/
def hexRepr (n : Nat) : List Char := Nat.toDigits 16 n

/-- One character as it stands between the quotes. -/
def quotedChar (c : Char) : List Char :=
  if c = '"' then ['\\', '"']
  else if c = '\\' then ['\\', '\\']
  else if c = '\t' then ['\\', 't']
  else if c = '\r' then ['\\', 'r']
  else if c = '\n' then ['\\', 'n']
  else if c.toNat = 0 then ['\\', '0']
  else if isUnprintable c || isGraphemeExtend c then
    ['\\', 'u', '\x7b'] ++ hexRepr c.toNat ++ ['\x7d']
  else [c]

/-- The text between quotes. -/
def quoted (s : String) : String :=
  String.ofList ('"' :: s.toList.flatMap quotedChar ++ ['"'])

/-- Quoted texts between square brackets, with a comma and a space between two of them. -/
def quotedList (texts : List String) : String :=
  "[" ++ String.intercalate ", " (texts.map quoted) ++ "]"

example : quoted "a\"b" = "\"a\\\"b\"" := by decide +kernel

end ErrorIntake.Text
