/-!
# Ranges of characters

A property of characters is given by the ranges of code points that have it.
-/

namespace ErrorIntake.Text

/-- The code point of a character lies in one of the ranges, whose ends belong to them. -/
def inRanges (ranges : List (Nat × Nat)) (c : Char) : Bool :=
  ranges.any fun range => range.1 ≤ c.toNat && c.toNat ≤ range.2

end ErrorIntake.Text
