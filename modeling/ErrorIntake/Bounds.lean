/-!
# Ranges of integers

The integers that fit 32 or 64 bits, with sign or without.
-/

namespace ErrorIntake

/-- The integer fits 64 bits with sign. -/
abbrev IsInt64 (n : Int) : Prop := -9223372036854775808 ≤ n ∧ n ≤ 9223372036854775807

/-- The integer fits 32 bits with sign. -/
abbrev IsInt32 (n : Int) : Prop := -2147483648 ≤ n ∧ n ≤ 2147483647

/-- The number fits 64 bits without sign. -/
abbrev IsNat64 (n : Nat) : Prop := n ≤ 18446744073709551615

/-- The number fits 32 bits without sign. -/
abbrev IsNat32 (n : Nat) : Prop := n ≤ 4294967295

end ErrorIntake
