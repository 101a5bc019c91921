import ErrorIntake.Text.Utf8

/-!
# The checksum of a zlib stream

Adler-32: the sum of the octets plus one, and the sum of all those sums, both modulo 65521.
-/

namespace ErrorIntake.Zlib

/-- The modulus of both sums. -/
def checksumModulus : Nat := 65521

/-- Both sums after one more octet. -/
def checksumStep (sums : Nat × Nat) (b : UInt8) : Nat × Nat :=
  let low := (sums.1 + b.toNat) % checksumModulus
  (low, (sums.2 + low) % checksumModulus)

/-- The checksum of octets. -/
def checksum (bytes : Bytes) : Nat :=
  let (low, high) := bytes.foldl checksumStep (1, 0)
  high * 65536 + low

end ErrorIntake.Zlib
