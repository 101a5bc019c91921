import ErrorIntake.Text.Utf8

/-!
# Bits of a compressed stream

A stream is read bit by bit, the least bit of each octet first.  Numbers stand in it with their
least bit first; octets begin again where the number of bits left is a multiple of eight.
-/

namespace ErrorIntake.Zlib

/-- Bits in the order in which they are read. -/
abbrev Bits := List Bool

/-- The bits of an octet, least first. -/
def bitsOfByte (b : UInt8) : Bits := (List.range 8).map fun i => b.toNat.testBit i

/-- The bits of octets. -/
def bitsOf (bytes : Bytes) : Bits := bytes.flatMap bitsOfByte

/-- The number that some bits make, least first. -/
def numberOf : Bits → Nat
  | [] => 0
  | bit :: rest => bit.toNat + 2 * numberOf rest

/-- Takes a number of so many bits. -/
def takeNumber : (count : Nat) → Bits → Option (Nat × Bits)
  | 0, bits => some (0, bits)
  | count + 1, bit :: bits =>
    match takeNumber count bits with
    | some (n, bits) => some (bit.toNat + 2 * n, bits)
    | none => none
  | _ + 1, [] => none

/-- Takes one octet. -/
def takeByte : Bits → Option (UInt8 × Bits)
  | a :: b :: c :: d :: e :: f :: g :: h :: rest =>
    some (UInt8.ofNat (numberOf [a, b, c, d, e, f, g, h]), rest)
  | _ => none

/-- Takes so many octets and appends them to what was put out before. -/
def takeBytes : (count : Nat) → Bits → Array UInt8 → Option (Array UInt8 × Bits)
  | 0, bits, out => some (out, bits)
  | count + 1, bits, out =>
    match takeByte bits with
    | some (b, bits) => takeBytes count bits (out.push b)
    | none => none

/-- Skips to where the next octet begins. -/
def alignToByte (bits : Bits) : Bits := bits.drop (bits.length % 8)

end ErrorIntake.Zlib
