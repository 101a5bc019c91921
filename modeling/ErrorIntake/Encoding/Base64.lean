import ErrorIntake.Text.Utf8

/-!
# Base64

The standard alphabet of RFC 4648, read strictly: groups of four characters, padding where the last
group is short, and no bit set that the padding leaves unused.
-/

namespace ErrorIntake.Base64

/-- The characters of the alphabet, each at the place of the number it stands for. -/
def alphabet : List UInt8 :=
  "ABCDEFGHIJKLMNOPQRSTUVWXYZabcdefghijklmnopqrstuvwxyz0123456789+/".toList.map
    fun c => UInt8.ofNat c.toNat

/-- The padding character. -/
def padding : UInt8 := 0x3D

/-- The six bits that a character stands for. -/
def value? (b : UInt8) : Option Nat :=
  let n := b.toNat
  if 0x41 ≤ n ∧ n ≤ 0x5A then some (n - 0x41)
  else if 0x61 ≤ n ∧ n ≤ 0x7A then some (n - 0x61 + 26)
  else if 0x30 ≤ n ∧ n ≤ 0x39 then some (n - 0x30 + 52)
  else if n = 0x2B then some 62
  else if n = 0x2F then some 63
  else none

/-- The octets of a text in base 64; none if it is not written as `encode` writes. -/
def decode? : Bytes → Option Bytes
  | [] => some []
  | [a, b, c, d] => do
    let a ← value? a
    let b ← value? b
    if c = padding then
      if d = padding ∧ b % 16 = 0 then return [UInt8.ofNat (a * 4 + b / 16)] else none
    else
      let c ← value? c
      if d = padding then
        if c % 4 = 0 then
          return [UInt8.ofNat (a * 4 + b / 16), UInt8.ofNat (b % 16 * 16 + c / 4)]
        else none
      else
        let d ← value? d
        return [UInt8.ofNat (a * 4 + b / 16), UInt8.ofNat (b % 16 * 16 + c / 4),
          UInt8.ofNat (c % 4 * 64 + d)]
  | a :: b :: c :: d :: rest => do
    let a ← value? a
    let b ← value? b
    let c ← value? c
    let d ← value? d
    let rest ← decode? rest
    return UInt8.ofNat (a * 4 + b / 16) :: UInt8.ofNat (b % 16 * 16 + c / 4) ::
      UInt8.ofNat (c % 4 * 64 + d) :: rest
  | _ => none

/-- The character for six bits. -/
def character (n : Nat) : UInt8 := alphabet.getD n 0

/-- The text of octets in base 64. -/
def encode : Bytes → Bytes
  | [] => []
  | [x] => [character (x.toNat / 4), character (x.toNat % 4 * 16), padding, padding]
  | [x, y] =>
    [character (x.toNat / 4), character (x.toNat % 4 * 16 + y.toNat / 16),
     character (y.toNat % 16 * 4), padding]
  | x :: y :: z :: rest =>
    character (x.toNat / 4) :: character (x.toNat % 4 * 16 + y.toNat / 16) ::
      character (y.toNat % 16 * 4 + z.toNat / 64) :: character (z.toNat % 64) :: encode rest

end ErrorIntake.Base64
