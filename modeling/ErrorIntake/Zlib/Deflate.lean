import ErrorIntake.Zlib.Checksum

/-!
# Stored streams

The simplest zlib stream of octets has stored blocks only, which every reader of zlib streams
accepts at every level.  The level is told in the header, as RFC 1950 asks.
-/

namespace ErrorIntake.Zlib

/-- The highest compression level. -/
def highestLevel : Nat := 9

/-- The hint in the header: fastest, fast, default or best. -/
def levelHint (level : Nat) : Nat :=
  if level ≤ 1 then 0 else if level ≤ 5 then 1 else if level = 6 then 2 else 3

/-- The header of a stream with a window of 32 KiB. -/
def header (level : Nat) : Bytes :=
  let flags := levelHint level * 64
  [0x78, UInt8.ofNat (flags + (31 - (0x78 * 256 + flags) % 31))]

/-- The most octets that one block stores. -/
def storedLimit : Nat := 65535

/-- The two octets of a length, least first. -/
def lengthBytes (n : Nat) : Bytes := [UInt8.ofNat (n % 256), UInt8.ofNat (n / 256)]

/-- A stored block. -/
def storedBlock (last : Bool) (bytes : Bytes) : Bytes :=
  (if last then 1 else 0) :: lengthBytes bytes.length ++
    lengthBytes (storedLimit - bytes.length) ++ bytes

/-- Stored blocks; `full` is the number of full blocks before the last. -/
def storedBlocks : (full : Nat) → Bytes → Bytes
  | 0, bytes => storedBlock true bytes
  | full + 1, bytes =>
    storedBlock false (bytes.take storedLimit) ++ storedBlocks full (bytes.drop storedLimit)

/-- The four octets of a checksum, greatest first. -/
def bigEndian (n : Nat) : Bytes :=
  [UInt8.ofNat (n / 16777216), UInt8.ofNat (n / 65536 % 256), UInt8.ofNat (n / 256 % 256),
   UInt8.ofNat (n % 256)]

/-- The zlib stream that stores octets. -/
def store (level : Nat) (bytes : Bytes) : Bytes :=
  header level ++ storedBlocks (bytes.length / storedLimit) bytes ++ bigEndian (checksum bytes)

end ErrorIntake.Zlib
