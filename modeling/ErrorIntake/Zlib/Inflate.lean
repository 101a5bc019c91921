import ErrorIntake.Zlib.Checksum
import ErrorIntake.Zlib.PrefixCode

/-!
# Decompression

The streams of RFC 1950 and 1951: a header, blocks of stored or coded octets, and the checksum of
what they stand for.  A stream must be whole; what follows it is not looked at.  A coded block
copies from what was put out before, and from zeros where it reaches back beyond the start.
-/

namespace ErrorIntake.Zlib

/-- The least length of a copy for each length symbol from 257, and its number of extra bits. -/
def lengthBases : Array (Nat × Nat) :=
  #[(3, 0), (4, 0), (5, 0), (6, 0), (7, 0), (8, 0), (9, 0), (10, 0), (11, 1), (13, 1), (15, 1),
    (17, 1), (19, 2), (23, 2), (27, 2), (31, 2), (35, 3), (43, 3), (51, 3), (59, 3), (67, 4),
    (83, 4), (99, 4), (115, 4), (131, 5), (163, 5), (195, 5), (227, 5), (258, 0)]

/-- The least distance of a copy for each distance symbol, and its number of extra bits. -/
def distanceBases : Array (Nat × Nat) :=
  #[(1, 0), (2, 0), (3, 0), (4, 0), (5, 1), (7, 1), (9, 2), (13, 2), (17, 3), (25, 3), (33, 4),
    (49, 4), (65, 5), (97, 5), (129, 6), (193, 6), (257, 7), (385, 7), (513, 8), (769, 8),
    (1025, 9), (1537, 9), (2049, 10), (3073, 10), (4097, 11), (6145, 11), (8193, 12), (12289, 12),
    (16385, 13), (24577, 13)]

/-- The codes of a block: one for octets, ends and lengths, one for distances. -/
structure BlockCodes where
  content : PrefixCode
  distance : PrefixCode

/-- The codes of a block that brings none of its own. -/
def fixedCodes : BlockCodes :=
  ⟨.ofLengths (List.replicate 144 8 ++ List.replicate 112 9 ++ List.replicate 24 7 ++
      List.replicate 8 8),
   .ofLengths (List.replicate 32 5)⟩

/-- A number given by a symbol: its least value and extra bits are found in a table. -/
def takeExtra (bases : Array (Nat × Nat)) (symbol : Nat) (bits : Bits) : Option (Nat × Bits) :=
  match bases[symbol]? with
  | some (base, extra) => (takeNumber extra bits).map fun (n, bits) => (base + n, bits)
  | none => none

/-- The octet so far back; zero before the start. -/
def byteBack (out : Array UInt8) (distance : Nat) : UInt8 :=
  if distance ≤ out.size then out.getD (out.size - distance) 0 else 0

/-- Copies so many octets from so far back, one by one, so that a copy may run into itself. -/
def copyBack (distance : Nat) : (count : Nat) → Array UInt8 → Array UInt8
  | 0, out => out
  | count + 1, out => copyBack distance count (out.push (byteBack out distance))

/-- Reads symbols up to the end of a coded block.  Every symbol takes a bit, so the number of bits
    is fuel enough. -/
def readCoded (codes : BlockCodes) : (fuel : Nat) → Bits → Array UInt8 →
    Option (Array UInt8 × Bits)
  | 0, _, _ => none
  | fuel + 1, bits, out =>
    match codes.content.read bits with
    | none => none
    | some (symbol, bits) =>
      if symbol < 256 then readCoded codes fuel bits (out.push (UInt8.ofNat symbol))
      else if symbol = 256 then some (out, bits)
      else
        match takeExtra lengthBases (symbol - 257) bits with
        | none => none
        | some (count, bits) =>
          match codes.distance.read bits with
          | none => none
          | some (symbol, bits) =>
            match takeExtra distanceBases symbol bits with
            | none => none
            | some (distance, bits) => readCoded codes fuel bits (copyBack distance count out)

/-- The order in which a block gives the row lengths of the code for row lengths. -/
def lengthOrder : List Nat := [16, 17, 18, 0, 8, 7, 9, 6, 10, 5, 11, 4, 12, 3, 13, 2, 14, 1, 15]

/-- Takes so many numbers of three bits. -/
def takeTriples : (count : Nat) → Bits → Option (List Nat × Bits)
  | 0, bits => some ([], bits)
  | count + 1, bits => do
    let (n, bits) ← takeNumber 3 bits
    let (rest, bits) ← takeTriples count bits
    return (n :: rest, bits)

/-- Reads row lengths, given in reverse, until there are as many as wanted: a symbol below sixteen
    is a length, sixteen repeats the length before, seventeen and eighteen stand for zeros. -/
def readLengths (code : PrefixCode) (wanted : Nat) : (fuel : Nat) → Bits → List Nat →
    Option (List Nat × Bits)
  | 0, _, _ => none
  | fuel + 1, bits, lengths =>
    if lengths.length = wanted then some (lengths.reverse, bits)
    else if wanted < lengths.length then none
    else
      match code.read bits with
      | none => none
      | some (symbol, bits) =>
        if symbol < 16 then readLengths code wanted fuel bits (symbol :: lengths)
        else if symbol = 16 then
          match lengths, takeNumber 2 bits with
          | last :: _, some (n, bits) =>
            readLengths code wanted fuel bits (List.replicate (3 + n) last ++ lengths)
          | _, _ => none
        else if symbol = 17 then
          match takeNumber 3 bits with
          | some (n, bits) =>
            readLengths code wanted fuel bits (List.replicate (3 + n) 0 ++ lengths)
          | none => none
        else
          match takeNumber 7 bits with
          | some (n, bits) =>
            readLengths code wanted fuel bits (List.replicate (11 + n) 0 ++ lengths)
          | none => none

/-- Reads the codes that a block brings. -/
def readCodes (bits : Bits) : Option (BlockCodes × Bits) := do
  let (contents, bits) ← takeNumber 5 bits
  let (distances, bits) ← takeNumber 5 bits
  let (given, bits) ← takeNumber 4 bits
  let contents := contents + 257
  let distances := distances + 1
  if 286 < contents ∨ 30 < distances then none
  let (triples, bits) ← takeTriples (given + 4) bits
  let lengths := (List.range 19).map fun symbol =>
    ((lengthOrder.zip triples).lookup symbol).getD 0
  let code := PrefixCode.ofLengths lengths
  if !code.isComplete then none
  let (lengths, bits) ← readLengths code (contents + distances) (contents + distances + 1) bits []
  let content := PrefixCode.ofLengths (lengths.take contents)
  let distance := PrefixCode.ofLengths (lengths.drop contents)
  if content.isComplete || content.isTrivial then
    if distance.isComplete || distance.isTrivial then return (⟨content, distance⟩, bits) else none
  else none

/-- Reads a stored block: its length, the same with every bit turned, and the octets. -/
def readStored (bits : Bits) (out : Array UInt8) : Option (Array UInt8 × Bits) := do
  let (length, bits) ← takeNumber 16 (alignToByte bits)
  let (check, bits) ← takeNumber 16 bits
  if length + check ≠ 65535 then none
  takeBytes length bits out

/-- Reads a block of a kind. -/
def readBlock (kind : Nat) (bits : Bits) (out : Array UInt8) : Option (Array UInt8 × Bits) :=
  if kind = 0 then readStored bits out
  else if kind = 1 then readCoded fixedCodes bits.length bits out
  else if kind = 2 then
    match readCodes bits with
    | some (codes, bits) => readCoded codes bits.length bits out
    | none => none
  else none

/-- Reads blocks up to the last.  Every block takes three bits. -/
def readBlocks : (fuel : Nat) → Bits → Array UInt8 → Option (Array UInt8 × Bits)
  | 0, _, _ => none
  | fuel + 1, bits, out =>
    match takeNumber 1 bits with
    | none => none
    | some (last, bits) =>
      match takeNumber 2 bits with
      | none => none
      | some (kind, bits) =>
        match readBlock kind bits out with
        | none => none
        | some (out, bits) => if last = 1 then some (out, bits) else readBlocks fuel bits out

/-- A header: method eight with a window of at most 32 KiB, no dictionary, and a check that makes
    both octets a multiple of 31. -/
def isHeader (method flags : UInt8) : Bool :=
  (method.toNat * 256 + flags.toNat) % 31 == 0 && method.toNat % 16 == 8 &&
    method.toNat / 16 ≤ 7 && flags.toNat / 32 % 2 == 0

/-- Reads a number of four octets, greatest first. -/
def takeBigEndian (bits : Bits) : Option Nat :=
  match takeBytes 4 bits #[] with
  | some (bytes, _) => some (bytes.foldl (fun n b => n * 256 + b.toNat) 0)
  | none => none

/-- What a zlib stream stands for; none if it is no whole stream or its checksum differs. -/
def decompress? : Bytes → Option Bytes
  | method :: flags :: rest =>
    if isHeader method flags then
      let bits := bitsOf rest
      match readBlocks bits.length bits #[] with
      | none => none
      | some (out, bits) =>
        let bytes := out.toList
        if takeBigEndian (alignToByte bits) = some (checksum bytes) then some bytes else none
    else none
  | _ => none

end ErrorIntake.Zlib
