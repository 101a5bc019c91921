import ErrorIntake.Zlib.Bits

/-!
# Prefix codes

A prefix code gives each symbol a row of bits so that none begins another.  It is fixed by the
lengths of the rows: shorter rows come first, rows of one length follow one another in the order of
their symbols, each the binary successor of the one before.
-/

namespace ErrorIntake.Zlib

/-- A prefix code: how many rows there are of each length from one up, and the symbols in the order
    of their rows. -/
structure PrefixCode where
  counts : List Nat
  symbols : Array Nat
  deriving Repr

namespace PrefixCode

/-- No row is longer. -/
def longest : Nat := 15

/-- The symbols whose row has a length, in their order. -/
def symbolsOfLength (lengths : List Nat) (length : Nat) : List Nat :=
  (lengths.zipIdx.filter fun entry => entry.1 == length).map (·.2)

/-- The code of some row lengths, zero standing for a symbol without a row. -/
def ofLengths (lengths : List Nat) : PrefixCode :=
  let rows := (List.range longest).map fun i => symbolsOfLength lengths (i + 1)
  ⟨rows.map List.length, (rows.flatten).toArray⟩

/-- How many rows of the longest length there are. -/
def allRows : Nat := 32768

/-- The share of all rows of the longest length that the code's rows begin. -/
def share (code : PrefixCode) : Nat :=
  code.counts.foldl (fun total count => 2 * total + count) 0

/-- Every row of bits begins with, or is the beginning of, a row of the code, and no row has two
    symbols. -/
def isComplete (code : PrefixCode) : Bool := code.share == allRows

/-- No symbol has a row, or one symbol alone has a row of one bit. -/
def isTrivial (code : PrefixCode) : Bool :=
  code.symbols.isEmpty || (code.symbols.size == 1 && code.counts.head? == some 1)

/-- Reads one symbol.  `row` is the number of the bits read so far, `first` the number of the first
    row of the present length, and `index` how many symbols have shorter rows. -/
def readFrom (symbols : Array Nat) (row first index : Nat) : List Nat → Bits → Option (Nat × Bits)
  | count :: counts, bit :: bits =>
    let row := 2 * row + bit.toNat
    if row < first + count then
      match symbols[index + (row - first)]? with
      | some symbol => some (symbol, bits)
      | none => none
    else readFrom symbols row (2 * (first + count)) (index + count) counts bits
  | _, _ => none

/-- Reads one symbol; none if no row of the code stands here. -/
def read (code : PrefixCode) (bits : Bits) : Option (Nat × Bits) :=
  readFrom code.symbols 0 0 0 code.counts bits

end PrefixCode

end ErrorIntake.Zlib
