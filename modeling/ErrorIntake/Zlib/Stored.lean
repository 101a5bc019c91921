import ErrorIntake.Zlib.Deflate
import ErrorIntake.Zlib.Inflate

/-!
# Stored blocks are read back

What `store` writes at any level, `decompress?` reads back.  Each reader of bits takes from a
stream what the writer of octets put there, and leaves the rest; the blocks follow by induction on
the number of full blocks.
-/

namespace ErrorIntake.Zlib

/-! ## Octets and their bits -/

theorem length_bitsOfByte (b : UInt8) : (bitsOfByte b).length = 8 := by
  simp [bitsOfByte]

@[simp] theorem bitsOf_append (first rest : Bytes) :
    bitsOf (first ++ rest) = bitsOf first ++ bitsOf rest := by
  simp [bitsOf]

@[simp] theorem bitsOf_cons (b : UInt8) (rest : Bytes) :
    bitsOf (b :: rest) = bitsOfByte b ++ bitsOf rest := by
  simp [bitsOf]

@[simp] theorem length_bitsOf (bytes : Bytes) : (bitsOf bytes).length = 8 * bytes.length := by
  induction bytes with
  | nil => rfl
  | cons b rest ih =>
    rw [bitsOf_cons, List.length_append, length_bitsOfByte, ih, List.length_cons]
    omega

theorem alignToByte_bitsOf (bytes : Bytes) : alignToByte (bitsOf bytes) = bitsOf bytes := by
  simp [alignToByte]

theorem numberOf_append (low high : Bits) :
    numberOf (low ++ high) = numberOf low + numberOf high <<< low.length := by
  induction low with
  | nil => simp [numberOf]
  | cons bit low ih =>
    rw [List.cons_append, numberOf, numberOf, ih, List.length_cons, Nat.shiftLeft_succ,
      Nat.mul_add, Nat.add_assoc]

theorem numberOf_bits_of_lt : ∀ n < 256, numberOf ((List.range 8).map fun i => n.testBit i) = n := by
  decide +kernel

theorem numberOf_bitsOfByte (b : UInt8) : numberOf (bitsOfByte b) = b.toNat :=
  numberOf_bits_of_lt b.toNat b.toNat_lt

theorem takeNumber_append (bits rest : Bits) :
    takeNumber bits.length (bits ++ rest) = some (numberOf bits, rest) := by
  induction bits with
  | nil => rfl
  | cons bit bits ih =>
    rw [List.length_cons, List.cons_append, takeNumber, ih]
    rfl

theorem takeByte_append (b : UInt8) (rest : Bits) :
    takeByte (bitsOfByte b ++ rest) = some (b, rest) := by
  have whole : UInt8.ofNat (numberOf (bitsOfByte b)) = b := by
    rw [numberOf_bitsOfByte, UInt8.ofNat_toNat]
  show some (UInt8.ofNat (numberOf (bitsOfByte b)), rest) = some (b, rest)
  rw [whole]

theorem takeBytes_append (bytes : Bytes) (rest : Bits) (out : Array UInt8) :
    takeBytes bytes.length (bitsOf bytes ++ rest) out = some (out ++ bytes, rest) := by
  induction bytes generalizing out with
  | nil => simp [takeBytes, bitsOf]
  | cons b bytes ih =>
    rw [List.length_cons, bitsOf_cons, List.append_assoc, takeBytes, takeByte_append]
    simp only
    rw [ih]
    simp

/-! ## Numbers in octets -/

theorem takeNumber_lengthBytes (n : Nat) (rest : Bits) (short : n ≤ storedLimit) :
    takeNumber 16 (bitsOf (lengthBytes n) ++ rest) = some (n, rest) := by
  have number : numberOf (bitsOf (lengthBytes n)) = n := by
    simp only [lengthBytes, bitsOf_cons]
    rw [numberOf_append, numberOf_append, numberOf_bitsOfByte, numberOf_bitsOfByte,
      length_bitsOfByte, length_bitsOfByte]
    simp only [UInt8.toNat_ofNat', storedLimit, bitsOf, List.flatMap_nil, numberOf] at short ⊢
    omega
  have taken := takeNumber_append (bitsOf (lengthBytes n)) rest
  rw [number] at taken
  exact taken

theorem takeBigEndian_bigEndian (n : Nat) (small : n < 4294967296) :
    takeBigEndian (bitsOf (bigEndian n)) = some n := by
  have taken := takeBytes_append (bigEndian n) [] #[]
  rw [List.append_nil] at taken
  have four : (bigEndian n).length = 4 := rfl
  rw [four] at taken
  have fold : ((#[] : Array UInt8) ++ bigEndian n).foldl (fun n b => n * 256 + b.toNat) 0 = n := by
    rw [← Array.foldl_toList, Array.toList_appendList]
    simp only [bigEndian, List.nil_append, List.foldl_cons, List.foldl_nil, UInt8.toNat_ofNat']
    omega
  rw [takeBigEndian, taken]
  exact congrArg some fold

theorem checksum_lt (bytes : Bytes) : checksum bytes < 4294967296 := by
  have bounded : ∀ sums : Nat × Nat, sums.1 < checksumModulus ∧ sums.2 < checksumModulus →
      (bytes.foldl checksumStep sums).1 < checksumModulus ∧
        (bytes.foldl checksumStep sums).2 < checksumModulus := by
    induction bytes with
    | nil => exact fun _ h => h
    | cons b rest ih =>
      intro sums _
      have positive : 0 < checksumModulus := by decide
      exact ih _ ⟨Nat.mod_lt _ positive, Nat.mod_lt _ positive⟩
  have small := bounded (1, 0) (by decide)
  simp only [checksumModulus] at small
  simp only [checksum]
  omega

/-! ## Blocks -/

/-- The bits at the head of a stored block: whether it is the last, and its kind. -/
theorem readBlocks_storedBlock (fuel : Nat) (last : Bool) (bytes tail : Bytes) (out : Array UInt8)
    (short : bytes.length ≤ storedLimit) :
    readBlocks (fuel + 1) (bitsOf (storedBlock last bytes ++ tail)) out =
      if last then some (out ++ bytes, bitsOf tail)
      else readBlocks fuel (bitsOf tail) (out ++ bytes) := by
  let body := bitsOf (lengthBytes bytes.length ++ (lengthBytes (storedLimit - bytes.length) ++
    (bytes ++ tail)))
  have split : bitsOf (storedBlock last bytes ++ tail) =
      last :: false :: false :: ([false, false, false, false, false] ++ body) := by
    have opening : bitsOfByte (if last then 1 else 0) =
        [last, false, false, false, false, false, false, false] := by
      cases last <;> decide
    simp only [storedBlock, List.cons_append, bitsOf_cons, opening, body, List.append_assoc,
      List.nil_append]
  have aligned : alignToByte ([false, false, false, false, false] ++ body) = body := by
    have five : ([false, false, false, false, false] ++ body).length % 8 = 5 := by
      simp only [body, List.length_append, length_bitsOf, List.length_cons, List.length_nil]
      omega
    rw [alignToByte, five]
    rfl
  have stored : readStored ([false, false, false, false, false] ++ body) out =
      some (out ++ bytes, bitsOf tail) := by
    have check : bytes.length + (storedLimit - bytes.length) = 65535 := by
      simp only [storedLimit] at short ⊢
      omega
    simp only [readStored, aligned]
    simp only [body, bitsOf_append]
    rw [takeNumber_lengthBytes _ _ short]
    simp only [Option.bind_eq_bind, Option.bind_some]
    rw [takeNumber_lengthBytes _ _ (Nat.sub_le _ _)]
    simp only [Option.bind_some, check, ne_eq, not_true_eq_false, if_false]
    exact takeBytes_append bytes (bitsOf tail) out
  rw [split, readBlocks]
  simp only [takeNumber, Bool.toNat_false, Nat.mul_zero, Nat.add_zero, readBlock, if_true, stored]
  cases last <;> simp

theorem readBlocks_storedBlocks (full : Nat) (bytes tail : Bytes) (out : Array UInt8) (fuel : Nat)
    (enough : full < fuel) (many : bytes.length / storedLimit = full) :
    readBlocks fuel (bitsOf (storedBlocks full bytes ++ tail)) out =
      some (out ++ bytes, bitsOf tail) := by
  induction full generalizing bytes out fuel with
  | zero =>
    obtain ⟨fuel, rfl⟩ : ∃ k, fuel = k + 1 := ⟨fuel - 1, by omega⟩
    have short : bytes.length ≤ storedLimit := by
      simp only [storedLimit] at many ⊢
      omega
    rw [storedBlocks, readBlocks_storedBlock fuel true bytes tail out short]
    rfl
  | succ full ih =>
    obtain ⟨fuel, rfl⟩ : ∃ k, fuel = k + 1 := ⟨fuel - 1, by omega⟩
    have short : (bytes.take storedLimit).length ≤ storedLimit := by
      rw [List.length_take]
      exact Nat.min_le_left _ _
    have fewer : (bytes.drop storedLimit).length / storedLimit = full := by
      rw [List.length_drop]
      simp only [storedLimit] at many ⊢
      omega
    rw [storedBlocks, List.append_assoc, readBlocks_storedBlock fuel false _ _ out short]
    simp only [Bool.false_eq_true, if_false]
    rw [ih (bytes.drop storedLimit) (out ++ bytes.take storedLimit) fuel (by omega) fewer]
    have whole : out ++ bytes.take storedLimit ++ bytes.drop storedLimit = out ++ bytes := by
      apply Array.ext'
      simp only [Array.toList_appendList, List.append_assoc, List.take_append_drop]
    rw [whole]

theorem full_lt_length_bits (bytes tail : Bytes) :
    bytes.length / storedLimit <
      (bitsOf (storedBlocks (bytes.length / storedLimit) bytes ++ tail)).length := by
  have grows : ∀ full (bytes : Bytes), full < 8 * (storedBlocks full bytes).length := by
    intro full
    induction full with
    | zero =>
      intro bytes
      simp [storedBlocks, storedBlock]
    | succ full ih =>
      intro bytes
      have rest := ih (bytes.drop storedLimit)
      simp only [storedBlocks, storedBlock, List.length_append, List.length_cons] at rest ⊢
      omega
  have more := grows (bytes.length / storedLimit) bytes
  rw [length_bitsOf, List.length_append]
  omega

/-! ## Streams -/

theorem isHeader_header (level : Nat) :
    ∃ flags, header level = [0x78, flags] ∧ isHeader 0x78 flags = true := by
  refine ⟨_, rfl, ?_⟩
  have hint : levelHint level = 0 ∨ levelHint level = 1 ∨ levelHint level = 2 ∨
      levelHint level = 3 := by
    unfold levelHint
    split
    · exact .inl rfl
    · split
      · exact .inr (.inl rfl)
      · split
        · exact .inr (.inr (.inl rfl))
        · exact .inr (.inr (.inr rfl))
  rcases hint with h | h | h | h <;> rw [h] <;> decide

/-- Decompression reads back what is stored at any level. -/
theorem decompress?_store (level : Nat) (bytes : Bytes) :
    decompress? (store level bytes) = some bytes := by
  obtain ⟨flags, head, valid⟩ := isHeader_header level
  have blocks := readBlocks_storedBlocks _ bytes (bigEndian (checksum bytes)) #[] _
    (full_lt_length_bits bytes (bigEndian (checksum bytes))) rfl
  rw [store, head, List.append_assoc, List.cons_append, List.cons_append, List.nil_append,
    decompress?, if_pos valid]
  simp only [blocks, alignToByte_bitsOf, takeBigEndian_bigEndian _ (checksum_lt bytes)]
  simp

end ErrorIntake.Zlib
