import ErrorIntake.Encoding.Base64
import ErrorIntake.Text.Blank

/-!
# Base64 read back

What is written in base 64 is read back, whatever the length.  A text in base 64 has no other octets
than the alphabet and the padding, so none that is blank or opens an object.
-/

namespace ErrorIntake.Base64

theorem value?_character {n : Nat} (h : n < 64) : value? (character n) = some n := by
  have every : ∀ n < 64, value? (character n) = some n := by decide +kernel
  exact every n h

/-! ## Groups of four characters -/

variable {a b c d : UInt8} {i j k l : Nat}

/-- A group without padding stands for three octets. -/
theorem decode?_full (ha : value? a = some i) (hb : value? b = some j) (hc : value? c = some k)
    (hd : value? d = some l) (rest : Bytes) :
    decode? (a :: b :: c :: d :: rest) = (decode? rest).map fun more =>
      UInt8.ofNat (i * 4 + j / 16) :: UInt8.ofNat (j % 16 * 16 + k / 4) ::
        UInt8.ofNat (k % 4 * 64 + l) :: more := by
  have cNePadding : c ≠ padding := by
    rintro rfl
    cases hc
  have dNePadding : d ≠ padding := by
    rintro rfl
    cases hd
  cases rest with
  | nil => simp [decode?, ha, hb, hc, hd, cNePadding, dNePadding]
  | cons x rest =>
    rw [decode?, ha, hb, hc, hd]
    · cases decode? (x :: rest) <;> rfl
    · simp

theorem decode?_one (ha : value? a = some i) (hb : value? b = some j) (unused : j % 16 = 0) :
    decode? [a, b, padding, padding] = some [UInt8.ofNat (i * 4 + j / 16)] := by
  simp [decode?, ha, hb, unused]

theorem decode?_two (ha : value? a = some i) (hb : value? b = some j) (hc : value? c = some k)
    (unused : k % 4 = 0) :
    decode? [a, b, c, padding] =
      some [UInt8.ofNat (i * 4 + j / 16), UInt8.ofNat (j % 16 * 16 + k / 4)] := by
  have cNePadding : c ≠ padding := by
    rintro rfl
    cases hc
  simp [decode?, ha, hb, hc, cNePadding, unused]

/-- What is written in base 64 is read back. -/
@[simp] theorem decode?_encode (bytes : Bytes) : decode? (encode bytes) = some bytes := by
  induction bytes using encode.induct with
  | case1 => rfl
  | case2 x =>
    have hx := x.toNat_lt
    have first : x.toNat / 4 * 4 + x.toNat % 4 * 16 / 16 = x.toNat := by omega
    rw [encode, decode?_one (value?_character (by omega)) (value?_character (by omega)) (by omega),
      first, UInt8.ofNat_toNat]
  | case3 x y =>
    have hx := x.toNat_lt
    have hy := y.toNat_lt
    have first : x.toNat / 4 * 4 + (x.toNat % 4 * 16 + y.toNat / 16) / 16 = x.toNat := by omega
    have second : (x.toNat % 4 * 16 + y.toNat / 16) % 16 * 16 + y.toNat % 16 * 4 / 4 = y.toNat := by
      omega
    rw [encode, decode?_two (value?_character (by omega)) (value?_character (by omega))
      (value?_character (by omega)) (by omega), first, second, UInt8.ofNat_toNat, UInt8.ofNat_toNat]
  | case4 x y z rest ih =>
    have hx := x.toNat_lt
    have hy := y.toNat_lt
    have hz := z.toNat_lt
    have first : x.toNat / 4 * 4 + (x.toNat % 4 * 16 + y.toNat / 16) / 16 = x.toNat := by omega
    have second : (x.toNat % 4 * 16 + y.toNat / 16) % 16 * 16 +
        (y.toNat % 16 * 4 + z.toNat / 64) / 4 = y.toNat := by omega
    have third : (y.toNat % 16 * 4 + z.toNat / 64) % 4 * 64 + z.toNat % 64 = z.toNat := by omega
    rw [encode, decode?_full (value?_character (by omega)) (value?_character (by omega))
      (value?_character (by omega)) (value?_character (by omega)), ih, Option.map_some, first,
      second, third, UInt8.ofNat_toNat, UInt8.ofNat_toNat, UInt8.ofNat_toNat]

/-! ## The octets of a text in base 64 -/

/-- An octet of the alphabet, or the padding. -/
def IsOctet (b : UInt8) : Prop := (value? b).isSome ∨ b = padding

theorem isOctet_of_value? (h : value? a = some i) : IsOctet a := .inl (Option.isSome_of_eq_some h)

/-- The last group of a text has octets of base 64 only. -/
theorem isOctet_of_group {bytes : Bytes} (read : decode? [a, b, c, d] = some bytes) :
    ∀ x ∈ [a, b, c, d], IsOctet x := by
  obtain ⟨i, ha, read⟩ := Option.bind_eq_some_iff.1 read
  obtain ⟨j, hb, read⟩ := Option.bind_eq_some_iff.1 read
  have first : IsOctet a ∧ IsOctet b := ⟨isOctet_of_value? ha, isOctet_of_value? hb⟩
  suffices rest : IsOctet c ∧ IsOctet d by simp [first, rest]
  split at read
  · next pad =>
    split at read
    · next both => exact ⟨.inr pad, .inr both.1⟩
    · cases read
  · obtain ⟨k, hc, read⟩ := Option.bind_eq_some_iff.1 read
    refine ⟨isOctet_of_value? hc, ?_⟩
    split at read
    · next pad => exact .inr pad
    · obtain ⟨l, hd, -⟩ := Option.bind_eq_some_iff.1 read
      exact isOctet_of_value? hd

/-- A text that is read has octets of base 64 only. -/
theorem isOctet_of_decode? {text bytes : Bytes} (read : decode? text = some bytes) :
    ∀ x ∈ text, IsOctet x := by
  induction text using decode?.induct generalizing bytes with
  | case1 => simp
  | case2 a b c d => exact isOctet_of_group read
  | case3 a b c d rest more ih =>
    rw [decode?.eq_3 _ _ _ _ _ more] at read
    obtain ⟨i, ha, read⟩ := Option.bind_eq_some_iff.1 read
    obtain ⟨j, hb, read⟩ := Option.bind_eq_some_iff.1 read
    obtain ⟨k, hc, read⟩ := Option.bind_eq_some_iff.1 read
    obtain ⟨l, hd, read⟩ := Option.bind_eq_some_iff.1 read
    obtain ⟨bytes, found, -⟩ := Option.bind_eq_some_iff.1 read
    have group : IsOctet a ∧ IsOctet b ∧ IsOctet c ∧ IsOctet d :=
      ⟨isOctet_of_value? ha, isOctet_of_value? hb, isOctet_of_value? hc, isOctet_of_value? hd⟩
    simpa [group] using ih found
  | case4 t notEmpty notOne notMore =>
    rw [decode?.eq_4 _ notEmpty notOne notMore] at read
    cases read

/-- No octet of base 64 is blank. -/
theorem IsOctet.not_isBlankByte (h : IsOctet a) : Text.isBlankByte a = false := by
  rcases h with valued | rfl
  · simp only [value?] at valued
    simp only [Text.isBlankByte, Bool.or_eq_false_iff, beq_eq_false_iff_ne]
    refine ⟨⟨⟨⟨?_, ?_⟩, ?_⟩, ?_⟩, ?_⟩
    all_goals
      rintro rfl
      cases valued
  · rfl

end ErrorIntake.Base64
