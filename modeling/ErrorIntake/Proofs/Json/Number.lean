import ErrorIntake.Json.Canonical

/-!
# Printed numbers are read back

A number is read from the start of a text as far as it goes, so what it reads alone it also reads in
front of anything that could not go on with it.  The digits of an integer spell it.
-/

namespace ErrorIntake.Json

/-- The text does not go on with a number that stands before it. -/
def EndsNumber (rest : List Char) : Prop :=
  ∀ c ∈ rest.head?, Text.isDigit c = false ∧ c ≠ '.' ∧ c ≠ 'e' ∧ c ≠ 'E'

theorem endsNumber_nil : EndsNumber [] := by
  intro c member
  cases member

namespace Numeral

variable {cs rest : List Char}

/-! ## Numbers in front of other text -/

theorem readDigits_append (ends : EndsNumber rest) :
    readDigits (cs ++ rest) = ((readDigits cs).1, (readDigits cs).2 ++ rest) := by
  induction cs with
  | nil =>
    cases rest with
    | nil => rfl
    | cons c rest =>
      have stop := (ends c rfl).1
      simp [readDigits, stop]
  | cons c cs ih =>
    by_cases digit : Text.isDigit c = true
    · simp only [readDigits, List.cons_append, List.takeWhile_cons, List.dropWhile_cons, digit,
        if_true, Prod.mk.injEq] at ih ⊢
      exact ⟨by rw [ih.1], ih.2⟩
    · simp [readDigits, digit]

/-- Digits that do not begin with a zero are read as far as they go. -/
theorem readWhole_of_ne {c : Char} (nonzero : c ≠ '0') (cs : List Char) :
    readWhole (c :: cs) =
      if Text.isDigit c then some (readDigits (c :: cs)) else none := by
  rw [readWhole.eq_def]
  split
  · next heq =>
    cases heq
    exact absurd rfl nonzero
  · by_cases digit : Text.isDigit c = true
    · simp [readDigits, digit]
    · simp [readDigits, digit]

theorem readWhole_zero (ends : rest.head?.all fun c => !Text.isDigit c) :
    readWhole ('0' :: rest) = some (['0'], rest) := by
  cases rest with
  | nil => rfl
  | cons c rest =>
    have stop : Text.isDigit c = false := by simpa using ends
    simp [readWhole, stop]

theorem readWhole_append {whole more : List Char} (ends : EndsNumber rest)
    (h : readWhole cs = some (whole, more)) : readWhole (cs ++ rest) = some (whole, more ++ rest) := by
  cases cs with
  | nil => simp [readWhole, readDigits] at h
  | cons c cs =>
    by_cases zero : c = '0'
    · subst zero
      have stops : cs.head?.all fun c => !Text.isDigit c := by
        cases cs with
        | nil => rfl
        | cons c cs =>
          by_cases digit : Text.isDigit c = true
          · simp [readWhole, digit] at h
          · simpa using digit
      rw [readWhole_zero stops] at h
      obtain ⟨rfl, rfl⟩ := Prod.mk.inj (Option.some.inj h)
      refine readWhole_zero ?_
      cases cs with
      | nil =>
        cases rest with
        | nil => rfl
        | cons c rest => simpa using (ends c rfl).1
      | cons c cs => exact stops
    · rw [readWhole_of_ne zero] at h
      rw [List.cons_append, readWhole_of_ne zero, ← List.cons_append, readDigits_append ends]
      split at h
      · next digit =>
        rw [if_pos digit]
        rw [Option.some.injEq] at h
        rw [h]
      · cases h

theorem readFraction_append {fraction more : List Char} (ends : EndsNumber rest)
    (h : readFraction cs = some (fraction, more)) :
    readFraction (cs ++ rest) = some (fraction, more ++ rest) := by
  cases cs with
  | nil =>
    cases h
    cases rest with
    | nil => rfl
    | cons c rest =>
      have noPoint := (ends c rfl).2.1
      rw [List.nil_append, readFraction.eq_def]
      split
      · next heq =>
        cases heq
        exact absurd rfl noPoint
      · rfl
  | cons c cs =>
    by_cases point : c = '.'
    · subst point
      simp only [readFraction, List.cons_append, readDigits_append ends] at h ⊢
      split at h
      · cases h
      · next digits _ nonempty made =>
        cases h
        rw [made]
        split
        · next heq =>
          cases heq
          exact (nonempty rfl).elim
        · next heq =>
          cases heq
          rfl
    · have plain : ∀ cs, readFraction (c :: cs) = some ([], c :: cs) := by
        intro cs
        rw [readFraction.eq_def]
        split
        · next heq =>
          cases heq
          exact absurd rfl point
        · rfl
      rw [plain] at h
      cases h
      exact plain _

theorem readPower_append {negative : Bool} {power : Option Int} {more : List Char}
    (ends : EndsNumber rest) (h : readPower negative cs = some (power, more)) :
    readPower negative (cs ++ rest) = some (power, more ++ rest) := by
  simp only [readPower, readDigits_append ends] at h ⊢
  split at h
  · cases h
  · next digits _ nonempty made =>
    cases h
    rw [made]
    split
    · next heq =>
      cases heq
      exact (nonempty rfl).elim
    · next heq =>
      cases heq
      rfl

/-- What stands behind the mark of an exponent: perhaps a sign, and digits. -/
theorem readExponent_mark {c : Char} (mark : c = 'e' ∨ c = 'E') (cs : List Char) :
    readExponent (c :: cs) =
      match cs with
      | '+' :: cs => readPower false cs
      | '-' :: cs => readPower true cs
      | cs => readPower false cs := by
  unfold readExponent
  exact if_pos mark

theorem readExponent_none {c : Char} (noMark : ¬ (c = 'e' ∨ c = 'E')) (cs : List Char) :
    readExponent (c :: cs) = some (none, c :: cs) := by
  unfold readExponent
  dsimp only
  rw [if_neg noMark]

theorem readExponent_append {power : Option Int} {more : List Char} (ends : EndsNumber rest)
    (h : readExponent cs = some (power, more)) :
    readExponent (cs ++ rest) = some (power, more ++ rest) := by
  cases cs with
  | nil =>
    cases h
    cases rest with
    | nil => rfl
    | cons c rest => exact readExponent_none (not_or.2 (ends c rfl).2.2) rest
  | cons c cs =>
    by_cases mark : c = 'e' ∨ c = 'E'
    · rw [readExponent_mark mark] at h
      rw [List.cons_append, readExponent_mark mark]
      cases cs with
      | nil => simp [readPower, readDigits] at h
      | cons sign cs =>
        by_cases plus : sign = '+'
        · subst plus
          exact readPower_append ends h
        · by_cases minus : sign = '-'
          · subst minus
            exact readPower_append ends h
          · split at h
            · next heq =>
              cases heq
              exact absurd rfl plus
            · next heq =>
              cases heq
              exact absurd rfl minus
            · split
              · next heq =>
                cases heq
                exact absurd rfl plus
              · next heq =>
                cases heq
                exact absurd rfl minus
              · exact readPower_append ends h
    · rw [readExponent_none mark] at h
      cases h
      exact readExponent_none mark _

theorem readUnsigned_append {negative : Bool} {n : Numeral} {more : List Char}
    (ends : EndsNumber rest) (h : readUnsigned negative cs = some (n, more)) :
    readUnsigned negative (cs ++ rest) = some (n, more ++ rest) := by
  simp only [readUnsigned, Option.bind_eq_bind, Option.bind_eq_some_iff] at h ⊢
  obtain ⟨⟨whole, afterWhole⟩, readsWhole, ⟨fraction, afterFraction⟩, readsFraction,
    ⟨exponent, afterExponent⟩, readsExponent, made⟩ := h
  cases made
  exact ⟨_, readWhole_append ends readsWhole, _, readFraction_append ends readsFraction, _,
    readExponent_append ends readsExponent, rfl⟩

/-- A numeral that is read alone is read in front of text that does not go on with it. -/
theorem read_append {n : Numeral} {more : List Char} (ends : EndsNumber rest)
    (h : read cs = some (n, more)) : read (cs ++ rest) = some (n, more ++ rest) := by
  cases cs with
  | nil => simp [read, readUnsigned, readWhole, readDigits] at h
  | cons c cs =>
    by_cases minus : c = '-'
    · subst minus
      exact readUnsigned_append ends h
    · have unsigned : ∀ cs : List Char, read (c :: cs) = readUnsigned false (c :: cs) := by
        intro cs
        rw [read.eq_def]
        split
        · next heq =>
          cases heq
          exact absurd rfl minus
        · rfl
      rw [unsigned] at h
      rw [List.cons_append, unsigned, ← List.cons_append]
      exact readUnsigned_append ends h

/-- A numeral begins with its sign or with a digit. -/
theorem head_of_read {n : Numeral} {more : List Char} (h : read cs = some (n, more)) :
    ∃ c rest, cs = c :: rest ∧ (c = '-' ∨ Text.isDigit c = true) := by
  cases cs with
  | nil => simp [read, readUnsigned, readWhole, readDigits] at h
  | cons c cs =>
    refine ⟨c, cs, rfl, ?_⟩
    by_cases minus : c = '-'
    · exact .inl minus
    · by_cases digit : Text.isDigit c = true
      · exact .inr digit
      · have nonzero : c ≠ '0' := by
          rintro rfl
          exact digit rfl
        rw [read.eq_def] at h
        split at h
        · next heq =>
          cases heq
          exact absurd rfl minus
        · simp [readUnsigned, readWhole_of_ne nonzero, digit] at h

/-! ## Digits of integers -/

theorem isDigit_toDigits {n : Nat} : ∀ c ∈ Nat.toDigits 10 n, Text.isDigit c = true := by
  intro c member
  have digit := Char.isDigit_iff_toNat.1 (Nat.isDigit_of_mem_toDigits (by decide) (by decide) member)
  simp only [Text.isDigit, Bool.and_eq_true, decide_eq_true_eq]
  exact digit

theorem decimalValue_toDigits (n : Nat) : Text.decimalValue (Nat.toDigits 10 n) = n := by
  have spelled := Nat.ofDigitChars_ten_toDigits (n := n)
  rw [Nat.ofDigitChars_eq_foldl] at spelled
  rw [Text.decimalValue]
  simp only [Nat.mul_comm _ 10]
  exact spelled

/-- A number that is not zero is not written with a zero in front. -/
theorem head_toDigits {n : Nat} (positive : 0 < n) :
    ∃ c cs, Nat.toDigits 10 n = c :: cs ∧ c ≠ '0' := by
  induction n using Nat.strongRecOn with
  | ind n ih =>
    by_cases small : n < 10
    · refine ⟨n.digitChar, [], Nat.toDigits_of_lt_base small, ?_⟩
      have all : ∀ n < 10, 0 < n → Nat.digitChar n ≠ '0' := by decide
      exact all n small positive
    · obtain ⟨c, cs, digits, nonzero⟩ := ih (n / 10) (by omega) (by omega)
      refine ⟨c, cs ++ [(n % 10).digitChar], ?_, nonzero⟩
      rw [Nat.toDigits_of_base_le (by decide) (by omega), digits, List.cons_append]

theorem readDigits_of_all {digits : List Char} (all : ∀ c ∈ digits, Text.isDigit c = true) :
    readDigits digits = (digits, []) := by
  have taken : (digits ++ []).takeWhile Text.isDigit = digits ++ [].takeWhile Text.isDigit :=
    List.takeWhile_append_of_pos all
  have left : (digits ++ []).dropWhile Text.isDigit = [].dropWhile Text.isDigit :=
    List.dropWhile_append_of_pos all
  rw [List.append_nil] at taken left
  rw [readDigits, taken, left, List.takeWhile_nil, List.dropWhile_nil, List.append_nil]

theorem readWhole_toDigits (n : Nat) :
    readWhole (Nat.toDigits 10 n) = some (Nat.toDigits 10 n, []) := by
  by_cases zero : n = 0
  · subst zero
    rfl
  · obtain ⟨c, cs, digits, nonzero⟩ := head_toDigits (by omega : 0 < n)
    have all := isDigit_toDigits (n := n)
    rw [digits] at all ⊢
    rw [readWhole_of_ne nonzero, if_pos (all c List.mem_cons_self), readDigits_of_all all]

theorem readUnsigned_toDigits (negative : Bool) (n : Nat) :
    readUnsigned negative (Nat.toDigits 10 n) =
      some (⟨negative, Nat.toDigits 10 n, [], none⟩, []) := by
  simp only [readUnsigned, readWhole_toDigits, readFraction, readExponent, Option.bind_eq_bind,
    Option.bind_some]
  rfl

end Numeral

namespace Number

/-- The text of the number stands for the number. -/
def ReadsBack : Number → Prop
  | .integer n => IsSpelled n
  | .float x => ∃ n, Numeral.read (x.toText Double.jsonLayout).toList = some (n, []) ∧
      n.value? = some (.float x)

instance : DecidablePred ReadsBack
  | .integer n => inferInstanceAs (Decidable (_ ≤ n ∧ n ≤ _))
  | .float x =>
    match h : Numeral.read (x.toText Double.jsonLayout).toList with
    | some (n, []) => decidable_of_iff (n.value? = some (.float x)) (by simp [ReadsBack, h])
    | some (n, c :: cs) => .isFalse (by simp [ReadsBack, h])
    | none => .isFalse (by simp [ReadsBack, h])

/-- The numeral that the number is written as. -/
def numeral : Number → Numeral
  | .integer n => ⟨n < 0, Nat.toDigits 10 n.natAbs, [], none⟩
  | .float x =>
    match Numeral.read (x.toText Double.jsonLayout).toList with
    | some (n, _) => n
    | none => ⟨false, [], [], none⟩

theorem toList_toString (n : Int) :
    (toString n).toList =
      if n < 0 then '-' :: Nat.toDigits 10 n.natAbs else Nat.toDigits 10 n.natAbs := by
  rw [Int.toString_eq_repr, Int.repr_eq_if]
  by_cases negative : n < 0
  · have size : (-n).toNat = n.natAbs := by omega
    rw [if_neg (by omega), if_pos negative, size, String.toList_append, Nat.toList_repr]
    rfl
  · have size : n.toNat = n.natAbs := by omega
    rw [if_pos (by omega), if_neg negative, size, Nat.toList_repr]

theorem read_toString (n : Int) :
    Numeral.read (toString n).toList = some ((Number.integer n).numeral, []) := by
  rw [toList_toString]
  by_cases negative : n < 0
  · rw [if_pos negative]
    show Numeral.readUnsigned true _ = _
    rw [Numeral.readUnsigned_toDigits]
    simp [numeral, negative]
  · rw [if_neg negative]
    have unsigned : Numeral.read (Nat.toDigits 10 n.natAbs) =
        Numeral.readUnsigned false (Nat.toDigits 10 n.natAbs) := by
      rw [Numeral.read.eq_def]
      split
      · next minus =>
        have digit := Numeral.isDigit_toDigits (n := n.natAbs) '-' (by rw [minus]; simp)
        exact absurd digit (by decide)
      · rfl
    rw [unsigned, Numeral.readUnsigned_toDigits]
    simp [numeral, negative]

theorem toInt?_numeral {n : Int} (spelled : IsSpelled n) :
    (Number.integer n).numeral.toInt? = some n := by
  simp only [numeral, Numeral.toInt?, Numeral.isWhole, Numeral.decimalValue_toDigits,
    List.isEmpty_nil, Option.isNone_none, Bool.and_self, if_true, Numeral.significandLimit]
  obtain ⟨low, high⟩ := spelled
  by_cases negative : n < 0
  · rw [if_pos (by simpa using negative), if_pos (by omega)]
    congr 1
    omega
  · rw [if_neg (by simpa using negative), if_pos (by omega)]
    congr 1
    omega

theorem value?_integer {n : Int} (spelled : IsSpelled n) :
    (Number.integer n).numeral.value? = some (.integer n) := by
  rw [Numeral.value?, toInt?_numeral spelled]

/-- The text of a number is read as its numeral, which stands for the number. -/
theorem read_toText {n : Number} (h : n.ReadsBack) :
    Numeral.read n.toText.toList = some (n.numeral, []) ∧ n.numeral.value? = some n := by
  cases n with
  | integer n => exact ⟨read_toString n, value?_integer h⟩
  | float x =>
    obtain ⟨n, reads, stands⟩ := h
    have same : (Number.float x).numeral = n := by simp only [numeral, reads]
    rw [same]
    exact ⟨reads, stands⟩

end Number

end ErrorIntake.Json
