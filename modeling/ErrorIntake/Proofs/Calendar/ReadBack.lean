import ErrorIntake.Calendar.Reading
import ErrorIntake.Proofs.Calendar.Days
import ErrorIntake.Proofs.Json.Spelling
import ErrorIntake.Proofs.Text.Blank

/-!
# Instants read back

The text of an instant is in the layout that instants are read in, years with a sign and leap
seconds included.  Each reader is shown to take from the start of a text what stands there for its
part, whatever follows; the reader of instants is those readers in a row.
-/

namespace ErrorIntake

/-! ## Numbers with zeros in front -/

namespace Text

theorem toList_padded (width n : Nat) :
    (padded width n).toList =
      List.replicate (width - (Nat.toDigits 10 n).length) '0' ++ Nat.toDigits 10 n := by
  rw [padded, String.toList_ofList, Nat.toList_repr]

theorem isDigit_padded {width n : Nat} : ∀ c ∈ (padded width n).toList, isDigit c = true := by
  intro c member
  rw [toList_padded] at member
  rcases List.mem_append.1 member with zero | digit
  · rw [List.eq_of_mem_replicate zero]
    rfl
  · exact Json.Numeral.isDigit_toDigits c digit

/-- Zeros in front do not count. -/
theorem decimalValue_padded (width n : Nat) : decimalValue (padded width n).toList = n := by
  have zeros : ∀ k, (List.replicate k '0').foldl (fun n c => n * 10 + digitValue c) 0 = 0 := by
    intro k
    induction k with
    | zero => rfl
    | succ k ih => exact ih
  rw [toList_padded, decimalValue, List.foldl_append, zeros]
  exact Json.Numeral.decimalValue_toDigits n

theorem length_padded {width n : Nat} (positive : 0 < width) (fits : n < Nat.pow 10 width) :
    (padded width n).toList.length = width := by
  have short := (Nat.length_toDigits_le_iff (by decide) positive).2 fits
  rw [toList_padded, List.length_append, List.length_replicate]
  omega

theorem padded_ne_nil (width n : Nat) : (padded width n).toList ≠ [] := by
  rw [toList_padded]
  simp [Nat.toDigits_ne_nil]

end Text

namespace Calendar

open Json.Numeral (EndsDigits)
open Text (isDigit padded trimStart)

/-! ## Readers in front of other text -/

variable {cs digits rest : List Char} {most : Nat}

theorem endsDigits_cons {c : Char} (mark : isDigit c = false) : EndsDigits (c :: rest) := by
  rintro _ ⟨⟩
  exact mark

/-- Digits are taken as far as they go, or as many as may be taken. -/
theorem splitDigits_append (all : ∀ c ∈ digits, isDigit c = true) (few : digits.length ≤ most)
    (ends : digits.length = most ∨ EndsDigits rest) :
    splitDigits most (digits ++ rest) = (digits, rest) := by
  induction digits generalizing most with
  | nil =>
    cases most with
    | zero => rfl
    | succ most =>
      have ends := ends.resolve_left (Nat.succ_ne_zero most).symm
      cases rest with
      | nil => rfl
      | cons c rest =>
        have mark := ends c rfl
        simp [splitDigits, mark]
  | cons c digits ih =>
    cases most with
    | zero => cases few
    | succ most =>
      have taken := ih (fun d member => all d (List.mem_cons_of_mem _ member))
        (Nat.le_of_succ_le_succ few) (ends.imp_left Nat.succ.inj)
      rw [List.cons_append, splitDigits, if_pos (all c List.mem_cons_self), taken]

theorem readNumber_append (nonempty : digits ≠ []) (all : ∀ c ∈ digits, isDigit c = true)
    (few : digits.length ≤ most) (ends : digits.length = most ∨ EndsDigits rest) :
    readNumber most (digits ++ rest) = some (Text.decimalValue digits, rest) := by
  rw [readNumber, splitDigits_append all few ends]
  split
  · next h =>
    cases h
    exact absurd rfl nonempty
  · next h =>
    cases h
    rfl

/-- Nothing is trimmed in front of a character that is not blank. -/
theorem trimStart_cons {c : Char} (mark : Text.isBlank c = false) (cs : List Char) :
    trimStart (c :: cs) = c :: cs := by
  rw [trimStart, List.dropWhile_cons_of_neg (by simp [mark])]

theorem trimStart_digits (nonempty : digits ≠ []) (all : ∀ c ∈ digits, isDigit c = true) :
    trimStart (digits ++ rest) = digits ++ rest := by
  cases digits with
  | nil => exact absurd rfl nonempty
  | cons c digits => exact trimStart_cons (Text.isBlank_of_isDigit (all c List.mem_cons_self)) _

/-- A number of full width is read as it is written. -/
theorem readPart_padded {width n : Nat} (positive : 0 < width) (fits : n < Nat.pow 10 width)
    (rest : List Char) : readPart width ((padded width n).toList ++ rest) = some (n, rest) := by
  have length := Text.length_padded positive fits
  rw [readPart, trimStart_digits (Text.padded_ne_nil _ _) Text.isDigit_padded,
    readNumber_append (Text.padded_ne_nil _ _) Text.isDigit_padded (Nat.le_of_eq length)
      (.inl length), Text.decimalValue_padded]

theorem readYear_minus (cs : List Char) :
    readYear ('-' :: cs) = (readNumber cs.length cs).map fun (n, rest) => (-(n : Int), rest) := by
  rw [readYear, trimStart_cons (by decide)]
  rfl

theorem readYear_plus (cs : List Char) :
    readYear ('+' :: cs) = (readNumber cs.length cs).map fun (n, rest) => ((n : Int), rest) := by
  rw [readYear, trimStart_cons (by decide)]
  rfl

theorem readYear_digits (nonempty : digits ≠ []) (all : ∀ c ∈ digits, isDigit c = true)
    (rest : List Char) :
    readYear (digits ++ rest) =
      (readNumber 4 (digits ++ rest)).map fun (n, rest) => ((n : Int), rest) := by
  rw [readYear, trimStart_digits nonempty all]
  cases digits with
  | nil => exact absurd rfl nonempty
  | cons c digits =>
    have digit := all c List.mem_cons_self
    rw [List.cons_append]
    split
    · next same =>
      cases same
      cases digit
    · next same =>
      cases same
      cases digit
    · rfl

/-- A year is read as it is written, in front of a dash. -/
theorem readYear_yearText (year : Int) (rest : List Char) :
    readYear ((Instant.yearText year).toList ++ '-' :: rest) = some (year, '-' :: rest) := by
  have dash : EndsDigits ('-' :: rest) := endsDigits_cons rfl
  have signed : ∀ n, readNumber ((padded 4 n).toList ++ '-' :: rest).length
      ((padded 4 n).toList ++ '-' :: rest) = some (n, '-' :: rest) := by
    intro n
    rw [readNumber_append (Text.padded_ne_nil _ _) Text.isDigit_padded (by simp) (.inr dash),
      Text.decimalValue_padded]
  unfold Instant.yearText
  by_cases positive : 0 ≤ year
  · have size : (year.toNat : Int) = year := Int.toNat_of_nonneg positive
    rw [if_pos positive]
    by_cases short : year ≤ 9999
    · have four : year.toNat < 10000 := by omega
      have width : (padded 4 year.toNat).toList.length = 4 :=
        Text.length_padded (by decide) four
      rw [if_pos short, readYear_digits (Text.padded_ne_nil _ _) Text.isDigit_padded,
        readNumber_append (Text.padded_ne_nil _ _) Text.isDigit_padded (Nat.le_of_eq width)
          (.inl width), Text.decimalValue_padded]
      exact congrArg (fun year => some (year, '-' :: rest)) size
    · have text : ("+" ++ padded 4 year.toNat).toList = '+' :: (padded 4 year.toNat).toList :=
        String.toList_append
      rw [if_neg short, text, List.cons_append, readYear_plus, signed]
      exact congrArg (fun year => some (year, '-' :: rest)) size
  · have text : ("-" ++ padded 4 year.natAbs).toList = '-' :: (padded 4 year.natAbs).toList :=
      String.toList_append
    have size : -(year.natAbs : Int) = year := by omega
    rw [if_neg positive, text, List.cons_append, readYear_minus, signed]
    exact congrArg (fun year => some (year, '-' :: rest)) size

theorem readFraction_digits (nonempty : digits ≠ []) (all : ∀ c ∈ digits, isDigit c = true)
    (few : digits.length ≤ 9) (ends : EndsDigits rest) :
    readFraction ('.' :: (digits ++ rest)) =
      some (Text.decimalValue digits * Nat.pow 10 (9 - digits.length), rest) := by
  have stop : rest.dropWhile isDigit = rest := by
    cases rest with
    | nil => rfl
    | cons c rest => exact List.dropWhile_cons_of_neg (by simp [ends c rfl])
  simp only [readFraction, splitDigits_append all few (.inr ends)]
  rw [stop]

/-- Digits behind a point are a fraction with zeros behind them. -/
theorem readFraction_padded {width n : Nat} (positive : 0 < width) (most : width ≤ 9)
    (fits : n < Nat.pow 10 width) (ends : EndsDigits rest) :
    readFraction (("." ++ padded width n).toList ++ rest) =
      some (n * Nat.pow 10 (9 - width), rest) := by
  have length := Text.length_padded positive fits
  have text : ("." ++ padded width n).toList = '.' :: (padded width n).toList :=
    String.toList_append
  rw [text, List.cons_append, readFraction_digits (Text.padded_ne_nil _ _) Text.isDigit_padded
    (Nat.le_trans (Nat.le_of_eq length) most) ends, Text.decimalValue_padded, length]

/-- A fraction is read as it is written, in front of what does not begin with a digit or a point. -/
theorem readFraction_fractionText {nano : Nat} (fits : nano < nanosPerSecond)
    (ends : EndsDigits rest) (point : rest.head? ≠ some '.') :
    readFraction ((Instant.fractionText nano).toList ++ rest) = some (nano, rest) := by
  have fits : nano < 1000000000 := fits
  unfold Instant.fractionText
  by_cases zero : nano = 0
  · rw [if_pos zero, zero]
    show readFraction rest = _
    unfold readFraction
    split
    · exact absurd rfl point
    · rfl
  · rw [if_neg zero]
    by_cases millis : nano % 1000000 = 0
    · have whole : nano / 1000000 * 1000000 = nano := by omega
      have three : nano / 1000000 < 1000 := by omega
      rw [if_pos millis, readFraction_padded (by decide) (by decide) three ends]
      exact congrArg (fun nano => some (nano, rest)) whole
    · rw [if_neg millis]
      by_cases micros : nano % 1000 = 0
      · have whole : nano / 1000 * 1000 = nano := by omega
        have six : nano / 1000 < 1000000 := by omega
        rw [if_pos micros, readFraction_padded (by decide) (by decide) six ends]
        exact congrArg (fun nano => some (nano, rest)) whole
      · rw [if_neg micros, readFraction_padded (by decide) (by decide) fits ends]
        exact congrArg (fun nano => some (nano, rest)) (Nat.mul_one nano)

theorem readMark_cons (mark : Char) (cs : List Char) : readMark mark (mark :: cs) = some cs := by
  rw [readMark, if_pos rfl]

/-- A date is read as it is written. -/
theorem readDate_text {d : Date} (month : d.month < 100) (day : d.day < 100) (rest : List Char) :
    readDate trimStart ((Instant.yearText d.year).toList ++ '-' ::
      ((padded 2 d.month).toList ++ '-' :: ((padded 2 d.day).toList ++ rest))) =
      some (d, rest) := by
  have dash : Text.isBlank '-' = false := by decide
  simp only [readDate, readYear_yearText, Option.bind_eq_bind, Option.bind_some,
    trimStart_cons dash, readMark_cons, readPart_padded (by decide : 0 < 2) month,
    readPart_padded (by decide : 0 < 2) day]
  rfl

/-- A time of day is read as it is written, in front of `Z`. -/
theorem readTime_text {s : Stamp} (hour : s.hour < 100) (minute : s.minute < 100)
    (second : s.second < 100) (nano : s.nano < nanosPerSecond) :
    readTime trimStart s.date ((padded 2 s.hour).toList ++ ':' ::
      ((padded 2 s.minute).toList ++ ':' ::
        ((padded 2 s.second).toList ++ ((Instant.fractionText s.nano).toList ++ ['Z'])))) =
      some (s, ['Z']) := by
  have colon : Text.isBlank ':' = false := by decide
  have zulu : EndsDigits ['Z'] := endsDigits_cons rfl
  simp only [readTime, readPart_padded (by decide : 0 < 2) hour,
    readPart_padded (by decide : 0 < 2) minute, readPart_padded (by decide : 0 < 2) second,
    Option.bind_eq_bind, Option.bind_some, trimStart_cons colon, readMark_cons,
    readFraction_fractionText nano zulu (by decide)]
  rfl

namespace Instant

/-! ## Instants and their stamps -/

/-- What holds of every instant that is read: it is on a day that dates can have, and a leap second
    stands behind the last second of a minute. -/
structure IsCanonical (t : Instant) : Prop where
  inRange : t.isInRange = true
  nano_lt : t.nano < 2 * nanosPerSecond
  leap : nanosPerSecond ≤ t.nano → t.second % 60 = 59

variable {t : Instant}

/-- The second of the day that an instant is in. -/
def secondOfDay (t : Instant) : Nat := (t.second % secondsPerDay).toNat

theorem secondOfDay_spec (t : Instant) :
    t.second = t.second / secondsPerDay * secondsPerDay + t.secondOfDay ∧
      t.secondOfDay < 86400 := by
  simp only [secondOfDay, secondsPerDay]
  omega

theorem toStamp_eq (t : Instant) :
    t.toStamp = ⟨Date.ofDays (t.second / secondsPerDay), t.secondOfDay / 3600,
      t.secondOfDay / 60 % 60, t.secondOfDay % 60 + (if nanosPerSecond ≤ t.nano then 1 else 0),
      t.nano % nanosPerSecond⟩ := rfl

/-- The stamp of an instant names it. -/
theorem toInstant_toStamp (h : t.IsCanonical) : t.toStamp.toInstant = t := by
  obtain ⟨split, below⟩ := t.secondOfDay_spec
  have leap := h.leap
  have bound := h.nano_lt
  have day := Date.toDays_ofDays (t.second / secondsPerDay)
  rw [toStamp_eq, Stamp.toInstant]
  by_cases late : nanosPerSecond ≤ t.nano
  · have last : t.secondOfDay % 60 = 59 := by
      have last := leap late
      simp only [secondsPerDay] at split
      omega
    have parts : t.secondOfDay / 3600 * 3600 + t.secondOfDay / 60 % 60 * 60 + 59 =
        t.secondOfDay := by omega
    have nano : t.nano % nanosPerSecond + nanosPerSecond = t.nano := by
      rw [Nat.mod_eq_sub_mod late, Nat.mod_eq_of_lt (by omega)]
      omega
    simp only [day, late, if_true, last, beq_self_eq_true, parts, nano]
    rw [← split]
  · have short : (t.secondOfDay % 60 == 60) = false := beq_false_of_ne (by omega)
    have parts : t.secondOfDay / 3600 * 3600 + t.secondOfDay / 60 % 60 * 60 + t.secondOfDay % 60 =
        t.secondOfDay := by omega
    simp only [day, late, if_false, short, Bool.false_eq_true, Nat.add_zero, parts,
      Nat.mod_eq_of_lt (Nat.not_le.1 late)]
    rw [← split]

theorem isValid_toStamp (h : t.IsCanonical) : t.toStamp.isValid = true := by
  obtain ⟨-, below⟩ := t.secondOfDay_spec
  have range := h.inRange
  simp only [isInRange, Bool.and_eq_true, decide_eq_true_eq] at range
  have date := Date.isValid_ofDays range.1 range.2
  have second : t.secondOfDay % 60 + (if nanosPerSecond ≤ t.nano then 1 else 0) ≤ 60 := by
    split <;> omega
  have nano : t.nano % nanosPerSecond < nanosPerSecond := Nat.mod_lt _ (by decide)
  rw [toStamp_eq, Stamp.isValid]
  simp only [date, Bool.and_eq_true, decide_eq_true_eq, true_and]
  exact ⟨⟨⟨by omega, by omega⟩, second⟩, nano⟩

theorem toList_toText (t : Instant) :
    t.toText.toList =
      (yearText t.toStamp.date.year).toList ++ '-' ::
        ((padded 2 t.toStamp.date.month).toList ++ '-' ::
          ((padded 2 t.toStamp.date.day).toList ++ 'T' :: ((padded 2 t.toStamp.hour).toList ++ ':' ::
            ((padded 2 t.toStamp.minute).toList ++ ':' :: ((padded 2 t.toStamp.second).toList ++
              ((fractionText t.toStamp.nano).toList ++ ['Z'])))))) := by
  simp [toText]

/-- An instant is read as it is written. -/
theorem ofOffsetText?_toText (h : t.IsCanonical) : ofOffsetText? t.toText = some t := by
  have valid := isValid_toStamp h
  have named := toInstant_toStamp h
  generalize stamp : t.toStamp = s at valid named
  obtain ⟨⟨⟨⟨date, hour⟩, minute⟩, second⟩, nano⟩ :
      (((s.date.isValid = true ∧ s.hour ≤ 23) ∧ s.minute ≤ 59) ∧ s.second ≤ 60) ∧
        s.nano < nanosPerSecond := by
    simpa only [Stamp.isValid, Bool.and_eq_true, decide_eq_true_eq] using valid
  obtain ⟨month, day⟩ := Date.two_digits_of_isValid date
  have isDate := readDate_text month day
    ('T' :: ((padded 2 s.hour).toList ++ ':' :: ((padded 2 s.minute).toList ++ ':' ::
      ((padded 2 s.second).toList ++ ((fractionText s.nano).toList ++ ['Z'])))))
  have isTime := readTime_text (s := s) (by omega) (by omega) (by omega) nano
  have offset : readOffset (trimStart ['Z']) = some (0, []) := by decide
  rw [ofOffsetText?, toList_toText, stamp]
  have unchanged : s.toInstant.minusSeconds 0 = t := by
    rw [named, minusSeconds, Int.sub_zero]
  simp only [isDate, readSeparator, isTime, offset, Option.bind_eq_bind, Option.bind_some, valid,
    unchanged, h.inRange]
  rfl

/-- Offsets are whole minutes. -/
theorem readOffset_minutes {cs rest : List Char} {offset : Int}
    (read : readOffset cs = some (offset, rest)) : offset % 60 = 0 := by
  have body : ∀ {cs rest n}, readOffsetBody cs = some (n, rest) → n % 60 = 0 := by
    intro cs rest n read
    obtain ⟨⟨hours, after⟩, -, read⟩ := Option.bind_eq_some_iff.1 read
    obtain ⟨⟨minutes, last⟩, -, read⟩ := Option.bind_eq_some_iff.1 read
    dsimp only at read
    split at read
    · cases read
      omega
    · cases read
  have behindSign : ∀ {cs} (sign : Nat → Int), (∀ n, n % 60 = 0 → sign n % 60 = 0) →
      (readOffsetBody cs).map (fun (n, rest) => (sign n, rest)) = some (offset, rest) →
      offset % 60 = 0 := by
    intro cs sign minutes read
    obtain ⟨⟨n, _⟩, found, same⟩ := Option.map_eq_some_iff.1 read
    cases same
    exact minutes n (body found)
  have signed : ∀ {cs}, readOffset.signed cs = some (offset, rest) → offset % 60 = 0 := by
    intro cs read
    unfold readOffset.signed at read
    split at read
    · cases read
      rfl
    · cases read
      rfl
    · exact behindSign (fun n => n) (by omega) read
    · exact behindSign (fun n => -n) (by omega) read
    · exact behindSign (fun n => -n) (by omega) read
    · cases read
  unfold readOffset at read
  split at read
  · split at read
    · cases read
      rfl
    · exact signed read
  · exact signed read

/-- What is read is canonical. -/
theorem isCanonical_of_ofOffsetText? {text : String} (read : ofOffsetText? text = some t) :
    t.IsCanonical := by
  obtain ⟨⟨date, cs⟩, -, read⟩ := Option.bind_eq_some_iff.1 read
  obtain ⟨cs, -, read⟩ := Option.bind_eq_some_iff.1 read
  obtain ⟨⟨s, cs⟩, -, read⟩ := Option.bind_eq_some_iff.1 read
  obtain ⟨⟨offset, cs⟩, isOffset, read⟩ := Option.bind_eq_some_iff.1 read
  dsimp only at read
  split at read
  · next accepted =>
    split at read
    · next inRange =>
      cases read
      have minutes := readOffset_minutes isOffset
      simp only [Stamp.isValid, Bool.and_eq_true, decide_eq_true_eq] at accepted
      obtain ⟨⟨-, ⟨-, second⟩, nano⟩, -⟩ := accepted
      refine ⟨inRange, ?_, fun late => ?_⟩
      · simp only [minusSeconds, Stamp.toInstant]
        split <;> omega
      · simp only [minusSeconds, Stamp.toInstant, secondsPerDay] at late ⊢
        split at late
        · next leap =>
          simp only [leap, if_true]
          omega
        · omega
    · cases read
  · cases read

end Instant

end Calendar

end ErrorIntake
