import ErrorIntake.Proofs.Json.Suffix
import ErrorIntake.Proofs.Json.Text

/-!
# How literals and numerals are spelled

What stands between the quotes of a string, which characters it means, and how a numeral is written,
said without a reader.  The readers of both read what is spelled so, and nothing else.
-/

namespace ErrorIntake.Json

/-! ## Literals -/

namespace Literal

/-- The characters between two quotes spell a literal. -/
inductive Spells : List Char → Literal → Prop
  | nil : Spells [] []
  | plain {c : Char} {cs : List Char} {l : Literal} (visible : 0x20 ≤ c.toNat) (quote : c ≠ '"')
      (backslash : c ≠ '\\') (further : Spells cs l) : Spells (c :: cs) (.char c :: l)
  | escape {e c : Char} {cs : List Char} {l : Literal} (stands : escaped? e = some c)
      (further : Spells cs l) : Spells ('\\' :: e :: cs) (.char c :: l)
  | unit {a b c d : Char} {code : Nat} {cs : List Char} {l : Literal}
      (stands : hexQuad? a b c d = some code) (further : Spells cs l) :
      Spells ('\\' :: 'u' :: a :: b :: c :: d :: cs) (.unit code :: l)

/-- The characters of a literal, where surrogates stand in pairs. -/
inductive Means : Literal → List Char → Prop
  | nil : Means [] []
  | char {c : Char} {l : Literal} {cs : List Char} (further : Means l cs) :
      Means (.char c :: l) (c :: cs)
  | unit {code : Nat} {l : Literal} {cs : List Char} (high : isHighSurrogate code = false)
      (low : isLowSurrogate code = false) (further : Means l cs) :
      Means (.unit code :: l) (Char.ofNat code :: cs)
  | pair {high low : Nat} {l : Literal} {cs : List Char} (isHigh : isHighSurrogate high)
      (isLow : isLowSurrogate low) (further : Means l cs) :
      Means (.unit high :: .unit low :: l) (ofPair high low :: cs)

variable {cs text rest : List Char} {l : Literal}

theorem spells_of_read (found : read cs = some (l, rest)) :
    ∃ text, cs = text ++ '"' :: rest ∧ Spells text l := by
  fun_induction read cs generalizing l rest with
  | case1 => cases found
  | case2 cs =>
    cases found
    exact ⟨[], rfl, .nil⟩
  | case3 a b c d cs ih =>
    obtain ⟨code, stands, found⟩ := Option.bind_eq_some_iff.1 found
    obtain ⟨⟨pieces, left⟩, further, found⟩ := Option.bind_eq_some_iff.1 found
    cases found
    obtain ⟨text, rfl, spelled⟩ := ih further
    exact ⟨_, rfl, .unit stands spelled⟩
  | case4 e cs _ ih =>
    obtain ⟨c, stands, found⟩ := Option.bind_eq_some_iff.1 found
    obtain ⟨⟨pieces, left⟩, further, found⟩ := Option.bind_eq_some_iff.1 found
    cases found
    obtain ⟨text, rfl, spelled⟩ := ih further
    exact ⟨_, rfl, .escape stands spelled⟩
  | case5 => cases found
  | case6 c cs quote _ _ plain ih =>
    obtain ⟨⟨pieces, left⟩, further, found⟩ := Option.bind_eq_some_iff.1 found
    cases found
    obtain ⟨text, rfl, spelled⟩ := ih further
    obtain ⟨visible, backslash⟩ := not_or.1 plain
    exact ⟨_, rfl, .plain (Nat.le_of_not_lt visible) quote backslash spelled⟩

theorem read_of_spells (spelled : Spells text l) (rest : List Char) :
    read (text ++ '"' :: rest) = some (l, rest) := by
  induction spelled with
  | nil => rw [List.nil_append, read]
  | plain visible quote backslash _ ih =>
    rw [List.cons_append, read_plain quote backslash (Nat.not_lt.2 visible), ih]
    rfl
  | escape stands _ ih =>
    rw [List.cons_append, List.cons_append, read_escape stands, ih]
    rfl
  | unit stands _ ih =>
    simp only [List.cons_append]
    rw [read, stands, ih]
    rfl

theorem chars?_eq_some_iff : chars? l = some cs ↔ Means l cs := by
  constructor
  · intro found
    fun_induction chars? l generalizing cs with
    | case1 =>
      cases found
      exact .nil
    | case2 c l ih =>
      obtain ⟨more, further, rfl⟩ := Option.map_eq_some_iff.1 found
      exact .char (ih further)
    | case3 high low l isHigh isLow ih =>
      obtain ⟨more, further, rfl⟩ := Option.map_eq_some_iff.1 found
      exact .pair isHigh isLow (ih further)
    | case4 => cases found
    | case5 => cases found
    | case6 code low l notHigh notLow ih =>
      obtain ⟨more, further, rfl⟩ := Option.map_eq_some_iff.1 found
      exact .unit (by simpa using notHigh) (by simpa using notLow) (ih further)
    | case7 => cases found
    | case8 code l _ single ih =>
      obtain ⟨more, further, rfl⟩ := Option.map_eq_some_iff.1 found
      obtain ⟨notHigh, notLow⟩ : isHighSurrogate code = false ∧ isLowSurrogate code = false := by
        simpa using single
      exact .unit notHigh notLow (ih further)
  · intro meant
    induction meant with
    | nil => rfl
    | char _ ih => rw [chars?_char, ih, Option.map_some]
    | unit high low _ ih => rw [chars?_single high low, ih, Option.map_some]
    | pair isHigh isLow _ ih => rw [chars?, if_pos isHigh, if_pos isLow, ih, Option.map_some]

theorem text?_eq_some_iff {s : String} : text? l = some s ↔ Means l s.toList := by
  rw [text?, Option.map_eq_some_iff]
  constructor
  · rintro ⟨cs, found, rfl⟩
    rw [String.toList_ofList]
    exact chars?_eq_some_iff.1 found
  · intro meant
    exact ⟨s.toList, chars?_eq_some_iff.2 meant, String.ofList_toList⟩

theorem Spells.length_le (spelled : Spells text l) : l.length ≤ text.length := by
  induction spelled with
  | nil => exact Nat.le_refl 0
  | plain _ _ _ _ ih => exact Nat.succ_le_succ ih
  | escape _ _ ih =>
    simp only [List.length_cons]
    omega
  | unit _ _ ih =>
    simp only [List.length_cons]
    omega

theorem Means.length_le (meant : Means l cs) : cs.length ≤ l.length := by
  induction meant with
  | nil => exact Nat.le_refl 0
  | char _ ih => exact Nat.succ_le_succ ih
  | unit _ _ _ ih => exact Nat.succ_le_succ ih
  | pair _ _ _ ih =>
    simp only [List.length_cons]
    omega

end Literal

/-! ## Numerals -/

namespace Numeral

/-- Decimal digits, at least one. -/
def IsDigits (cs : List Char) : Prop := cs ≠ [] ∧ ∀ c ∈ cs, Text.isDigit c

/-- Digits before the point: a zero stands alone or not in front. -/
def IsWholePart (cs : List Char) : Prop := IsDigits cs ∧ (cs.head? = some '0' → cs = ['0'])

/-- Perhaps a point with digits behind it. -/
inductive SpellsFraction : List Char → List Char → Prop
  | none : SpellsFraction [] []
  | point {digits : List Char} (are : IsDigits digits) : SpellsFraction ('.' :: digits) digits

/-- Perhaps a mark with digits behind it, which may have a sign. -/
inductive SpellsExponent : List Char → Option Int → Prop
  | none : SpellsExponent [] none
  | unsigned {mark : Char} {digits : List Char} (isMark : mark = 'e' ∨ mark = 'E')
      (are : IsDigits digits) :
      SpellsExponent (mark :: digits) (some (Text.decimalValue digits))
  | plus {mark : Char} {digits : List Char} (isMark : mark = 'e' ∨ mark = 'E')
      (are : IsDigits digits) :
      SpellsExponent (mark :: '+' :: digits) (some (Text.decimalValue digits))
  | minus {mark : Char} {digits : List Char} (isMark : mark = 'e' ∨ mark = 'E')
      (are : IsDigits digits) :
      SpellsExponent (mark :: '-' :: digits) (some (-(Text.decimalValue digits : Int)))

/-- The characters spell a numeral: perhaps a minus, digits, perhaps a fraction and an exponent. -/
def Spells (text : List Char) (n : Numeral) : Prop :=
  ∃ point power, text = (if n.negative then ['-'] else []) ++ (n.whole ++ (point ++ power)) ∧
    IsWholePart n.whole ∧ SpellsFraction point n.fraction ∧ SpellsExponent power n.exponent

variable {cs text rest digits : List Char}

/-! ### What is read is spelled so -/

theorem spells_of_readDigits (found : readDigits cs = (digits, rest)) :
    cs = digits ++ rest ∧ ∀ c ∈ digits, Text.isDigit c := by
  cases found
  exact ⟨List.takeWhile_append_dropWhile.symm, fun c member => List.mem_takeWhile_imp member⟩

theorem spells_of_readWhole (found : readWhole cs = some (digits, rest)) :
    cs = digits ++ rest ∧ IsWholePart digits := by
  cases cs with
  | nil => simp [readWhole, readDigits] at found
  | cons c cs =>
    by_cases zero : c = '0'
    · subst zero
      have alone : digits = ['0'] ∧ rest = cs := by
        unfold readWhole at found
        split at found
        · next same =>
          cases same
          split at found
          · split at found
            · cases found
            · cases found
              exact ⟨rfl, rfl⟩
          · cases found
            exact ⟨rfl, rfl⟩
        · next other => exact absurd rfl (other cs)
      obtain ⟨rfl, rfl⟩ := alone
      refine ⟨rfl, ⟨by simp, ?_⟩, fun _ => rfl⟩
      intro c member
      rw [List.mem_singleton.1 member]
      rfl
    · rw [readWhole_of_ne zero] at found
      split at found
      · next digit =>
        obtain ⟨text, are⟩ := spells_of_readDigits (Option.some.inj found)
        cases digits with
        | nil =>
          have taken := congrArg Prod.fst (Option.some.inj found)
          simp [readDigits, digit] at taken
        | cons d digits =>
          cases text
          refine ⟨rfl, ⟨by simp, are⟩, fun first => ?_⟩
          exact absurd (Option.some.inj first) zero
      · cases found

theorem spells_of_readFraction (found : readFraction cs = some (digits, rest)) :
    ∃ text, cs = text ++ rest ∧ SpellsFraction text digits := by
  unfold readFraction at found
  split at found
  · split at found
    · cases found
    · next some made =>
      cases found
      obtain ⟨text, are⟩ := spells_of_readDigits made
      exact ⟨'.' :: digits, by rw [text]; rfl, .point ⟨fun none => some none, are⟩⟩
  · cases found
    exact ⟨[], rfl, .none⟩

theorem spells_of_readPower {negative : Bool} {power : Option Int}
    (found : readPower negative cs = some (power, rest)) :
    ∃ digits, cs = digits ++ rest ∧ IsDigits digits ∧
      power = some (if negative then -(Text.decimalValue digits : Int)
        else Text.decimalValue digits) := by
  unfold readPower at found
  split at found
  · cases found
  · next some made =>
    cases found
    obtain ⟨text, are⟩ := spells_of_readDigits made
    exact ⟨_, text, ⟨fun none => some none, are⟩, rfl⟩

theorem spells_of_readExponent {power : Option Int}
    (found : readExponent cs = some (power, rest)) :
    ∃ text, cs = text ++ rest ∧ SpellsExponent text power := by
  unfold readExponent at found
  split at found
  · next mark cs =>
    split at found
    · next isMark =>
      split at found
      · obtain ⟨digits, rfl, are, rfl⟩ := spells_of_readPower found
        exact ⟨_, rfl, .plus isMark are⟩
      · obtain ⟨digits, rfl, are, rfl⟩ := spells_of_readPower found
        exact ⟨_, rfl, .minus isMark are⟩
      · obtain ⟨digits, rfl, are, rfl⟩ := spells_of_readPower found
        exact ⟨_, rfl, .unsigned isMark are⟩
    · cases found
      exact ⟨[], rfl, .none⟩
  · cases found
    exact ⟨[], rfl, .none⟩

theorem spells_of_readUnsigned {negative : Bool} {n : Numeral}
    (found : readUnsigned negative cs = some (n, rest)) :
    n.negative = negative ∧ ∃ point power, cs = n.whole ++ (point ++ power) ++ rest ∧
      IsWholePart n.whole ∧ SpellsFraction point n.fraction ∧ SpellsExponent power n.exponent := by
  obtain ⟨⟨whole, behind⟩, isWhole, found⟩ := Option.bind_eq_some_iff.1 found
  obtain ⟨⟨fraction, behind'⟩, isFraction, found⟩ := Option.bind_eq_some_iff.1 found
  obtain ⟨⟨exponent, last⟩, isExponent, found⟩ := Option.bind_eq_some_iff.1 found
  cases found
  obtain ⟨rfl, wholePart⟩ := spells_of_readWhole isWhole
  obtain ⟨point, rfl, fractionPart⟩ := spells_of_readFraction isFraction
  obtain ⟨power, rfl, exponentPart⟩ := spells_of_readExponent isExponent
  exact ⟨rfl, point, power, by simp, wholePart, fractionPart, exponentPart⟩

theorem spells_of_read {n : Numeral} (found : read cs = some (n, rest)) :
    ∃ text, cs = text ++ rest ∧ Spells text n := by
  unfold read at found
  split at found
  · obtain ⟨sign, point, power, rfl, parts⟩ := spells_of_readUnsigned found
    exact ⟨'-' :: (n.whole ++ (point ++ power)), rfl, point, power, by simp [sign], parts⟩
  · obtain ⟨sign, point, power, rfl, parts⟩ := spells_of_readUnsigned found
    exact ⟨n.whole ++ (point ++ power), rfl, point, power, by simp [sign], parts⟩

/-! ### What is spelled so is read -/

/-- The text does not begin with a digit. -/
def EndsDigits (rest : List Char) : Prop := ∀ c ∈ rest.head?, Text.isDigit c = false

theorem readDigits_front (are : ∀ c ∈ digits, Text.isDigit c) (ends : EndsDigits rest) :
    readDigits (digits ++ rest) = (digits, rest) := by
  have stop : rest.takeWhile Text.isDigit = [] ∧ rest.dropWhile Text.isDigit = rest := by
    cases rest with
    | nil => exact ⟨rfl, rfl⟩
    | cons c rest =>
      have stop := ends c rfl
      simp [stop]
  rw [readDigits, List.takeWhile_append_of_pos are, List.dropWhile_append_of_pos are, stop.1,
    stop.2, List.append_nil]

theorem readWhole_front (isWhole : IsWholePart digits) (ends : EndsDigits rest) :
    readWhole (digits ++ rest) = some (digits, rest) := by
  obtain ⟨⟨some, are⟩, zeros⟩ := isWhole
  cases digits with
  | nil => exact absurd rfl some
  | cons c digits =>
    by_cases zero : c = '0'
    · subst zero
      obtain ⟨-, rfl⟩ := List.cons.inj (zeros rfl)
      refine readWhole_zero ?_
      cases rest with
      | nil => rfl
      | cons d rest => simpa using ends d rfl
    · rw [List.cons_append, readWhole_of_ne zero, if_pos (are c List.mem_cons_self),
        ← List.cons_append, readDigits_front are ends]

theorem readFraction_front (spelled : SpellsFraction text digits) (ends : EndsDigits rest)
    (noPoint : rest.head? ≠ some '.') : readFraction (text ++ rest) = some (digits, rest) := by
  cases spelled with
  | none =>
    rw [List.nil_append]
    unfold readFraction
    split
    · exact absurd rfl noPoint
    · rfl
  | point are =>
    simp only [List.cons_append, readFraction, readDigits_front are.2 ends]
    split
    · next same => exact absurd (congrArg Prod.fst same) are.1
    · next same =>
      cases same
      rfl

theorem readPower_front {negative : Bool} (are : IsDigits digits) (ends : EndsDigits rest) :
    readPower negative (digits ++ rest) =
      some (some (if negative then -(Text.decimalValue digits : Int)
        else Text.decimalValue digits), rest) := by
  rw [readPower, readDigits_front are.2 ends]
  split
  · next same => exact absurd (congrArg Prod.fst same) are.1
  · next same =>
    cases same
    rfl

theorem readExponent_front {power : Option Int} (spelled : SpellsExponent text power)
    (ends : EndsNumber rest) : readExponent (text ++ rest) = some (power, rest) := by
  have endsDigits : EndsDigits rest := fun c first => (ends c first).1
  cases spelled with
  | none =>
    cases rest with
    | nil => rfl
    | cons c rest => exact readExponent_none (not_or.2 (ends c rfl).2.2) rest
  | plus isMark are =>
    rw [List.cons_append, readExponent_mark isMark]
    exact readPower_front are endsDigits
  | minus isMark are =>
    rw [List.cons_append, readExponent_mark isMark]
    exact readPower_front are endsDigits
  | unsigned isMark are =>
    rw [List.cons_append, readExponent_mark isMark]
    obtain ⟨d, more, rfl⟩ := List.exists_cons_of_ne_nil are.1
    have digit := are.2 d List.mem_cons_self
    rw [List.cons_append]
    -- What stands behind the mark is a digit, so it is read neither as a plus nor as a minus.
    split
    · next same =>
      cases same
      cases digit
    · next same =>
      cases same
      cases digit
    · exact readPower_front are endsDigits

/-- What may stand behind a fraction goes on neither with digits nor with a point. -/
theorem SpellsExponent.ends {power : Option Int} (spelled : SpellsExponent text power)
    (ends : EndsNumber rest) : EndsDigits (text ++ rest) ∧ (text ++ rest).head? ≠ some '.' := by
  have marked : ∀ {mark : Char} {more : List Char}, mark = 'e' ∨ mark = 'E' →
      EndsDigits (mark :: more) ∧ (mark :: more).head? ≠ some '.' := by
    intro mark more isMark
    constructor
    · intro c first
      cases first
      rcases isMark with rfl | rfl <;> rfl
    · rcases isMark with rfl | rfl <;> simp
  cases spelled with
  | none => exact ⟨fun c first => (ends c first).1, fun first => (ends '.' first).2.1 rfl⟩
  | unsigned isMark => exact marked isMark
  | plus isMark => exact marked isMark
  | minus isMark => exact marked isMark

theorem SpellsFraction.ends (spelled : SpellsFraction text digits) (ends : EndsDigits rest) :
    EndsDigits (text ++ rest) := by
  cases spelled with
  | none => exact ends
  | point =>
    intro c first
    cases first
    rfl

/-- A numeral is read in front of text that does not go on with it. -/
theorem read_of_spells {n : Numeral} (spelled : Spells text n) (ends : EndsNumber rest) :
    read (text ++ rest) = some (n, rest) := by
  obtain ⟨point, power, rfl, isWhole, isFraction, isExponent⟩ := spelled
  obtain ⟨afterPoint, noPoint⟩ := isExponent.ends ends
  have afterWhole : EndsDigits (point ++ (power ++ rest)) := isFraction.ends afterPoint
  have unsigned : readUnsigned n.negative (n.whole ++ (point ++ (power ++ rest))) =
      some (n, rest) := by
    rw [readUnsigned, readWhole_front isWhole afterWhole]
    simp only [Option.bind_eq_bind, Option.bind_some,
      readFraction_front isFraction afterPoint noPoint, readExponent_front isExponent ends]
    rfl
  cases sign : n.negative with
  | true =>
    rw [sign] at unsigned
    simp only [if_true, List.cons_append, List.nil_append, List.append_assoc, read]
    exact unsigned
  | false =>
    rw [sign] at unsigned
    obtain ⟨d, more, digits⟩ := List.exists_cons_of_ne_nil isWhole.1.1
    have digit := isWhole.1.2 d (digits ▸ List.mem_cons_self)
    simp only [Bool.false_eq_true, if_false, List.nil_append, List.append_assoc]
    rw [digits] at unsigned ⊢
    rw [List.cons_append] at unsigned ⊢
    rw [read.eq_def]
    split
    · next same =>
      cases same
      cases digit
    · exact unsigned

/-- A numeral begins with its sign or with a digit. -/
theorem Spells.head {n : Numeral} (spelled : Spells text n) :
    ∃ c cs, text = c :: cs ∧ BeginsNumber c := by
  have found := read_of_spells spelled endsNumber_nil
  rw [List.append_nil] at found
  exact head_of_read found

end Numeral

end ErrorIntake.Json
