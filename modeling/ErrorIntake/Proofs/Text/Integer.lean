import ErrorIntake.Proofs.Json.Spelling
import ErrorIntake.Proofs.Text.Blank
import ErrorIntake.Text.Integer

/-!
# Which integers texts spell

`SpellsInteger` says which integer of any size a text spells.  The reader goes from digit to digit
and stops at the first number that does not fit 64 bits.  No number that comes later is nearer to
zero, so it reads what is spelled if that fits, and refuses it else, however many zeros stand in
front.
-/

namespace ErrorIntake.Text

open Json.Numeral (IsDigits)

/-- The characters spell an integer: decimal digits, perhaps with a sign before them. -/
inductive SpellsInteger : List Char → Int → Prop
  | unsigned {digits : List Char} (are : IsDigits digits) :
      SpellsInteger digits (decimalValue digits)
  | plus {digits : List Char} (are : IsDigits digits) :
      SpellsInteger ('+' :: digits) (decimalValue digits)
  | minus {digits : List Char} (are : IsDigits digits) :
      SpellsInteger ('-' :: digits) (-(decimalValue digits : Int))

/-- The characters spell an integer, with blanks around it or none. -/
def SpellsBetweenBlanks (cs : List Char) (n : Int) : Prop :=
  ∃ before inside after, cs = before ++ inside ++ after ∧ (∀ c ∈ before, isBlank c) ∧
    (∀ c ∈ after, isBlank c) ∧ SpellsInteger inside n

/-! ## Digits in a row -/

/-- The number that digits make behind another. -/
def continued (m : Nat) (digits : List Char) : Nat :=
  digits.foldl (fun n c => n * 10 + digitValue c) m

theorem le_continued (m : Nat) (digits : List Char) : m ≤ continued m digits := by
  induction digits generalizing m with
  | nil => exact Nat.le_refl m
  | cons c rest ih =>
    have next := ih (m * 10 + digitValue c)
    exact Nat.le_trans (by omega) next

/-- A number on its side of zero. -/
def onSide (negative : Bool) (m : Nat) : Int := if negative then -m else m

theorem next_onSide (negative : Bool) (m d : Nat) :
    (if negative then onSide negative m * 10 - d else onSide negative m * 10 + d) =
      onSide negative (m * 10 + d) := by
  cases negative <;> simp only [onSide, if_true, Bool.false_eq_true, if_false] <;> omega

/-- What is nearer to zero fits too. -/
theorem isInt64_onSide_of_le {negative : Bool} {m n : Nat} (le : m ≤ n)
    (fits : IsInt64 (onSide negative n)) : IsInt64 (onSide negative m) := by
  cases negative <;> simp only [onSide, if_true, Bool.false_eq_true, if_false] at fits ⊢ <;> omega

/-- The fault of a number that is too far on its side of zero. -/
def overflow (negative : Bool) : IntegerFault :=
  if negative then .negativeOverflow else .positiveOverflow

variable {n n' : Int} {cs digits : List Char}

theorem readDigits_of_digits (negative : Bool) (m : Nat) (are : ∀ c ∈ digits, isDigit c)
    (fits : IsInt64 (onSide negative m)) :
    readDigits negative (onSide negative m) digits =
      if IsInt64 (onSide negative (continued m digits)) then
        .ok (onSide negative (continued m digits))
      else .error (overflow negative) := by
  induction digits generalizing m with
  | nil => exact (if_pos fits).symm
  | cons c rest ih =>
    obtain ⟨digit, others⟩ := List.forall_mem_cons.1 are
    rw [readDigits, if_pos digit]
    simp only [next_onSide]
    by_cases next : IsInt64 (onSide negative (m * 10 + digitValue c))
    · rw [if_pos next]
      exact ih _ others next
    · have far : ¬ IsInt64 (onSide negative (continued m (c :: rest))) := fun inside =>
        next (isInt64_onSide_of_le (le_continued _ rest) inside)
      rw [if_neg next, if_neg far]
      rfl

theorem isDigit_of_readDigits {negative : Bool} {value : Int} (read : readDigits negative value cs = .ok n) :
    ∀ c ∈ cs, isDigit c := by
  induction cs generalizing value with
  | nil => simp
  | cons c rest ih =>
    rw [readDigits] at read
    split at read
    · next digit =>
      dsimp only at read
      generalize (if negative = true then _ else _ : Int) = next at read
      split at read
      · exact List.forall_mem_cons.2 ⟨digit, ih read⟩
      · cases read
    · cases read

/-! ## Signs -/

theorem readInteger_digits (are : IsDigits digits) :
    readInteger digits = readDigits false 0 digits := by
  obtain ⟨filled, are⟩ := are
  obtain ⟨c, rest, rfl⟩ := List.exists_cons_of_ne_nil filled
  have digit := are c List.mem_cons_self
  unfold readInteger
  split
  case h_6 => rfl
  · next same => cases same
  all_goals
    next same =>
      cases same
      cases digit

theorem readInteger_plus (filled : digits ≠ []) :
    readInteger ('+' :: digits) = readDigits false 0 digits := by
  cases digits with
  | nil => exact absurd rfl filled
  | cons c rest => rfl

theorem readInteger_minus (filled : digits ≠ []) :
    readInteger ('-' :: digits) = readDigits true 0 digits := by
  cases digits with
  | nil => exact absurd rfl filled
  | cons c rest => rfl

/-- An integer that is spelled is read if it fits 64 bits, and else refused as what it is. -/
theorem readInteger_of_spells (spelled : SpellsInteger cs n) :
    readInteger cs = if IsInt64 n then .ok n else .error (overflow (n < 0)) := by
  have positive (digits : List Char) : decide ((decimalValue digits : Int) < 0) = false :=
    decide_eq_false (by omega)
  cases spelled with
  | @unsigned digits are =>
    rw [readInteger_digits are, positive]
    exact readDigits_of_digits false 0 are.2 (by decide)
  | @plus digits are =>
    rw [readInteger_plus are.1, positive]
    exact readDigits_of_digits false 0 are.2 (by decide)
  | @minus digits are =>
    rw [readInteger_minus are.1]
    have read := readDigits_of_digits true 0 are.2 (by decide)
    by_cases fits : IsInt64 (-(decimalValue digits : Int))
    · rw [if_pos fits]
      exact read.trans (if_pos fits)
    · have far : decide (-(decimalValue digits : Int) < 0) = true := decide_eq_true (by omega)
      rw [if_neg fits, far]
      exact read.trans (if_neg fits)

theorem spells_of_readInteger (read : readInteger cs = .ok n) : SpellsInteger cs n := by
  have same {negative : Bool} {digits : List Char} {k : Int} (filled : digits ≠ [])
      (read : readDigits negative 0 digits = .ok k) :
      IsDigits digits ∧ k = onSide negative (decimalValue digits) := by
    have are := isDigit_of_readDigits read
    have zero : onSide negative 0 = 0 := by cases negative <;> rfl
    have whole := readDigits_of_digits negative 0 are (by rw [zero]; decide)
    rw [zero, read] at whole
    split at whole
    · cases whole
      exact ⟨⟨filled, are⟩, rfl⟩
    · cases whole
  unfold readInteger at read
  split at read
  · cases read
  · cases read
  · cases read
  · next filled =>
    obtain ⟨are, rfl⟩ := same filled read
    exact .plus are
  · next filled =>
    obtain ⟨are, rfl⟩ := same filled read
    exact .minus are
  · next filled _ _ _ _ =>
    obtain ⟨are, rfl⟩ := same filled read
    exact .unsigned are

/-- No text spells two integers. -/
theorem SpellsInteger.unique (spelled : SpellsInteger cs n) (spelled' : SpellsInteger cs n') :
    n = n' := by
  have plus {digits : List Char} (are : IsDigits ('+' :: digits)) : False := by
    cases are.2 '+' List.mem_cons_self
  have minus {digits : List Char} (are : IsDigits ('-' :: digits)) : False := by
    cases are.2 '-' List.mem_cons_self
  cases spelled with
  | unsigned are =>
    cases spelled' with
    | unsigned => rfl
    | plus => exact (plus are).elim
    | minus => exact (minus are).elim
  | plus =>
    cases spelled' with
    | unsigned are => exact (plus are).elim
    | plus => rfl
  | minus =>
    cases spelled' with
    | unsigned are => exact (minus are).elim
    | minus => rfl

/-! ## Blanks around -/

theorem SpellsInteger.solid (spelled : SpellsInteger cs n) : ∀ c ∈ cs, isBlank c = false := by
  have digits {digits : List Char} (are : IsDigits digits) : ∀ c ∈ digits, isBlank c = false :=
    fun c member => isBlank_of_isDigit (are.2 c member)
  cases spelled with
  | unsigned are => exact digits are
  | plus are => exact List.forall_mem_cons.2 ⟨by decide, digits are⟩
  | minus are => exact List.forall_mem_cons.2 ⟨by decide, digits are⟩

/-- Trimming leaves what is spelled between blanks. -/
theorem spellsBetweenBlanks_iff : SpellsBetweenBlanks cs n ↔ SpellsInteger (trim cs) n := by
  constructor
  · rintro ⟨before, inside, after, rfl, front, back, spelled⟩
    have trimmed : trim (before ++ inside ++ after) = inside :=
      trimmed_between front spelled.solid back
    rwa [trimmed]
  · intro spelled
    obtain ⟨before, after, split, front, back⟩ := exists_trimmed isBlank cs
    exact ⟨before, trim cs, after, split, front, back, spelled⟩

/-- The text of an integer spells it. -/
theorem spellsInteger_toString (n : Int) : SpellsInteger (toString n).toList n := by
  have are : IsDigits (Nat.toDigits 10 n.natAbs) :=
    ⟨Nat.toDigits_ne_nil, Json.Numeral.isDigit_toDigits⟩
  have value := Json.Numeral.decimalValue_toDigits n.natAbs
  rw [Json.Number.toList_toString]
  split
  · next negative =>
    have spelled := SpellsInteger.minus are
    rwa [value, show -(n.natAbs : Int) = n by omega] at spelled
  · next positive =>
    have spelled := SpellsInteger.unsigned are
    rwa [value, show (n.natAbs : Int) = n by omega] at spelled

end ErrorIntake.Text
