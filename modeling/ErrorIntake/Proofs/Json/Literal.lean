import ErrorIntake.Json.Literal

/-!
# Quoted texts are read back

`quote` writes each character of a text as one piece, so the pieces that `read` gets back are known
beforehand: `ofText` lists them.  They have the text that was quoted.
-/

namespace ErrorIntake.Json.Literal

/-- The character is written by the number of its code unit. -/
def isNumbered (c : Char) : Bool :=
  c.toNat < 0x20 && c.toNat != 0x08 && c.toNat != 0x0C && c != '\n' && c != '\r' && c != '\t'

/-- One character as it is read back. -/
def pieceOf (c : Char) : Piece := if isNumbered c then .unit c.toNat else .char c

/-- A text as it is read back. -/
def ofText (s : String) : Literal := s.toList.map pieceOf

theorem hexValue?_hexDigit : ∀ n < 16, Text.hexValue? (Text.hexDigit n) = some n := by
  decide

theorem hexQuad?_control {n : Nat} (small : n < 0x20) :
    hexQuad? '0' '0' (Text.hexDigit (n / 16)) (Text.hexDigit (n % 16)) = some n := by
  have zero : Text.hexValue? '0' = some 0 := by decide
  have high := hexValue?_hexDigit (n / 16) (by omega)
  have low := hexValue?_hexDigit (n % 16) (by omega)
  simp only [hexQuad?, zero, high, low, Option.bind_eq_bind, Option.bind_some]
  show some _ = some n
  congr 1
  omega

/-- A character that needs no escape is read as it stands. -/
theorem read_plain {c : Char} (quote : c ≠ '"') (backslash : c ≠ '\\') (visible : ¬ c.toNat < 0x20)
    (rest : List Char) :
    read (c :: rest) = (read rest).map fun p => (.char c :: p.1, p.2) := by
  rw [read.eq_def]
  split
  · next heq => cases heq
  · next heq =>
    cases heq
    exact absurd rfl quote
  · next heq =>
    cases heq
    exact absurd rfl backslash
  · next heq =>
    cases heq
    exact absurd rfl backslash
  · next heq =>
    cases heq
    rw [if_neg (by simp [visible, backslash])]
    cases read rest <;> rfl

/-- A letter behind a backslash is read as the character that it stands for. -/
theorem read_escape {c e : Char} (stands : escaped? e = some c) (rest : List Char) :
    read ('\\' :: e :: rest) = (read rest).map fun p => (.char c :: p.1, p.2) := by
  rw [read.eq_def]
  split
  · next heq => cases heq
  · next heq => cases heq
  · next heq =>
    cases heq
    cases stands
  · next heq =>
    cases heq
    rw [stands]
    cases read rest <;> rfl
  · next no heq =>
    cases heq
    exact (no e rest rfl rfl).elim

/-- What one character was written as is read as its piece. -/
theorem read_quoteChar (c : Char) (rest : List Char) :
    read (quoteChar c ++ rest) = (read rest).map fun p => (pieceOf c :: p.1, p.2) := by
  unfold quoteChar
  split
  · next same =>
    subst same
    exact read_escape rfl rest
  split
  · next same =>
    subst same
    exact read_escape rfl rest
  split
  · next code =>
    have same : c = '\x08' := Char.toNat_inj.1 code
    subst same
    exact read_escape rfl rest
  split
  · next code =>
    have same : c = '\x0c' := Char.toNat_inj.1 code
    subst same
    exact read_escape rfl rest
  split
  · next same =>
    subst same
    exact read_escape rfl rest
  split
  · next same =>
    subst same
    exact read_escape rfl rest
  split
  · next same =>
    subst same
    exact read_escape rfl rest
  split
  · next control =>
    have numbered : pieceOf c = .unit c.toNat := by
      rw [pieceOf, if_pos]
      simp_all [isNumbered]
    rw [numbered]
    show read ('\\' :: 'u' :: '0' :: '0' :: _ :: _ :: rest) = _
    rw [read, hexQuad?_control control]
    cases read rest <;> rfl
  · next quote backslash _ _ _ _ _ visible =>
    have plain : pieceOf c = .char c := by
      rw [pieceOf, if_neg]
      simp [isNumbered, visible]
    rw [plain]
    exact read_plain quote backslash visible rest

/-- A quoted text is read up to its closing quote. -/
theorem read_quoted (s : String) (rest : List Char) :
    read (s.toList.flatMap quoteChar ++ '"' :: rest) = some (ofText s, rest) := by
  unfold ofText
  induction s.toList with
  | nil => rw [List.flatMap_nil, List.nil_append, read, List.map_nil]
  | cons c cs ih =>
    rw [List.flatMap_cons, List.append_assoc, read_quoteChar, ih]
    rfl

theorem chars?_char (c : Char) (rest : Literal) :
    chars? (.char c :: rest) = (chars? rest).map (c :: ·) := by
  rw [chars?]

/-- A code unit that is no surrogate stands for its character. -/
theorem chars?_single {code : Nat} (notHigh : isHighSurrogate code = false)
    (notLow : isLowSurrogate code = false) (rest : Literal) :
    chars? (.unit code :: rest) = (chars? rest).map (Char.ofNat code :: ·) := by
  cases rest with
  | nil => simp [chars?, notHigh, notLow]
  | cons piece rest =>
    cases piece with
    | char c => simp [chars?, notHigh, notLow]
    | unit other => simp [chars?, notHigh, notLow]

theorem chars?_unit {code : Nat} (low : code < 0xD800) (rest : Literal) :
    chars? (.unit code :: rest) = (chars? rest).map (Char.ofNat code :: ·) := by
  refine chars?_single ?_ ?_ rest
  · simp only [isHighSurrogate, Bool.and_eq_false_iff, decide_eq_false_iff_not]
    omega
  · simp only [isLowSurrogate, Bool.and_eq_false_iff, decide_eq_false_iff_not]
    omega

/-- What is read back has the text that was quoted. -/
@[simp] theorem text?_ofText (s : String) : (ofText s).text? = some s := by
  have chars : ∀ cs : List Char, chars? (cs.map pieceOf) = some cs := by
    intro cs
    induction cs with
    | nil => rfl
    | cons c cs ih =>
      rw [List.map_cons, pieceOf]
      by_cases numbered : isNumbered c = true
      · have small : c.toNat < 0xD800 := by
          simp only [isNumbered, Bool.and_eq_true, decide_eq_true_eq] at numbered
          omega
        rw [if_pos numbered, chars?_unit small, ih, Char.ofNat_toNat]
        rfl
      · rw [if_neg numbered, chars?_char, ih]
        rfl
  rw [text?, ofText, chars, Option.map_some, String.ofList_toList]

end ErrorIntake.Json.Literal
