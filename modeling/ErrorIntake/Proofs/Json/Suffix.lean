import ErrorIntake.Json.Tree
import Mathlib.Data.List.Infix
import Mathlib.Data.List.TakeWhile

/-!
# Readers go forward

What a reader leaves is an end of the text that it was given, so what it read stands in that text
character for character.
-/

namespace ErrorIntake.Json

theorem skipBlanks_suffix (cs : List Char) : skipBlanks cs <:+ cs := List.dropWhile_suffix _

/-- What was left behind some blanks is left of the whole. -/
theorem suffix_of_skipBlanks {cs rest more : List Char} (left : skipBlanks cs = more)
    (further : rest <:+ more) : rest <:+ cs :=
  further.trans (left ▸ skipBlanks_suffix cs)

theorem suffix_of_opened {cs inside rest : List Char} {c : Char}
    (left : skipBlanks cs = c :: inside) (further : rest <:+ skipBlanks inside) : rest <:+ cs :=
  suffix_of_skipBlanks left
    ((further.trans (skipBlanks_suffix inside)).trans (List.suffix_cons _ _))

theorem skipBlanks_skipBlanks (cs : List Char) : skipBlanks (skipBlanks cs) = skipBlanks cs := by
  unfold skipBlanks
  induction cs with
  | nil => rfl
  | cons c cs ih =>
    cases blank : isBlank c
    · rw [List.dropWhile_cons_of_neg (by simp [blank]), List.dropWhile_cons_of_neg (by simp [blank])]
    · rw [List.dropWhile_cons_of_pos blank, ih]

/-- A text is the blanks that it begins with and the rest. -/
theorem exists_blanks (cs : List Char) :
    ∃ gap, cs = gap ++ skipBlanks cs ∧ ∀ c ∈ gap, isBlank c :=
  ⟨cs.takeWhile isBlank, List.takeWhile_append_dropWhile.symm,
    fun _ member => List.mem_takeWhile_imp member⟩

theorem Literal.read_suffix {cs rest : List Char} {l : Literal} (h : read cs = some (l, rest)) :
    rest <:+ cs := by
  fun_induction read cs generalizing l rest with
  | case1 => cases h
  | case2 cs =>
    cases h
    exact List.suffix_cons _ _
  | case3 a b c d cs ih =>
    obtain ⟨code, -, h⟩ := Option.bind_eq_some_iff.1 h
    obtain ⟨⟨pieces, left⟩, found, h⟩ := Option.bind_eq_some_iff.1 h
    cases h
    exact (ih found).trans (List.suffix_append [_, _, _, _, _, _] cs)
  | case4 e cs _ ih =>
    obtain ⟨c, -, h⟩ := Option.bind_eq_some_iff.1 h
    obtain ⟨⟨pieces, left⟩, found, h⟩ := Option.bind_eq_some_iff.1 h
    cases h
    exact (ih found).trans (List.suffix_append [_, _] cs)
  | case5 => cases h
  | case6 c cs _ _ _ _ ih =>
    obtain ⟨⟨pieces, left⟩, found, h⟩ := Option.bind_eq_some_iff.1 h
    cases h
    exact (ih found).trans (List.suffix_cons _ _)

namespace Numeral

variable {cs rest digits : List Char}

theorem readDigits_suffix (h : readDigits cs = (digits, rest)) : rest <:+ cs := by
  cases h
  exact List.dropWhile_suffix _

theorem readWhole_suffix (h : readWhole cs = some (digits, rest)) : rest <:+ cs := by
  unfold readWhole at h
  split at h
  · split at h
    · split at h
      · cases h
      · cases h
        exact List.suffix_cons _ _
    · cases h
      exact List.suffix_cons _ _
  · split at h
    · cases h
    · next made =>
      cases h
      exact readDigits_suffix made

theorem readFraction_suffix (h : readFraction cs = some (digits, rest)) : rest <:+ cs := by
  unfold readFraction at h
  split at h
  · split at h
    · cases h
    · next made =>
      cases h
      exact (readDigits_suffix made).trans (List.suffix_cons _ _)
  · cases h
    exact List.suffix_refl _

theorem readPower_suffix {negative : Bool} {power : Option Int}
    (h : readPower negative cs = some (power, rest)) : rest <:+ cs := by
  unfold readPower at h
  split at h
  · cases h
  · next made =>
    cases h
    exact readDigits_suffix made

theorem readExponent_suffix {power : Option Int} (h : readExponent cs = some (power, rest)) :
    rest <:+ cs := by
  unfold readExponent at h
  split at h
  · split at h
    · split at h
      · exact (readPower_suffix h).trans (List.suffix_append [_, _] _)
      · exact (readPower_suffix h).trans (List.suffix_append [_, _] _)
      · exact (readPower_suffix h).trans (List.suffix_cons _ _)
    · cases h
      exact List.suffix_refl _
  · cases h
    exact List.suffix_refl _

theorem readUnsigned_suffix {negative : Bool} {n : Numeral}
    (h : readUnsigned negative cs = some (n, rest)) : rest <:+ cs := by
  obtain ⟨⟨whole, behind⟩, isWhole, h⟩ := Option.bind_eq_some_iff.1 h
  obtain ⟨⟨fraction, behind'⟩, isFraction, h⟩ := Option.bind_eq_some_iff.1 h
  obtain ⟨⟨exponent, last⟩, isExponent, h⟩ := Option.bind_eq_some_iff.1 h
  cases h
  calc rest <:+ behind' := readExponent_suffix isExponent
    _ <:+ behind := readFraction_suffix isFraction
    _ <:+ cs := readWhole_suffix isWhole

theorem read_suffix {n : Numeral} (h : read cs = some (n, rest)) : rest <:+ cs := by
  unfold read at h
  split at h
  · exact (readUnsigned_suffix h).trans (List.suffix_cons _ _)
  · exact readUnsigned_suffix h

end Numeral

namespace Tree

variable {fuel : Nat} {cs rest : List Char}

/-- With so much fuel, what the readers leave is an end of their text. -/
structure Forward (fuel : Nat) : Prop where
  value : ∀ {cs rest t}, readValue fuel cs = some (t, rest) → rest <:+ cs
  elements : ∀ {cs rest ts}, readElements fuel cs = some (ts, rest) → rest <:+ cs
  members : ∀ {cs rest ms}, readMembers fuel cs = some (ms, rest) → rest <:+ cs

namespace Forward

theorem readValue (forward : Forward fuel) {t : Tree}
    (h : readValue (fuel + 1) cs = some (t, rest)) : rest <:+ cs := by
  rw [Tree.readValue] at h
  split at h
  · next left =>
    cases h
    exact suffix_of_skipBlanks left (List.suffix_append [_, _, _, _] _)
  · next left =>
    cases h
    exact suffix_of_skipBlanks left (List.suffix_append [_, _, _, _] _)
  · next left =>
    cases h
    exact suffix_of_skipBlanks left (List.suffix_append [_, _, _, _, _] _)
  · next left =>
    obtain ⟨⟨l, last⟩, found, h⟩ := Option.bind_eq_some_iff.1 h
    cases h
    exact suffix_of_skipBlanks left ((Literal.read_suffix found).trans (List.suffix_cons _ _))
  · next left =>
    split at h
    · next closed =>
      cases h
      exact suffix_of_opened left (closed ▸ List.suffix_cons _ _)
    · obtain ⟨⟨ts, last⟩, found, h⟩ := Option.bind_eq_some_iff.1 h
      cases h
      exact suffix_of_opened left (forward.elements found)
  · next left =>
    split at h
    · next closed =>
      cases h
      exact suffix_of_opened left (closed ▸ List.suffix_cons _ _)
    · obtain ⟨⟨ms, last⟩, found, h⟩ := Option.bind_eq_some_iff.1 h
      cases h
      exact suffix_of_opened left (forward.members found)
  · obtain ⟨⟨n, last⟩, found, h⟩ := Option.bind_eq_some_iff.1 h
    cases h
    exact (Numeral.read_suffix found).trans (skipBlanks_suffix cs)

theorem readElements (forward : Forward fuel) {ts : List Tree}
    (h : readElements (fuel + 1) cs = some (ts, rest)) : rest <:+ cs := by
  obtain ⟨⟨t, behind⟩, first, h⟩ := Option.bind_eq_some_iff.1 h
  refine List.IsSuffix.trans ?_ (forward.value first)
  dsimp only at h
  split at h
  · next left =>
    obtain ⟨⟨ts, last⟩, found, h⟩ := Option.bind_eq_some_iff.1 h
    cases h
    exact suffix_of_skipBlanks left ((forward.elements found).trans (List.suffix_cons _ _))
  · next left =>
    cases h
    exact suffix_of_skipBlanks left (List.suffix_cons _ _)
  · cases h

theorem readMembers (forward : Forward fuel) {ms : List (Literal × Tree)}
    (h : readMembers (fuel + 1) cs = some (ms, rest)) : rest <:+ cs := by
  rw [Tree.readMembers] at h
  split at h
  · next left =>
    obtain ⟨⟨key, behind⟩, isKey, h⟩ := Option.bind_eq_some_iff.1 h
    refine suffix_of_skipBlanks left (List.IsSuffix.trans ?_ (List.suffix_cons _ _))
    refine List.IsSuffix.trans ?_ (Literal.read_suffix isKey)
    dsimp only at h
    split at h
    · next left =>
      obtain ⟨⟨t, behind⟩, first, h⟩ := Option.bind_eq_some_iff.1 h
      refine suffix_of_skipBlanks left (List.IsSuffix.trans ?_ (List.suffix_cons _ _))
      refine List.IsSuffix.trans ?_ (forward.value first)
      dsimp only at h
      split at h
      · next left =>
        obtain ⟨⟨ms, last⟩, found, h⟩ := Option.bind_eq_some_iff.1 h
        cases h
        exact suffix_of_skipBlanks left ((forward.members found).trans (List.suffix_cons _ _))
      · next left =>
        cases h
        exact suffix_of_skipBlanks left (List.suffix_cons _ _)
      · cases h
    · cases h
  · cases h

end Forward

/-- The readers of values, elements and members go forward, whatever the fuel. -/
theorem forward (fuel : Nat) : Forward fuel := by
  induction fuel with
  | zero =>
    constructor
    all_goals
      intro _ _ _ h
      cases h
  | succ fuel ih => exact ⟨ih.readValue, ih.readElements, ih.readMembers⟩

theorem read_suffix {t : Tree} (h : read cs = some (t, rest)) :
    rest <:+ cs := (forward _).value h

end Tree

end ErrorIntake.Json
