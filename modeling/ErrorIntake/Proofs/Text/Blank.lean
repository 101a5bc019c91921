import ErrorIntake.Text.Ascii
import ErrorIntake.Text.Blank
import ErrorIntake.Text.Utf8
import Mathlib.Data.List.TakeWhile

/-!
# Trimmed texts

Trimming takes blanks from the ends of a text and nothing else, and a text without blanks comes out
of it as it is.  Neither capitals nor digits are blank.
-/

namespace ErrorIntake.Text

/-- What has no blanks comes out of a trimmed text when blanks were put around it. -/
theorem trimmed_between {α : Type} {p : α → Bool} {before middle after : List α}
    (front : ∀ x ∈ before, p x) (inside : ∀ x ∈ middle, p x = false) (back : ∀ x ∈ after, p x) :
    (((before ++ middle ++ after).dropWhile p).reverse.dropWhile p).reverse = middle := by
  rw [List.append_assoc, List.dropWhile_append_of_pos front]
  cases middle with
  | nil =>
    have nothing : after.dropWhile p = [] := List.dropWhile_eq_nil_iff.2 back
    rw [List.nil_append, nothing]
    rfl
  | cons x rest =>
    have first : p x = false := inside x List.mem_cons_self
    have last : (x :: rest).reverse.dropWhile p = (x :: rest).reverse := by
      cases turned : (x :: rest).reverse with
      | nil => rfl
      | cons y more =>
        have member : y ∈ x :: rest := by
          rw [← List.mem_reverse, turned]
          exact List.mem_cons_self
        rw [List.dropWhile_cons_of_neg]
        rw [inside y member]
        exact Bool.false_ne_true
    rw [List.cons_append, List.dropWhile_cons_of_neg (by simp [first]), ← List.cons_append,
      List.reverse_append, List.dropWhile_append_of_pos, last, List.reverse_reverse]
    intro y member
    exact back y (List.mem_reverse.1 member)

theorem mem_dropWhile {α : Type} {p : α → Bool} {x : α} {l : List α} (member : x ∈ l)
    (kept : p x = false) : x ∈ l.dropWhile p := by
  rw [← List.takeWhile_append_dropWhile (p := p) (l := l)] at member
  rcases List.mem_append.1 member with taken | left
  · rw [List.mem_takeWhile_imp taken] at kept
    cases kept
  · exact left

/-- Only blanks are lost when a text is trimmed. -/
theorem mem_trimBytes {bytes : Bytes} {x : UInt8} (member : x ∈ bytes)
    (kept : isBlankByte x = false) : x ∈ trimBytes bytes := by
  have start := mem_dropWhile member kept
  exact List.mem_reverse.2 (mem_dropWhile (List.mem_reverse.2 start) kept)

/-- A text is what is left of it when it is trimmed, between blanks. -/
theorem exists_trimmed {α : Type} (p : α → Bool) (l : List α) :
    ∃ before after, l = before ++ ((l.dropWhile p).reverse.dropWhile p).reverse ++ after ∧
      (∀ x ∈ before, p x) ∧ ∀ x ∈ after, p x := by
  refine ⟨l.takeWhile p, ((l.dropWhile p).reverse.takeWhile p).reverse, ?_,
    fun x member => List.mem_takeWhile_imp member,
    fun x member => List.mem_takeWhile_imp (List.mem_reverse.1 member)⟩
  rw [List.append_assoc, ← List.reverse_append, List.takeWhile_append_dropWhile,
    List.reverse_reverse, List.takeWhile_append_dropWhile]

/-- A capital is not blank. -/
theorem toLower_of_isBlank {c : Char} (blank : isBlank c = true) : c.toLower = c := by
  have small : ¬ (65 ≤ c.toNat ∧ c.toNat ≤ 90) := by
    rintro ⟨low, high⟩
    simp [isBlank, inRanges, blankRanges] at blank
    omega
  unfold Char.toLower
  split
  · next upper =>
    exfalso
    apply small
    simpa [Char.le_def, UInt32.le_iff_toNat_le] using upper
  · rfl

theorem isBlank_of_isDigit {c : Char} (digit : isDigit c = true) : isBlank c = false := by
  simp only [isDigit, Bool.and_eq_true, decide_eq_true_eq] at digit
  have low : '0'.toNat ≤ c.toNat := digit.1
  have high : c.toNat ≤ '9'.toNat := digit.2
  simp [isBlank, inRanges, blankRanges]
  simp at low high
  omega

end ErrorIntake.Text
