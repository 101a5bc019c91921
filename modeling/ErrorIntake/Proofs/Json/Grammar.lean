import ErrorIntake.Proofs.Json.Spelling

/-!
# The grammar of JSON

What a JSON text is, said without a reader: a relation between texts and the trees that they spell.
The readers accept what the grammar derives and nothing else.  The derivation is recovered from a
reader by induction on its fuel; a reader follows a derivation by induction on the latter, and the
characters of a value are fuel enough for it.
-/

namespace ErrorIntake.Json

/-! ## Texts with blanks -/

/-- A text between blanks, and the tree that it spells. -/
structure Element where
  before : List Char
  text : List Char
  after : List Char
  tree : Tree

namespace Element

/-- The element as it stands in its array. -/
def written (e : Element) : List Char := e.before ++ (e.text ++ e.after)

/-- Nothing but blanks stands beside the text. -/
def IsPadded (e : Element) : Prop := ∀ c ∈ e.before ++ e.after, isBlank c

end Element

/-- A key and the text of a value with blanks beside them, and what they spell. -/
structure Entry where
  before : List Char
  quoted : List Char
  middle : List Char
  gap : List Char
  text : List Char
  after : List Char
  key : Literal
  tree : Tree

namespace Entry

/-- The entry as it stands in its object. -/
def written (e : Entry) : List Char :=
  e.before ++ '"' :: (e.quoted ++ '"' :: (e.middle ++ ':' :: (e.gap ++ (e.text ++ e.after))))

/-- Nothing but blanks stands beside the key and the text, and the key is spelled. -/
def IsKeyed (e : Entry) : Prop :=
  (∀ c ∈ e.before ++ e.middle ++ (e.gap ++ e.after), isBlank c) ∧ e.key.Spells e.quoted

end Entry

/-- Parts with commas between them. -/
def separated : List (List Char) → List Char
  | [] => []
  | [part] => part
  | part :: rest => part ++ ',' :: separated rest

theorem separated_cons (part : List Char) {rest : List (List Char)} (more : rest ≠ []) :
    separated (part :: rest) = part ++ ',' :: separated rest := by
  cases rest with
  | nil => exact absurd rfl more
  | cons next rest => rfl

theorem skipBlanks_append {gap : List Char} (blank : ∀ c ∈ gap, isBlank c) (cs : List Char) :
    skipBlanks (gap ++ cs) = skipBlanks cs := List.dropWhile_append_of_pos blank

/-- Blanks do not go on with a number. -/
theorem endsNumber_blanks {gap rest : List Char} (blank : ∀ c ∈ gap, isBlank c)
    (ends : EndsNumber rest) : EndsNumber (gap ++ rest) := by
  cases gap with
  | nil => exact ends
  | cons c gap =>
    have space := blank c List.mem_cons_self
    simp only [isBlank, Bool.or_eq_true, beq_iff_eq] at space
    rcases space with ((rfl | rfl) | rfl) | rfl
    all_goals exact endsNumber_cons (by decide) (by decide) (by decide) (by decide) _

/-- What closes or separates values ends a number, blanks before it included. -/
theorem endsNumber_closed {after : List Char} {c : Char} (blank : ∀ c ∈ after, isBlank c)
    (closes : c = ',' ∨ c = ']' ∨ c = '\x7d') (rest : List Char) :
    EndsNumber (after ++ c :: rest) := by
  refine endsNumber_blanks blank ?_
  rcases closes with rfl | rfl | rfl
  all_goals exact endsNumber_cons (by decide) (by decide) (by decide) (by decide) rest

/-- Behind blanks stands what is no blank. -/
theorem skipBlanks_blanks {gap : List Char} {c : Char} (blank : ∀ c ∈ gap, isBlank c)
    (visible : isBlank c = false) (cs : List Char) : skipBlanks (gap ++ c :: cs) = c :: cs := by
  rw [skipBlanks_append blank, skipBlanks_cons visible]

/-! ## Values -/

namespace Tree

/-- The characters spell a value, from its first character to its last. -/
inductive Spells : List Char → Tree → Prop
  | null : Spells ['n', 'u', 'l', 'l'] .null
  | yes : Spells ['t', 'r', 'u', 'e'] (.bool true)
  | no : Spells ['f', 'a', 'l', 's', 'e'] (.bool false)
  | number {text : List Char} {n : Numeral} (spelled : n.Spells text) : Spells text (.number n)
  | string {text : List Char} {l : Literal} (spelled : l.Spells text) :
      Spells ('"' :: (text ++ ['"'])) (.string l)
  | emptyArray {gap : List Char} (blank : ∀ c ∈ gap, isBlank c) :
      Spells ('[' :: (gap ++ [']'])) (.array [])
  | array (elements : List Element) (filled : elements ≠ [])
      (padded : ∀ e ∈ elements, e.IsPadded) (each : ∀ e ∈ elements, Spells e.text e.tree) :
      Spells ('[' :: (separated (elements.map Element.written) ++ [']']))
        (.array (elements.map Element.tree))
  | emptyObject {gap : List Char} (blank : ∀ c ∈ gap, isBlank c) :
      Spells ('\x7b' :: (gap ++ ['\x7d'])) (.object [])
  | object (entries : List Entry) (filled : entries ≠ []) (keyed : ∀ e ∈ entries, e.IsKeyed)
      (each : ∀ e ∈ entries, Spells e.text e.tree) :
      Spells ('\x7b' :: (separated (entries.map Entry.written) ++ ['\x7d']))
        (.object (entries.map fun e => (e.key, e.tree)))

variable {fuel : Nat} {cs text gap rest : List Char} {t : Tree}

theorem readValue_skipBlanks (fuel : Nat) (cs : List Char) :
    readValue fuel (skipBlanks cs) = readValue fuel cs := by
  cases fuel with
  | zero => rfl
  | succ fuel => rw [readValue, readValue, skipBlanks_skipBlanks]

theorem readElements_skipBlanks (fuel : Nat) (cs : List Char) :
    readElements fuel (skipBlanks cs) = readElements fuel cs := by
  cases fuel with
  | zero => rfl
  | succ fuel => rw [readElements, readElements, readValue_skipBlanks]

theorem readMembers_skipBlanks (fuel : Nat) (cs : List Char) :
    readMembers fuel (skipBlanks cs) = readMembers fuel cs := by
  cases fuel with
  | zero => rfl
  | succ fuel => rw [readMembers, readMembers, skipBlanks_skipBlanks]

/-! ### What is read is spelled so -/

/-- The text begins, blanks aside, with a value. -/
def StartsWith (cs : List Char) (t : Tree) (rest : List Char) : Prop :=
  ∃ gap text, cs = gap ++ (text ++ rest) ∧ (∀ c ∈ gap, isBlank c) ∧ Spells text t

/-- With so much fuel, the readers read what is spelled. -/
structure Sound (fuel : Nat) : Prop where
  value : ∀ {cs rest t}, readValue fuel cs = some (t, rest) → StartsWith cs t rest
  elements : ∀ {cs rest ts}, readElements fuel cs = some (ts, rest) →
    ∃ elements : List Element, elements ≠ [] ∧ (∀ e ∈ elements, e.IsPadded) ∧
      (∀ e ∈ elements, Spells e.text e.tree) ∧ ts = elements.map Element.tree ∧
      cs = separated (elements.map Element.written) ++ ']' :: rest
  members : ∀ {cs rest ms}, readMembers fuel cs = some (ms, rest) →
    ∃ entries : List Entry, entries ≠ [] ∧ (∀ e ∈ entries, e.IsKeyed) ∧
      (∀ e ∈ entries, Spells e.text e.tree) ∧ ms = entries.map (fun e => (e.key, e.tree)) ∧
      cs = separated (entries.map Entry.written) ++ '\x7d' :: rest

/-- A value that stands behind some blanks is spelled there. -/
theorem startsWith_of_skipBlanks (left : skipBlanks cs = text ++ rest) (spelled : Spells text t) :
    StartsWith cs t rest := by
  obtain ⟨gap, split, blank⟩ := exists_blanks cs
  exact ⟨gap, text, left ▸ split, blank, spelled⟩

namespace Sound

theorem readValue (sound : Sound fuel) (found : readValue (fuel + 1) cs = some (t, rest)) :
    StartsWith cs t rest := by
  rw [Tree.readValue] at found
  split at found
  · next left =>
    cases found
    exact startsWith_of_skipBlanks left .null
  · next left =>
    cases found
    exact startsWith_of_skipBlanks left .yes
  · next left =>
    cases found
    exact startsWith_of_skipBlanks left .no
  · next left =>
    obtain ⟨⟨l, last⟩, isLiteral, found⟩ := Option.bind_eq_some_iff.1 found
    cases found
    obtain ⟨text, rfl, spelled⟩ := Literal.spells_of_read isLiteral
    exact startsWith_of_skipBlanks (by rw [left]; simp) (.string spelled)
  · next inside left =>
    split at found
    · next closed =>
      cases found
      obtain ⟨gap, split, blank⟩ := exists_blanks inside
      rw [closed] at split
      exact startsWith_of_skipBlanks (by rw [left, split]; simp) (.emptyArray blank)
    · obtain ⟨⟨ts, last⟩, isListed, found⟩ := Option.bind_eq_some_iff.1 found
      cases found
      -- The reader has skipped the blanks before the first element, which the element keeps.
      rw [readElements_skipBlanks] at isListed
      obtain ⟨elements, filled, padded, each, rfl, split⟩ := sound.elements isListed
      exact startsWith_of_skipBlanks (by rw [left, split]; simp)
        (.array elements filled padded each)
  · next inside left =>
    split at found
    · next closed =>
      cases found
      obtain ⟨gap, split, blank⟩ := exists_blanks inside
      rw [closed] at split
      exact startsWith_of_skipBlanks (by rw [left, split]; simp) (.emptyObject blank)
    · obtain ⟨⟨ms, last⟩, isListed, found⟩ := Option.bind_eq_some_iff.1 found
      cases found
      rw [readMembers_skipBlanks] at isListed
      obtain ⟨entries, filled, keyed, each, rfl, split⟩ := sound.members isListed
      exact startsWith_of_skipBlanks (by rw [left, split]; simp) (.object entries filled keyed each)
  · obtain ⟨⟨n, last⟩, isNumeral, found⟩ := Option.bind_eq_some_iff.1 found
    cases found
    obtain ⟨text, split, spelled⟩ := Numeral.spells_of_read isNumeral
    exact startsWith_of_skipBlanks split (.number spelled)

theorem readElements (sound : Sound fuel) {ts : List Tree}
    (found : readElements (fuel + 1) cs = some (ts, rest)) :
    ∃ elements : List Element, elements ≠ [] ∧ (∀ e ∈ elements, e.IsPadded) ∧
      (∀ e ∈ elements, Spells e.text e.tree) ∧ ts = elements.map Element.tree ∧
      cs = separated (elements.map Element.written) ++ ']' :: rest := by
  obtain ⟨⟨t, behind⟩, first, found⟩ := Option.bind_eq_some_iff.1 found
  obtain ⟨before, text, splitValue, blank, spelled⟩ := sound.value first
  obtain ⟨after, split, blank'⟩ := exists_blanks behind
  have padded : Element.IsPadded ⟨before, text, after, t⟩ :=
    List.forall_mem_append.2 ⟨blank, blank'⟩
  dsimp only at found
  split at found
  · next more left =>
    obtain ⟨⟨ts, last⟩, others, found⟩ := Option.bind_eq_some_iff.1 found
    cases found
    obtain ⟨elements, filled, padded', each, rfl, text'⟩ := sound.elements others
    refine ⟨⟨before, text, after, t⟩ :: elements, by simp, List.forall_mem_cons.2 ⟨padded, padded'⟩,
      List.forall_mem_cons.2 ⟨spelled, each⟩, rfl, ?_⟩
    rw [List.map_cons, separated_cons _ (by simpa using filled), splitValue, split, left, text']
    simp [Element.written]
  · next last left =>
    cases found
    refine ⟨[⟨before, text, after, t⟩], by simp, by simpa using padded, by simpa using spelled, rfl,
      ?_⟩
    rw [splitValue, split, left]
    simp [Element.written, separated]
  · cases found

theorem readMembers (sound : Sound fuel) {ms : List (Literal × Tree)}
    (found : readMembers (fuel + 1) cs = some (ms, rest)) :
    ∃ entries : List Entry, entries ≠ [] ∧ (∀ e ∈ entries, e.IsKeyed) ∧
      (∀ e ∈ entries, Spells e.text e.tree) ∧ ms = entries.map (fun e => (e.key, e.tree)) ∧
      cs = separated (entries.map Entry.written) ++ '\x7d' :: rest := by
  rw [Tree.readMembers] at found
  obtain ⟨before, split, blank⟩ := exists_blanks cs
  split at found
  · next inside opened =>
    obtain ⟨⟨key, behind⟩, isKey, found⟩ := Option.bind_eq_some_iff.1 found
    obtain ⟨quoted, splitKey, spelledKey⟩ := Literal.spells_of_read isKey
    obtain ⟨middle, splitColon, blankMiddle⟩ := exists_blanks behind
    dsimp only at found
    split at found
    · next start colon =>
      obtain ⟨⟨t, behind'⟩, first, found⟩ := Option.bind_eq_some_iff.1 found
      obtain ⟨gap, text, splitValue, blankGap, spelled⟩ := sound.value first
      obtain ⟨after, splitAfter, blankAfter⟩ := exists_blanks behind'
      have keyed : Entry.IsKeyed ⟨before, quoted, middle, gap, text, after, key, t⟩ :=
        ⟨List.forall_mem_append.2 ⟨List.forall_mem_append.2 ⟨blank, blankMiddle⟩,
          List.forall_mem_append.2 ⟨blankGap, blankAfter⟩⟩, spelledKey⟩
      dsimp only at found
      split at found
      · next more left =>
        obtain ⟨⟨ms, last⟩, others, found⟩ := Option.bind_eq_some_iff.1 found
        cases found
        obtain ⟨entries, filled, keyed', each, rfl, text'⟩ := sound.members others
        refine ⟨⟨before, quoted, middle, gap, text, after, key, t⟩ :: entries, by simp,
          List.forall_mem_cons.2 ⟨keyed, keyed'⟩, List.forall_mem_cons.2 ⟨spelled, each⟩, rfl, ?_⟩
        rw [List.map_cons, separated_cons _ (by simpa using filled), split, opened, splitKey,
          splitColon, colon, splitValue, splitAfter, left, text']
        simp [Entry.written]
      · next last left =>
        cases found
        refine ⟨[⟨before, quoted, middle, gap, text, after, key, t⟩], by simp, by simpa using keyed,
          by simpa using spelled, rfl, ?_⟩
        rw [split, opened, splitKey, splitColon, colon, splitValue, splitAfter, left]
        simp [Entry.written, separated]
      · cases found
    · cases found
  · cases found

end Sound

/-- The readers of values, elements and members read what is spelled, whatever the fuel. -/
theorem sound (fuel : Nat) : Sound fuel := by
  induction fuel with
  | zero =>
    constructor
    all_goals
      intro _ _ _ found
      cases found
  | succ fuel ih => exact ⟨ih.readValue, ih.readElements, ih.readMembers⟩

/-! ### What is spelled so is read -/

/-- No value begins with a blank or with a closing bracket. -/
theorem Spells.head (spelled : Spells text t) :
    ∃ c cs, text = c :: cs ∧ isBlank c = false ∧ c ≠ ']' := by
  cases spelled with
  | null => exact ⟨'n', _, rfl, by decide, by decide⟩
  | yes => exact ⟨'t', _, rfl, by decide, by decide⟩
  | no => exact ⟨'f', _, rfl, by decide, by decide⟩
  | number spelled =>
    obtain ⟨c, cs, text, begins⟩ := spelled.head
    exact ⟨c, cs, text, begins.visible, begins.ne (by decide) (by decide)⟩
  | string => exact ⟨'"', _, rfl, by decide, by decide⟩
  | emptyArray => exact ⟨'[', _, rfl, by decide, by decide⟩
  | array => exact ⟨'[', _, rfl, by decide, by decide⟩
  | emptyObject => exact ⟨'\x7b', _, rfl, by decide, by decide⟩
  | object => exact ⟨'\x7b', _, rfl, by decide, by decide⟩

/-- A text is read as a tree in front of anything that ends a number, and its characters are fuel
    enough. -/
def IsRead (text : List Char) (t : Tree) : Prop :=
  ∀ fuel gap rest, text.length ≤ fuel → (∀ c ∈ gap, isBlank c) → EndsNumber rest →
    readValue fuel (gap ++ (text ++ rest)) = some (t, rest)

/-- The first character inside a filled array is no blank and does not close it. -/
theorem skipBlanks_elements {elements : List Element} (filled : elements ≠ [])
    (padded : ∀ e ∈ elements, e.IsPadded) (each : ∀ e ∈ elements, Spells e.text e.tree)
    (rest : List Char) :
    ∃ c more, skipBlanks (separated (elements.map Element.written) ++ rest) = c :: more ∧
      c ≠ ']' := by
  cases elements with
  | nil => exact absurd rfl filled
  | cons e others =>
    obtain ⟨c, cs, text, visible, inner⟩ := (each e List.mem_cons_self).head
    obtain ⟨before, -⟩ := List.forall_mem_append.1 (padded e List.mem_cons_self)
    obtain ⟨more, split⟩ : ∃ more,
        separated ((e :: others).map Element.written) ++ rest = e.before ++ c :: more := by
      cases others with
      | nil => exact ⟨_, by simp [separated, Element.written, text]; rfl⟩
      | cons other others => exact ⟨_, by simp [separated, Element.written, text]; rfl⟩
    exact ⟨c, more, by rw [split, skipBlanks_blanks before visible], inner⟩

/-- The first character inside a filled object is a quote. -/
theorem skipBlanks_entries {entries : List Entry} (filled : entries ≠ [])
    (keyed : ∀ e ∈ entries, e.IsKeyed) (rest : List Char) :
    ∃ more, skipBlanks (separated (entries.map Entry.written) ++ rest) = '"' :: more := by
  cases entries with
  | nil => exact absurd rfl filled
  | cons e others =>
    obtain ⟨blank, -⟩ := keyed e List.mem_cons_self
    obtain ⟨before, -⟩ := List.forall_mem_append.1 (List.forall_mem_append.1 blank).1
    obtain ⟨more, split⟩ : ∃ more,
        separated ((e :: others).map Entry.written) ++ rest = e.before ++ '"' :: more := by
      cases others with
      | nil => exact ⟨_, by simp [separated, Entry.written]; rfl⟩
      | cons other others => exact ⟨_, by simp [separated, Entry.written]; rfl⟩
    exact ⟨more, by rw [split, skipBlanks_blanks before (by decide)]⟩

theorem readElements_separated {elements : List Element} (fuel : Nat) (filled : elements ≠ [])
    (padded : ∀ e ∈ elements, e.IsPadded) (each : ∀ e ∈ elements, IsRead e.text e.tree)
    (enough : (separated (elements.map Element.written)).length < fuel) (rest : List Char) :
    readElements fuel (separated (elements.map Element.written) ++ ']' :: rest) =
      some (elements.map Element.tree, rest) := by
  induction elements generalizing fuel with
  | nil => exact absurd rfl filled
  | cons e more ih =>
    obtain ⟨fuel, rfl⟩ : ∃ k, fuel = k + 1 := ⟨fuel - 1, by omega⟩
    obtain ⟨before, after⟩ := List.forall_mem_append.1 (padded e List.mem_cons_self)
    have value := each e List.mem_cons_self fuel e.before
    by_cases last : more = []
    · subst last
      have written : separated ([e].map Element.written) ++ ']' :: rest =
          e.before ++ (e.text ++ (e.after ++ ']' :: rest)) := by
        simp [separated, Element.written]
      have short : e.text.length ≤ fuel := by
        simp only [List.map_cons, List.map_nil, separated, Element.written,
          List.length_append] at enough
        omega
      rw [written]
      exact readElements_last (value _ short before (endsNumber_closed after (by simp) rest))
        (skipBlanks_blanks after (by decide) rest)
    · have others : more.map Element.written ≠ [] := by simpa using last
      have written : separated ((e :: more).map Element.written) ++ ']' :: rest =
          e.before ++ (e.text ++ (e.after ++
            ',' :: (separated (more.map Element.written) ++ ']' :: rest))) := by
        rw [List.map_cons, separated_cons _ others]
        simp [Element.written]
      rw [List.map_cons, separated_cons _ others] at enough
      simp only [Element.written, List.length_append, List.length_cons] at enough
      have further := ih fuel last (fun e member => padded e (List.mem_cons_of_mem _ member))
        (fun e member => each e (List.mem_cons_of_mem _ member)) (by omega)
      rw [written, readElements_more
        (value _ (by omega) before (endsNumber_closed after (by simp) _))
        (skipBlanks_blanks after (by decide) _), further]
      rfl

theorem readMembers_separated {entries : List Entry} (fuel : Nat) (filled : entries ≠ [])
    (keyed : ∀ e ∈ entries, e.IsKeyed) (each : ∀ e ∈ entries, IsRead e.text e.tree)
    (enough : (separated (entries.map Entry.written)).length < fuel) (rest : List Char) :
    readMembers fuel (separated (entries.map Entry.written) ++ '\x7d' :: rest) =
      some (entries.map fun e => (e.key, e.tree), rest) := by
  induction entries generalizing fuel with
  | nil => exact absurd rfl filled
  | cons e more ih =>
    obtain ⟨fuel, rfl⟩ : ∃ k, fuel = k + 1 := ⟨fuel - 1, by omega⟩
    obtain ⟨blank, spelled⟩ := keyed e List.mem_cons_self
    obtain ⟨outside, inside⟩ := List.forall_mem_append.1 blank
    obtain ⟨before, middle⟩ := List.forall_mem_append.1 outside
    obtain ⟨gap, after⟩ := List.forall_mem_append.1 inside
    have value := each e List.mem_cons_self fuel e.gap
    by_cases last : more = []
    · subst last
      have written : separated ([e].map Entry.written) ++ '\x7d' :: rest =
          e.before ++ '"' :: (e.quoted ++ '"' :: (e.middle ++ ':' ::
            (e.gap ++ (e.text ++ (e.after ++ '\x7d' :: rest))))) := by
        simp [separated, Entry.written]
      have short : e.text.length ≤ fuel := by
        simp only [List.map_cons, List.map_nil, separated, Entry.written,
          List.length_append, List.length_cons] at enough
        omega
      rw [written]
      exact readMembers_last (skipBlanks_blanks before (by decide) _)
        (Literal.read_of_spells spelled _) (skipBlanks_blanks middle (by decide) _)
        (value _ short gap (endsNumber_closed after (by simp) rest))
        (skipBlanks_blanks after (by decide) rest)
    · have others : more.map Entry.written ≠ [] := by simpa using last
      have written : separated ((e :: more).map Entry.written) ++ '\x7d' :: rest =
          e.before ++ '"' :: (e.quoted ++ '"' :: (e.middle ++ ':' :: (e.gap ++ (e.text ++
            (e.after ++ ',' :: (separated (more.map Entry.written) ++ '\x7d' :: rest)))))) := by
        rw [List.map_cons, separated_cons _ others]
        simp [Entry.written]
      rw [List.map_cons, separated_cons _ others] at enough
      simp only [Entry.written, List.length_append, List.length_cons] at enough
      have further := ih fuel last (fun e member => keyed e (List.mem_cons_of_mem _ member))
        (fun e member => each e (List.mem_cons_of_mem _ member)) (by omega)
      rw [written, readMembers_more (skipBlanks_blanks before (by decide) _)
        (Literal.read_of_spells spelled _) (skipBlanks_blanks middle (by decide) _)
        (value _ (by omega) gap (endsNumber_closed after (by simp) _))
        (skipBlanks_blanks after (by decide) _), further]
      rfl

/-- Blanks in front do not matter, and there is fuel for a text that is not empty. -/
theorem isRead_of_front (filled : text ≠ [])
    (front : ∀ fuel rest, text.length ≤ fuel + 1 → EndsNumber rest →
      readValue (fuel + 1) (text ++ rest) = some (t, rest)) : IsRead text t := by
  intro fuel gap rest enough blank ends
  have positive := List.length_pos_iff.2 filled
  obtain ⟨fuel, rfl⟩ : ∃ k, fuel = k + 1 := ⟨fuel - 1, by omega⟩
  rw [← readValue_skipBlanks, skipBlanks_append blank, readValue_skipBlanks]
  exact front fuel rest enough ends

/-- A spelled value is read, by induction on its derivation. -/
theorem isRead_of_spells (spelled : Spells text t) : IsRead text t := by
  obtain ⟨c, cs, begins, -⟩ := spelled.head
  -- Only a value without blanks in front is left, so that no case has to skip any.
  refine isRead_of_front (by rw [begins]; simp) ?_
  clear begins
  induction spelled with
  | null =>
    intro fuel rest _ _
    rw [readValue, List.cons_append, skipBlanks_cons (by decide)]
    rfl
  | yes =>
    intro fuel rest _ _
    rw [readValue, List.cons_append, skipBlanks_cons (by decide)]
    rfl
  | no =>
    intro fuel rest _ _
    rw [readValue, List.cons_append, skipBlanks_cons (by decide)]
    rfl
  | number spelled =>
    intro fuel rest _ ends
    obtain ⟨c, cs, text, begins⟩ := spelled.head
    have found := Numeral.read_of_spells spelled ends
    rw [text, List.cons_append] at found ⊢
    rw [readValue_number begins, found]
    rfl
  | @string text l spelled =>
    intro fuel rest _ _
    have found := Literal.read_of_spells spelled rest
    rw [readValue, List.cons_append, skipBlanks_cons (by decide), List.append_assoc]
    simp only [List.cons_append, List.nil_append, found]
    rfl
  | @emptyArray gap blank =>
    intro fuel rest _ _
    rw [readValue, List.cons_append, skipBlanks_cons (by decide), List.append_assoc]
    simp only [List.cons_append, List.nil_append,
      skipBlanks_blanks blank (by decide : isBlank ']' = false)]
  | array elements filled padded each ih =>
    intro fuel rest enough _
    -- The elements may have blanks in front, so the induction hypothesis is brought to that form.
    have read : ∀ e ∈ elements, IsRead e.text e.tree := by
      intro e member
      obtain ⟨c, cs, begins, -⟩ := (each e member).head
      exact isRead_of_front (by rw [begins]; simp) (ih e member)
    have listed := readElements_separated fuel filled padded read
      (by simp at enough; omega) rest
    obtain ⟨c, more, opened, inner⟩ := skipBlanks_elements filled padded each (']' :: rest)
    rw [List.cons_append, List.append_assoc, List.singleton_append,
      readValue_array opened inner, ← opened, readElements_skipBlanks, listed]
    rfl
  | @emptyObject gap blank =>
    intro fuel rest _ _
    rw [readValue, List.cons_append, skipBlanks_cons (by decide), List.append_assoc]
    simp only [List.cons_append, List.nil_append,
      skipBlanks_blanks blank (by decide : isBlank '\x7d' = false)]
  | object entries filled keyed each ih =>
    intro fuel rest enough _
    have read : ∀ e ∈ entries, IsRead e.text e.tree := by
      intro e member
      obtain ⟨c, cs, begins, -⟩ := (each e member).head
      exact isRead_of_front (by rw [begins]; simp) (ih e member)
    have listed := readMembers_separated fuel filled keyed read
      (by simp at enough; omega) rest
    obtain ⟨more, opened⟩ := skipBlanks_entries filled keyed ('\x7d' :: rest)
    rw [List.cons_append, List.append_assoc, List.singleton_append,
      readValue_object opened (by decide), ← opened, readMembers_skipBlanks, listed]
    rfl

/-- A spelled value at the start of a text is read, in front of anything that ends a number. -/
theorem read_of_spells (spelled : Spells text t) (ends : EndsNumber rest) :
    read (text ++ rest) = some (t, rest) := by
  have enough : text.length ≤ (text ++ rest).length + 1 := by
    rw [List.length_append]
    omega
  exact isRead_of_spells spelled _ [] rest enough (by simp) ends

theorem startsWith_of_read (found : read cs = some (t, rest)) : StartsWith cs t rest :=
  (sound _).value found

/-- A text has a tree if it is a spelled value with blanks around it. -/
theorem ofChars?_eq_some_iff : ofChars? cs = some t ↔
    ∃ before text after, cs = before ++ (text ++ after) ∧ (∀ c ∈ before ++ after, isBlank c) ∧
      Spells text t := by
  unfold ofChars?
  constructor
  · intro found
    split at found
    · next t' rest isRead =>
      split at found
      · next closed =>
        cases found
        obtain ⟨before, text, split, blank, spelled⟩ := startsWith_of_read isRead
        have blank' := List.dropWhile_eq_nil_iff.1 (List.isEmpty_iff.1 closed)
        exact ⟨before, text, rest, split, List.forall_mem_append.2 ⟨blank, blank'⟩, spelled⟩
      · cases found
    · cases found
  · rintro ⟨before, text, after, rfl, blank, spelled⟩
    obtain ⟨front, back⟩ := List.forall_mem_append.1 blank
    have ends : EndsNumber after := by
      have closed := endsNumber_blanks back endsNumber_nil
      rwa [List.append_nil] at closed
    have short : text.length ≤ (before ++ (text ++ after)).length + 1 := by
      simp only [List.length_append]
      omega
    have found : read (before ++ (text ++ after)) = some (t, after) :=
      isRead_of_spells spelled _ before after short front ends
    have closed : skipBlanks after = [] := List.dropWhile_eq_nil_iff.2 back
    simp only [found, closed]
    rfl

/-- The text is one value, blanks aside, which is spelled there. -/
def IsSpelledBy (t : Tree) (text : String) : Prop :=
  ∃ before inside after, text.toList = before ++ (inside ++ after) ∧
    (∀ c ∈ before ++ after, isBlank c) ∧ Spells inside t

theorem ofText?_eq_some_iff {text : String} : ofText? text = some t ↔ t.IsSpelledBy text :=
  ofChars?_eq_some_iff

/-- A text is one value only. -/
theorem IsSpelledBy.unique {text : String} {t' : Tree} (written : t.IsSpelledBy text)
    (written' : t'.IsSpelledBy text) : t = t' :=
  Option.some.inj ((ofText?_eq_some_iff.2 written).symm.trans (ofText?_eq_some_iff.2 written'))

end Tree

/-! ## Objects -/

/-- The text is one object with these entries, blanks aside. -/
def IsObject (cs : List Char) (entries : List Entry) : Prop :=
  ∃ before inside after, cs = before ++ '\x7b' :: (inside ++ '\x7d' :: after) ∧
    (∀ c ∈ before ++ after, isBlank c) ∧
    (entries = [] ∧ (∀ c ∈ inside, isBlank c) ∨
      entries ≠ [] ∧ inside = separated (entries.map Entry.written)) ∧
    ∀ e ∈ entries, e.IsKeyed ∧ Tree.Spells e.text e.tree

end ErrorIntake.Json
