import ErrorIntake.Proofs.Json.Literal
import ErrorIntake.Proofs.Json.Shape

/-!
# Printed values are read back

The text of a value is read as one known tree, `Value.tree`.  The proof is by induction on the
value: a value in front of other text is read up to that text, given fuel for its characters.
-/

namespace ErrorIntake.Json

namespace Value

mutual

/-- The tree that the text of a value is read as. -/
def tree : Value → Tree
  | .null => .null
  | .bool b => .bool b
  | .number n => .number n.numeral
  | .string s => .string (Literal.ofText s)
  | .array elements => .array (elementTrees elements)
  | .object members => .object (memberTrees members)

/-- The trees of elements. -/
def elementTrees : List Value → List Tree
  | [] => []
  | v :: rest => v.tree :: elementTrees rest

/-- The trees of members under their keys. -/
def memberTrees : List (String × Value) → List (Literal × Tree)
  | [] => []
  | (key, v) :: rest => (Literal.ofText key, v.tree) :: memberTrees rest

end

theorem elementTrees_eq_map (elements : List Value) : elementTrees elements = elements.map tree := by
  induction elements with
  | nil => rfl
  | cons v rest ih => rw [elementTrees, ih, List.map_cons]

theorem memberTrees_eq_map (members : List (String × Value)) :
    memberTrees members = members.map fun m => (Literal.ofText m.1, m.2.tree) := by
  induction members with
  | nil => rfl
  | cons m rest ih => rw [memberTrees, ih, List.map_cons]

/-- The text of a number stands for the number. -/
def NumberReadsBack : Value → Prop
  | .number n => n.ReadsBack
  | _ => True

end Value

/-! ## The first character of a value -/

theorem skipBlanks_cons {c : Char} (visible : isBlank c = false) (cs : List Char) :
    skipBlanks (c :: cs) = c :: cs := by
  simp [skipBlanks, visible]

theorem endsNumber_cons {c : Char} (digit : Text.isDigit c = false) (point : c ≠ '.')
    (small : c ≠ 'e') (capital : c ≠ 'E') (rest : List Char) : EndsNumber (c :: rest) := by
  intro other first
  cases first
  exact ⟨digit, point, small, capital⟩

/-- A character that begins a number. -/
def BeginsNumber (c : Char) : Prop := c = '-' ∨ Text.isDigit c = true

/-- A character that begins a number begins nothing else. -/
theorem BeginsNumber.ne {c d : Char} (h : BeginsNumber c) (minus : d ≠ '-')
    (digit : Text.isDigit d = false) : c ≠ d := by
  rintro rfl
  rcases h with same | digit'
  · exact minus same
  · rw [digit] at digit'
    cases digit'

theorem BeginsNumber.visible {c : Char} (h : BeginsNumber c) : isBlank c = false := by
  have space := h.ne (d := ' ') (by decide) (by decide)
  have tab := h.ne (d := '\t') (by decide) (by decide)
  have line := h.ne (d := '\n') (by decide) (by decide)
  have return_ := h.ne (d := '\r') (by decide) (by decide)
  simp [isBlank, space, tab, line, return_]

namespace Value

/-- No value begins with a blank or with a closing bracket. -/
theorem chars_head {v : Value} (h : v.NumberReadsBack) :
    ∃ c cs, v.chars = c :: cs ∧ isBlank c = false ∧ c ≠ ']' := by
  cases v with
  | null => exact ⟨'n', _, rfl, by decide, by decide⟩
  | bool b =>
    cases b with
    | true => exact ⟨'t', _, rfl, by decide, by decide⟩
    | false => exact ⟨'f', _, rfl, by decide, by decide⟩
  | number n =>
    obtain ⟨c, cs, chars, begins⟩ := Numeral.head_of_read (Number.read_toText h).1
    have begins : BeginsNumber c := begins
    exact ⟨c, cs, chars, begins.visible, begins.ne (by decide) (by decide)⟩
  | string s => exact ⟨'"', _, rfl, by decide, by decide⟩
  | array elements => exact ⟨'[', _, rfl, by decide, by decide⟩
  | object members => exact ⟨'\x7b', _, rfl, by decide, by decide⟩

end Value

namespace Tree

/-! ## Reading one value -/

theorem readValue_number {c : Char} (begins : BeginsNumber c) (fuel : Nat) (cs : List Char) :
    readValue (fuel + 1) (c :: cs) =
      (Numeral.read (c :: cs)).map fun p => (.number p.1, p.2) := by
  have n := begins.ne (d := 'n') (by decide) (by decide)
  have t := begins.ne (d := 't') (by decide) (by decide)
  have f := begins.ne (d := 'f') (by decide) (by decide)
  have quote := begins.ne (d := '"') (by decide) (by decide)
  have bracket := begins.ne (d := '[') (by decide) (by decide)
  have brace := begins.ne (d := '\x7b') (by decide) (by decide)
  rw [readValue, skipBlanks_cons begins.visible]
  split
  · next heq =>
    cases heq
    exact absurd rfl n
  · next heq =>
    cases heq
    exact absurd rfl t
  · next heq =>
    cases heq
    exact absurd rfl f
  · next heq =>
    cases heq
    exact absurd rfl quote
  · next heq =>
    cases heq
    exact absurd rfl bracket
  · next heq =>
    cases heq
    exact absurd rfl brace
  · cases Numeral.read (c :: cs) <;> rfl

theorem readValue_string (fuel : Nat) (s : String) (rest : List Char) :
    readValue (fuel + 1) (Literal.quote s ++ rest) = some (.string (Literal.ofText s), rest) := by
  have text : Literal.quote s ++ rest =
      '"' :: (s.toList.flatMap Literal.quoteChar ++ '"' :: rest) := by
    simp [Literal.quote]
  rw [text, readValue, skipBlanks_cons (by decide)]
  simp only [Literal.read_quoted]
  rfl

/-! ## Reading what stands inside -/

section

variable {cs inside behind start left more rest : List Char} {fuel : Nat} {t : Tree} {key : Literal}

/-- An array with something in it is read as its elements are. -/
theorem readValue_array {c : Char} (opened : skipBlanks inside = c :: more) (inner : c ≠ ']') :
    readValue (fuel + 1) ('[' :: inside) =
      (readElements fuel (c :: more)).map fun p => (.array p.1, p.2) := by
  rw [readValue, skipBlanks_cons (by decide)]
  simp only [opened]
  split
  · next heq =>
    cases heq
    exact absurd rfl inner
  · cases readElements fuel (c :: more) <;> rfl

/-- An object with something in it is read as its members are. -/
theorem readValue_object {c : Char} (opened : skipBlanks inside = c :: more)
    (inner : c ≠ '\x7d') :
    readValue (fuel + 1) ('\x7b' :: inside) =
      (readMembers fuel (c :: more)).map fun p => (.object p.1, p.2) := by
  rw [readValue, skipBlanks_cons (by decide)]
  simp only [opened]
  split
  · next heq =>
    cases heq
    exact absurd rfl inner
  · cases readMembers fuel (c :: more) <;> rfl

/-- An element with a comma behind it is read, and then the others. -/
theorem readElements_more (value : readValue fuel cs = some (t, left))
    (comma : skipBlanks left = ',' :: more) :
    readElements (fuel + 1) cs = (readElements fuel more).map fun p => (t :: p.1, p.2) := by
  rw [readElements, value]
  simp only [Option.bind_eq_bind, Option.bind_some, comma]
  cases readElements fuel more <;> rfl

/-- An element with the closing bracket behind it is read alone. -/
theorem readElements_last (value : readValue fuel cs = some (t, left))
    (closed : skipBlanks left = ']' :: rest) : readElements (fuel + 1) cs = some ([t], rest) := by
  rw [readElements, value]
  simp only [Option.bind_eq_bind, Option.bind_some, closed]
  rfl

/-- A member with a comma behind it is read, and then the others. -/
theorem readMembers_more (opened : skipBlanks cs = '"' :: inside)
    (isKey : Literal.read inside = some (key, behind)) (colon : skipBlanks behind = ':' :: start)
    (value : readValue fuel start = some (t, left)) (comma : skipBlanks left = ',' :: more) :
    readMembers (fuel + 1) cs = (readMembers fuel more).map fun p => ((key, t) :: p.1, p.2) := by
  rw [readMembers]
  simp only [opened, isKey, Option.bind_eq_bind, Option.bind_some, colon, value, comma]
  cases readMembers fuel more <;> rfl

/-- A member with the closing brace behind it is read alone. -/
theorem readMembers_last (opened : skipBlanks cs = '"' :: inside)
    (isKey : Literal.read inside = some (key, behind)) (colon : skipBlanks behind = ':' :: start)
    (value : readValue fuel start = some (t, left)) (closed : skipBlanks left = '\x7d' :: rest) :
    readMembers (fuel + 1) cs = some ([(key, t)], rest) := by
  rw [readMembers]
  simp only [opened, isKey, Option.bind_eq_bind, Option.bind_some, colon, value, closed]
  rfl

end

end Tree

namespace Value

/-! ## Reading any value -/

/-- The text of the value is read as its tree, in front of any text that ends a number. -/
def IsRead (v : Value) : Prop :=
  ∀ fuel rest, v.chars.length < fuel → EndsNumber rest →
    Tree.readValue fuel (v.chars ++ rest) = some (v.tree, rest)

theorem readElements_chars {elements : List Value} (nonempty : elements ≠ [])
    (read : ∀ v ∈ elements, v.IsRead) {fuel : Nat}
    (enough : (elementChars elements).length + 1 < fuel) (rest : List Char) :
    Tree.readElements fuel (elementChars elements ++ ']' :: rest) =
      some (elementTrees elements, rest) := by
  induction elements generalizing fuel with
  | nil => exact absurd rfl nonempty
  | cons v more ih =>
    obtain ⟨fuel, rfl⟩ : ∃ k, fuel = k + 1 := ⟨fuel - 1, by omega⟩
    have readFirst := read v List.mem_cons_self
    cases more with
    | nil =>
      rw [elementChars] at enough ⊢
      have ends : EndsNumber (']' :: rest) :=
        endsNumber_cons (by decide) (by decide) (by decide) (by decide) rest
      exact Tree.readElements_last (readFirst fuel (']' :: rest) (by omega) ends)
        (skipBlanks_cons (by decide) rest)
    | cons w more =>
      simp only [elementChars, List.append_assoc, List.cons_append, List.length_append,
        List.length_cons] at enough ⊢
      have ends : ∀ rest, EndsNumber (',' :: rest) :=
        endsNumber_cons (by decide) (by decide) (by decide) (by decide)
      have enoughRest : (elementChars (w :: more)).length + 1 < fuel := by omega
      have readRest := ih (by simp) (fun v hv => read v (List.mem_cons_of_mem _ hv)) enoughRest
      rw [Tree.readElements_more (readFirst fuel _ (by omega) (ends _))
        (skipBlanks_cons (by decide) _), readRest]
      rfl

theorem quote_append (key : String) (rest : List Char) :
    Literal.quote key ++ ':' :: rest =
      '"' :: (key.toList.flatMap Literal.quoteChar ++ '"' :: ':' :: rest) := by
  simp [Literal.quote]

theorem readMembers_chars {members : List (String × Value)} (nonempty : members ≠ [])
    (read : ∀ m ∈ members, m.2.IsRead) {fuel : Nat}
    (enough : (memberChars members).length + 1 < fuel) (rest : List Char) :
    Tree.readMembers fuel (memberChars members ++ '\x7d' :: rest) =
      some (memberTrees members, rest) := by
  induction members generalizing fuel with
  | nil => exact absurd rfl nonempty
  | cons m more ih =>
    obtain ⟨key, v⟩ := m
    obtain ⟨fuel, rfl⟩ : ∃ k, fuel = k + 1 := ⟨fuel - 1, by omega⟩
    have readFirst : v.IsRead := read (key, v) List.mem_cons_self
    cases more with
    | nil =>
      simp only [memberChars, List.append_assoc, List.cons_append, List.length_append,
        List.length_cons] at enough ⊢
      have ends : EndsNumber ('\x7d' :: rest) :=
        endsNumber_cons (by decide) (by decide) (by decide) (by decide) rest
      rw [quote_append]
      exact Tree.readMembers_last (skipBlanks_cons (by decide) _) (Literal.read_quoted key _)
        (skipBlanks_cons (by decide) _) (readFirst fuel ('\x7d' :: rest) (by omega) ends)
        (skipBlanks_cons (by decide) rest)
    | cons w more =>
      simp only [memberChars, List.append_assoc, List.cons_append, List.length_append,
        List.length_cons] at enough ⊢
      have ends : ∀ rest, EndsNumber (',' :: rest) :=
        endsNumber_cons (by decide) (by decide) (by decide) (by decide)
      have enoughRest : (memberChars (w :: more)).length + 1 < fuel := by omega
      have readRest := ih (by simp) (fun m hm => read m (List.mem_cons_of_mem _ hm)) enoughRest
      rw [quote_append, Tree.readMembers_more (skipBlanks_cons (by decide) _)
        (Literal.read_quoted key _) (skipBlanks_cons (by decide) _)
        (readFirst fuel _ (by omega) (ends _)) (skipBlanks_cons (by decide) _), readRest]
      rfl

theorem elementChars_head {v : Value} (h : v.NumberReadsBack) (more : List Value) :
    ∃ c cs, elementChars (v :: more) = c :: cs ∧ isBlank c = false ∧ c ≠ ']' := by
  obtain ⟨c, cs, chars, visible, inner⟩ := chars_head h
  cases more with
  | nil => exact ⟨c, cs, by rw [elementChars, chars], visible, inner⟩
  | cons w more => exact ⟨c, _, by rw [elementChars, chars]; rfl, visible, inner⟩

theorem memberChars_head (m : String × Value) (more : List (String × Value)) :
    ∃ cs, memberChars (m :: more) = '"' :: cs := by
  cases more with
  | nil => exact ⟨_, rfl⟩
  | cons w more => exact ⟨_, rfl⟩

theorem isRead_array {elements : List Value} (read : ∀ v ∈ elements, v.IsRead)
    (numbers : ∀ v ∈ elements, v.NumberReadsBack) : (array elements).IsRead := by
  intro fuel rest enough _
  obtain ⟨fuel, rfl⟩ : ∃ k, fuel = k + 1 := ⟨fuel - 1, by omega⟩
  cases elements with
  | nil =>
    show Tree.readValue (fuel + 1) ('[' :: ']' :: rest) = _
    rw [Tree.readValue, skipBlanks_cons (by decide)]
    simp only [skipBlanks_cons (by decide : isBlank ']' = false)]
    rfl
  | cons v more =>
    have enoughInner : (elementChars (v :: more)).length + 1 < fuel := by
      simp only [Value.chars, List.cons_append, List.length_cons, List.length_append,
        List.length_nil] at enough
      omega
    have elements := readElements_chars (by simp) read enoughInner rest
    obtain ⟨c, cs, chars, visible, inner⟩ :=
      elementChars_head (numbers v List.mem_cons_self) more
    rw [chars] at elements
    rw [Value.chars, chars, List.cons_append, List.cons_append, List.append_assoc,
      List.cons_append, Tree.readValue_array (skipBlanks_cons visible _) inner]
    simp only [List.cons_append, List.nil_append] at elements ⊢
    rw [elements]
    rfl

theorem isRead_object {members : List (String × Value)} (read : ∀ m ∈ members, m.2.IsRead) :
    (object members).IsRead := by
  intro fuel rest enough _
  obtain ⟨fuel, rfl⟩ : ∃ k, fuel = k + 1 := ⟨fuel - 1, by omega⟩
  cases members with
  | nil =>
    show Tree.readValue (fuel + 1) ('\x7b' :: '\x7d' :: rest) = _
    rw [Tree.readValue, skipBlanks_cons (by decide)]
    simp only [skipBlanks_cons (by decide : isBlank '\x7d' = false)]
    rfl
  | cons m more =>
    have enoughInner : (memberChars (m :: more)).length + 1 < fuel := by
      simp only [Value.chars, List.cons_append, List.length_cons, List.length_append,
        List.length_nil] at enough
      omega
    have members := readMembers_chars (by simp) read enoughInner rest
    obtain ⟨cs, chars⟩ := memberChars_head m more
    rw [chars] at members
    rw [Value.chars, chars, List.cons_append, List.cons_append, List.append_assoc,
      List.cons_append, Tree.readValue_object (c := '"') (skipBlanks_cons (by decide) _) (by decide)]
    simp only [List.cons_append] at members ⊢
    rw [List.nil_append, members]
    rfl

theorem isRead_null : null.IsRead := by
  intro fuel rest enough _
  obtain ⟨fuel, rfl⟩ : ∃ k, fuel = k + 1 := ⟨fuel - 1, by omega⟩
  show Tree.readValue (fuel + 1) ('n' :: 'u' :: 'l' :: 'l' :: rest) = _
  rw [Tree.readValue, skipBlanks_cons (by decide)]
  rfl

/-- A number is read as its numeral, whether or not the numeral stands for it. -/
theorem isRead_number {n : Number} (reads : Numeral.read n.toText.toList = some (n.numeral, [])) :
    (number n).IsRead := by
  intro fuel rest enough ends
  obtain ⟨fuel, rfl⟩ : ∃ k, fuel = k + 1 := ⟨fuel - 1, by omega⟩
  obtain ⟨c, cs, chars, begins⟩ := Numeral.head_of_read reads
  have whole := Numeral.read_append ends reads
  rw [chars] at whole
  rw [Value.chars, chars, List.cons_append, Tree.readValue_number begins, ← List.cons_append, whole]
  rfl

theorem isRead_string (s : String) : (string s).IsRead := by
  intro fuel rest enough _
  obtain ⟨fuel, rfl⟩ : ∃ k, fuel = k + 1 := ⟨fuel - 1, by omega⟩
  exact Tree.readValue_string fuel s rest

/-- The text of a value is read as its tree if the texts of its numbers are. -/
theorem isRead (v : Value) (numbers : v.Each NumberReadsBack) : v.IsRead := by
  induction v using Value.induct with
  | null => exact isRead_null
  | bool b =>
    intro fuel rest enough _
    obtain ⟨fuel, rfl⟩ : ∃ k, fuel = k + 1 := ⟨fuel - 1, by omega⟩
    cases b with
    | true =>
      show Tree.readValue (fuel + 1) ('t' :: 'r' :: 'u' :: 'e' :: rest) = _
      rw [Tree.readValue, skipBlanks_cons (by decide)]
      rfl
    | false =>
      show Tree.readValue (fuel + 1) ('f' :: 'a' :: 'l' :: 's' :: 'e' :: rest) = _
      rw [Tree.readValue, skipBlanks_cons (by decide)]
      rfl
  | number n => exact isRead_number (Number.read_toText (each_number.1 numbers)).1
  | string s => exact isRead_string s
  | array elements ih =>
    have inner := (each_array.1 numbers).2
    exact isRead_array (fun v hv => ih v hv (inner v hv)) fun v hv => (inner v hv).self
  | object members ih =>
    have inner := (each_object.1 numbers).2
    exact isRead_object fun m hm => ih m hm (inner m hm)

/-- The whole text of a value is read as its tree. -/
theorem ofText?_toText {v : Value} (numbers : v.Each NumberReadsBack) :
    Tree.ofText? v.toText = some v.tree := by
  have read := isRead v numbers (v.chars.length + 1) [] (by omega) endsNumber_nil
  rw [List.append_nil] at read
  rw [Tree.ofText?, toText, String.toList_ofList, Tree.ofChars?, Tree.read, read]
  rfl

/-- The text of an array is read as the trees of its elements. -/
theorem ofText?_array {vs : List Value} (numbers : ∀ v ∈ vs, v.Each NumberReadsBack) :
    Tree.ofText? (array vs).toText = some (.array (vs.map tree)) := by
  rw [ofText?_toText (each_array.2 ⟨trivial, numbers⟩), tree, elementTrees_eq_map]

end Value

end ErrorIntake.Json
