import ErrorIntake.Proofs.Json.Suffix
import ErrorIntake.Proofs.Table
import ErrorIntake.Submission.Body

/-!
# The members of a body

How an object with given members is written is said here without a reader of objects: blanks, quotes,
colons and commas stand between the keys and the texts of the values.  A body that is read is written
like that, so its payload has the texts of the values character for character.
-/

namespace ErrorIntake.Submission

open Json (Literal Tree Value)

namespace Body

/-! ## How members are written -/

/-- The text begins with a member, blanks aside: a key between quotes, a colon, and the text of a
    value.  The rest stands behind that. -/
def StartsWithMember (cs : List Char) (key : Literal) (raw : String) (rest : List Char) : Prop :=
  ∃ before quoted middle gap : List Char,
    cs = before ++ '"' :: (quoted ++ (middle ++ ':' :: (gap ++ (raw.toList ++ rest)))) ∧
    (∀ c ∈ before ++ middle ++ gap, Json.isBlank c) ∧
    Literal.read (quoted ++ (middle ++ ':' :: (gap ++ (raw.toList ++ rest)))) =
      some (key, middle ++ ':' :: (gap ++ (raw.toList ++ rest))) ∧
    Json.skipBlanks (raw.toList ++ rest) = raw.toList ++ rest ∧
    ∃ t, Tree.read (raw.toList ++ rest) = some (t, rest)

/-- The text lists members with commas between them, up to the brace that closes their object. -/
inductive Lists : List Char → List (Literal × String) → List Char → Prop
  | last {cs gap rest : List Char} {key : Literal} {raw : String}
      (member : StartsWithMember cs key raw (gap ++ '\x7d' :: rest))
      (blank : ∀ c ∈ gap, Json.isBlank c) : Lists cs [(key, raw)] rest
  | more {cs gap next rest : List Char} {key : Literal} {raw : String}
      {members : List (Literal × String)}
      (member : StartsWithMember cs key raw (gap ++ ',' :: next))
      (blank : ∀ c ∈ gap, Json.isBlank c) (further : Lists next members rest) :
      Lists cs ((key, raw) :: members) rest

/-- The text is one object with these members, blanks aside. -/
def IsObjectOf (cs : List Char) (members : List (Literal × String)) : Prop :=
  ∃ before inside after : List Char, cs = before ++ '\x7b' :: inside ∧
    (∀ c ∈ before ++ after, Json.isBlank c) ∧
    (Lists inside members after ∨
      members = [] ∧ ∃ gap, (∀ c ∈ gap, Json.isBlank c) ∧ inside = gap ++ '\x7d' :: after)

/-- The body is written as one object with these members, in their order. -/
def IsWritten (body : Bytes) (members : List (String × String)) : Prop :=
  ∃ text literals, Text.ofBytes? body = some text ∧ IsObjectOf text.toList literals ∧
    List.Forall₂ (fun l m => l.1.text? = some m.1 ∧ l.2 = m.2) literals members

/-! ## What is read is written so -/

/-- What was read between two places is the text between them. -/
theorem between_append (raw after : List Char) : between (raw ++ after) after = raw := by
  rw [between, List.length_append, Nat.add_sub_cancel, List.take_left]

theorem startsWithMember {cs inside behind start rest : List Char} {key : Literal} {t : Tree}
    (opened : Json.skipBlanks cs = '"' :: inside) (isKey : Literal.read inside = some (key, behind))
    (colon : Json.skipBlanks behind = ':' :: start)
    (isValue : Tree.read (Json.skipBlanks start) = some (t, rest)) :
    StartsWithMember cs key (String.ofList (between (Json.skipBlanks start) rest)) rest := by
  obtain ⟨before, text, blankBefore⟩ := Json.exists_blanks cs
  obtain ⟨middle, text', blankMiddle⟩ := Json.exists_blanks behind
  obtain ⟨gap, text'', blankGap⟩ := Json.exists_blanks start
  obtain ⟨quoted, whole⟩ := Literal.read_suffix isKey
  obtain ⟨raw, value⟩ := Tree.read_suffix isValue
  rw [opened] at text
  rw [colon] at text'
  have still : Json.skipBlanks (raw ++ rest) = raw ++ rest := by
    rw [value, Json.skipBlanks_skipBlanks]
  rw [← value] at text'' isValue ⊢
  rw [between_append]
  subst text''
  subst text'
  subst whole
  refine ⟨before, quoted, middle, gap, ?_, ?_, ?_, ?_, t, ?_⟩
  · rw [String.toList_ofList]
    exact text
  · intro c member
    rcases List.mem_append.1 member with member | inGap
    · rcases List.mem_append.1 member with inBefore | inMiddle
      · exact blankBefore c inBefore
      · exact blankMiddle c inMiddle
    · exact blankGap c inGap
  · rw [String.toList_ofList]
    exact isKey
  · rw [String.toList_ofList]
    exact still
  · rw [String.toList_ofList]
    exact isValue

theorem lists_of_readMembers {fuel : Nat} {cs rest : List Char} {members : List (Literal × String)}
    (read : readMembers fuel cs = some (members, rest)) : Lists cs members rest := by
  induction fuel generalizing cs members with
  | zero => cases read
  | succ fuel ih =>
    rw [readMembers] at read
    split at read
    · next inside opened =>
      obtain ⟨⟨key, behind⟩, isKey, read⟩ := Option.bind_eq_some_iff.1 read
      dsimp only at read
      split at read
      · next start colon =>
        obtain ⟨⟨t, left⟩, isValue, read⟩ := Option.bind_eq_some_iff.1 read
        have member := startsWithMember opened isKey colon isValue
        obtain ⟨gap, text, blank⟩ := Json.exists_blanks left
        dsimp only at read
        split at read
        · next next comma =>
          rw [comma] at text
          subst text
          obtain ⟨⟨others, last⟩, further, read⟩ := Option.bind_eq_some_iff.1 read
          cases read
          exact .more member blank (ih further)
        · next last closed =>
          rw [closed] at text
          subst text
          cases read
          exact .last member blank
        · cases read
      · cases read
    · cases read

theorem isObjectOf_of_members? {cs : List Char} {members : List (Literal × String)}
    (read : members? cs = some members) : IsObjectOf cs members := by
  obtain ⟨before, text, blankBefore⟩ := Json.exists_blanks cs
  have ended {found : List (Literal × String)} {after : List Char}
      (last : (if (Json.skipBlanks after).isEmpty then some found else none) = some members) :
      found = members ∧ ∀ c ∈ before ++ after, Json.isBlank c := by
    split at last
    · next empty =>
      cases last
      refine ⟨rfl, fun c member => ?_⟩
      rcases List.mem_append.1 member with front | back
      · exact blankBefore c front
      · exact List.dropWhile_eq_nil_iff.1 (List.isEmpty_iff.1 empty) c back
    · cases last
  unfold members? at read
  split at read
  · next inside opened =>
    rw [opened] at text
    dsimp only at read
    split at read
    · next after closed =>
      obtain ⟨rfl, blank⟩ := ended read
      obtain ⟨gap, filled, blankGap⟩ := Json.exists_blanks inside
      rw [closed] at filled
      exact ⟨before, inside, after, text, blank, .inr ⟨rfl, gap, blankGap, filled⟩⟩
    · obtain ⟨⟨found, after⟩, listed, read⟩ := Option.bind_eq_some_iff.1 read
      obtain ⟨rfl, blank⟩ := ended read
      exact ⟨before, inside, after, text, blank, .inl (lists_of_readMembers listed)⟩
  · cases read

/-- A body with a payload is written as an object, whose last member under a key counts. -/
theorem isWritten_of_payload? {body : Bytes} {payload : Payload}
    (read : payload? body = some payload) :
    ∃ members, IsWritten body members ∧ payload = .ofList members := by
  obtain ⟨text, isText, read⟩ := Option.bind_eq_some_iff.1 read
  obtain ⟨literals, found, read⟩ := Option.bind_eq_some_iff.1 read
  obtain ⟨members, named, read⟩ := Option.bind_eq_some_iff.1 read
  cases read
  refine ⟨members, ⟨text, literals, isText, isObjectOf_of_members? found, ?_⟩, rfl⟩
  refine (mapM_eq_some_iff.1 named).imp fun l m read => ?_
  obtain ⟨key, isKey, read⟩ := Option.map_eq_some_iff.1 read
  cases read
  exact ⟨isKey, rfl⟩

end Body

end ErrorIntake.Submission
