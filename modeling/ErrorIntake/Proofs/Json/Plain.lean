import ErrorIntake.Proofs.Json.Decode

/-!
# Texts that embed no text

A text in which no object has the key of embedded texts has one nesting only, its own: what it means
is nested no deeper than the reader has followed it, and no object in that opens like an embedded
text.
-/

namespace ErrorIntake.Json

/-- No object has the key of embedded texts. -/
inductive Tree.IsPlain : Tree → Prop
  | null : IsPlain .null
  | bool (b : Bool) : IsPlain (.bool b)
  | number (n : Numeral) : IsPlain (.number n)
  | string (l : Literal) : IsPlain (.string l)
  | array {elements : List Tree} (inside : ∀ t ∈ elements, IsPlain t) : IsPlain (.array elements)
  | object {members : List (Literal × Tree)}
      (keys : ∀ m ∈ members, m.1.text? ≠ some embeddingKey) (inside : ∀ m ∈ members, IsPlain m.2) :
      IsPlain (.object members)

namespace Value

variable {embedded : Option (String → Option Value)} {room : Nat}

/-- Every member that is read stands in the text, if it did not stand before. -/
theorem mem_ofMembers? {ts : List (Literal × Tree)} {before out : List (String × Value)}
    (read : ofMembers? embedded room before ts = some out) {e : String × Value} (he : e ∈ out) :
    e ∈ before ∨ ∃ m ∈ ts, m.1.text? = some e.1 ∧ ofTreeWith? embedded room m.2 = some e.2 := by
  induction ts generalizing before with
  | nil =>
    cases read
    exact .inl he
  | cons m rest ih =>
    obtain ⟨l, t⟩ := m
    rw [ofMembers?] at read
    obtain ⟨key, named, read⟩ := Option.bind_eq_some_iff.1 read
    obtain ⟨v, found, read⟩ := Option.bind_eq_some_iff.1 read
    rcases ih read with earlier | ⟨m, hm, here⟩
    · rcases Table.mem_insertEntry earlier with rfl | earlier
      · exact .inr ⟨(l, t), List.mem_cons_self, named, found⟩
      · exact .inl earlier
    · exact .inr ⟨m, List.mem_cons_of_mem _ hm, here⟩

/-- The value of a text that embeds none is nested no deeper than there was room for, and opens
    plainly throughout. -/
theorem legible_of_isPlain {valueOf : String → Option Value} {t : Tree} {v : Value}
    (plain : t.IsPlain) (read : ofTreeWith? (some valueOf) room t = some v) :
    v.depth ≤ room ∧ v.Each OpensPlainly := by
  induction plain generalizing room v with
  | null =>
    cases read
    exact ⟨Nat.zero_le _, each_null.2 trivial⟩
  | bool b =>
    cases read
    exact ⟨Nat.zero_le _, each_bool.2 trivial⟩
  | number n =>
    obtain ⟨n, -, same⟩ := Option.map_eq_some_iff.1 read
    cases same
    exact ⟨Nat.zero_le _, each_number.2 trivial⟩
  | string l =>
    obtain ⟨s, -, same⟩ := Option.map_eq_some_iff.1 read
    cases same
    exact ⟨Nat.zero_le _, each_string.2 trivial⟩
  | array _ ih =>
    cases room with
    | zero => cases read
    | succ room =>
      obtain ⟨vs, inside, same⟩ := Option.map_eq_some_iff.1 read
      cases same
      rw [ofElements?_eq_mapM] at inside
      have legible : ∀ v ∈ vs, v.depth ≤ room ∧ v.Each OpensPlainly := by
        intro v hv
        obtain ⟨t, ht, found⟩ := exists_of_mapM_eq_some inside hv
        exact ih t ht found
      exact ⟨depth_array_le.2 fun v hv => (legible v hv).1,
        each_array.2 ⟨trivial, fun v hv => (legible v hv).2⟩⟩
  | @object ts keys _ ih =>
    cases room with
    | zero => cases read
    | succ room =>
      have opens : ¬ isEmbedding ts = true := by
        cases ts with
        | nil => simp [isEmbedding]
        | cons m rest => simpa [isEmbedding] using keys m List.mem_cons_self
      rw [ofTreeWith?, if_neg opens] at read
      obtain ⟨out, inside, same⟩ := Option.map_eq_some_iff.1 read
      cases same
      have stands : ∀ e ∈ out, e.1 ≠ embeddingKey ∧ e.2.depth ≤ room ∧ e.2.Each OpensPlainly := by
        intro e he
        rcases mem_ofMembers? inside he with earlier | ⟨m, hm, named, found⟩
        · cases earlier
        · refine ⟨fun same => keys m hm ?_, ih m hm found⟩
          rw [named, same]
      have first : (object out).OpensPlainly := by
        cases out with
        | nil => trivial
        | cons e rest => exact (stands e List.mem_cons_self).1
      exact ⟨depth_object_le.2 fun e he => (stands e he).2.1,
        each_object.2 ⟨first, fun e he => (stands e he).2.2⟩⟩

end Value

namespace Tree

variable {α : Type} {decode : Tree → Option α}

/-- The members of a record stand in its text. -/
theorem isPlain_of_record? {names : List String} {t : Tree} {members : List (String × Tree)}
    (plain : t.IsPlain) (read : t.record? names = some members) : ∀ m ∈ members, m.2.IsPlain := by
  intro m hm
  cases plain with
  | array inside =>
    obtain ⟨-, same⟩ := Option.ite_none_right_eq_some.1 read
    cases same
    exact inside m.2 (List.of_mem_zip hm).2
  | object _ inside =>
    obtain ⟨named, found, read⟩ := Option.bind_eq_some_iff.1 read
    obtain ⟨-, same⟩ := Option.ite_none_right_eq_some.1 read
    cases same
    obtain ⟨e, he, found⟩ := exists_of_mapM_eq_some found hm
    obtain ⟨name, -, same⟩ := Option.map_eq_some_iff.1 found
    cases same
    exact inside e he
  | _ => cases read

end Tree

end ErrorIntake.Json
