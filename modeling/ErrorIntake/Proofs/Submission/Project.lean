import ErrorIntake.Proofs.Json.Grammar
import ErrorIntake.Proofs.Submission.Parsed
import ErrorIntake.Proofs.Text.Integer

/-!
# How clients name a project

A project is named by a JSON integer or by a string that spells one, and both say the same.
`NamesProject` tells which integer a text names without any bound.  What fits 64 bits is read as it
is, and everything else is refused, so no number is wrapped or rounded to one that fits, and a
request passes the check of its project only with the very integer of that project.
-/

namespace ErrorIntake

open Json (Literal Numeral Tree Value)

/-! ## Texts of projects -/

namespace ProjectId

variable {text : String} {n : Int} {p : ProjectId}

theorem parse_of_spells (spelled : Text.SpellsBetweenBlanks text.toList n) :
    (parse text).toOption = if IsInt64 n then some ⟨n⟩ else none := by
  rw [parse, Text.readInteger_of_spells (Text.spellsBetweenBlanks_iff.1 spelled)]
  split <;> rfl

/-- A text is read as the project whose integer it spells. -/
theorem parse_eq_ok_iff : parse text = .ok p ↔
    Text.SpellsBetweenBlanks text.toList p.value ∧ IsInt64 p.value := by
  constructor
  · intro read
    have spelled : Text.SpellsBetweenBlanks text.toList p.value := by
      rw [Text.spellsBetweenBlanks_iff]
      rw [parse] at read
      cases found : Text.readInteger (Text.trim text.toList) with
      | error fault =>
        rw [found] at read
        cases read
      | ok n =>
        rw [found] at read
        cases read
        exact Text.spells_of_readInteger found
    have fits := parse_of_spells spelled
    rw [read] at fits
    by_contra far
    rw [if_neg fun inside => far ⟨spelled, inside⟩] at fits
    cases fits
  · rintro ⟨spelled, fits⟩
    rw [parse, Text.readInteger_of_spells (Text.spellsBetweenBlanks_iff.1 spelled), if_pos fits]
    rfl

/-- The text of a project names it. -/
theorem parse_toText (fits : IsInt64 p.value) : parse p.toText = .ok p := by
  refine parse_eq_ok_iff.2 ⟨⟨[], (toString p.value).toList, [], ?_, by simp, by simp,
    Text.spellsInteger_toString p.value⟩, fits⟩
  rw [toText, List.nil_append, List.append_nil]

end ProjectId

/-! ## Integers among numbers -/

namespace Json.Numeral

/-- The integer that the digits before the point spell, with their sign. -/
def wholeValue (m : Numeral) : Int :=
  if m.negative then -(Text.decimalValue m.whole : Int) else Text.decimalValue m.whole

/-- The number is written without fraction and exponent, and is not `-0`. -/
def IsInteger (m : Numeral) : Prop :=
  m.fraction = [] ∧ m.exponent = none ∧ ¬ (m.negative = true ∧ m.wholeValue = 0)

instance : DecidablePred IsInteger :=
  fun _ => inferInstanceAs (Decidable (_ ∧ _ ∧ ¬ (_ ∧ _)))

variable {m : Numeral} {n : Int}

theorem isWhole_iff : m.isWhole = true ↔ m.fraction = [] ∧ m.exponent = none := by
  simp [isWhole]

/-- Within 64 bits, a number stands for the integer as which it is written. -/
theorem toInt?_eq_some_iff (fits : IsInt64 n) :
    m.toInt? = some n ↔ m.IsInteger ∧ n = m.wholeValue := by
  have limit : significandLimit = 18446744073709551616 := rfl
  simp only [toInt?, Option.ite_none_right_eq_some, isWhole_iff, IsInteger, wholeValue]
  cases m.negative with
  | true =>
    simp only [if_true, Option.ite_none_right_eq_some, Option.some.injEq, true_and, and_assoc]
    refine and_congr_right fun _ => and_congr_right fun _ => ?_
    omega
  | false =>
    simp only [Bool.false_eq_true, if_false, Option.ite_none_right_eq_some, Option.some.injEq,
      false_and, not_false_eq_true, true_and, and_assoc]
    refine and_congr_right fun _ => and_congr_right fun _ => ?_
    omega

theorem toInt64?_value?_eq_some_iff : m.value?.bind Number.toInt64? = some n ↔
    (m.IsInteger ∧ n = m.wholeValue) ∧ IsInt64 n := by
  have integers : m.value?.bind Number.toInt64? = some n ↔ m.toInt? = some n ∧ IsInt64 n := by
    rw [value?]
    cases m.toInt? with
    | some i =>
      simp only [Option.bind_some, Number.toInt64?, Option.ite_none_right_eq_some,
        Option.some.injEq]
      constructor
      · rintro ⟨fits, rfl⟩
        exact ⟨rfl, fits⟩
      · rintro ⟨rfl, fits⟩
        exact ⟨fits, rfl⟩
    | none => cases m.toDouble? <;> simp [Number.toInt64?]
  rw [integers]
  exact and_congr_left toInt?_eq_some_iff

end Json.Numeral

/-! ## Embedded texts -/

namespace Json

variable {members : List (Literal × Tree)} {key l : Literal} {s text : String}

/-- An object embeds a text if it has one member, which is a string under the key for that. -/
theorem embeds_iff : isEmbedding members = true ∧ embeddedText? members = some s ↔
    ∃ key l, members = [(key, .string l)] ∧ key.Means embeddingKey.toList ∧ l.Means s.toList := by
  constructor
  · rintro ⟨opens, embedded⟩
    unfold embeddedText? at embedded
    split at embedded
    · next key l =>
      rw [isEmbedding, beq_iff_eq, Literal.text?_eq_some_iff] at opens
      exact ⟨key, l, rfl, opens, Literal.text?_eq_some_iff.1 embedded⟩
    · cases embedded
  · rintro ⟨key, l, rfl, opens, meant⟩
    exact ⟨beq_iff_eq.2 (Literal.text?_eq_some_iff.2 opens), Literal.text?_eq_some_iff.2 meant⟩

/-- An embedded text is shorter than the text that it stands in. -/
theorem length_lt_of_embeds (written : (Tree.object [(key, .string l)]).IsSpelledBy text)
    (meant : l.Means s.toList) : s.length < text.length := by
  obtain ⟨before, inside, after, split, -, spelled⟩ := written
  generalize members : [(key, Tree.string l)] = ms at spelled
  cases spelled with
  | emptyObject => cases members
  | object entries filled keyed each =>
    obtain ⟨e, rfl, same⟩ := List.map_eq_singleton_iff.1 members.symm
    obtain ⟨-, isString⟩ := Prod.mk.inj same
    have value := each e List.mem_cons_self
    rw [isString] at value
    obtain ⟨quoted, isQuoted, spelled⟩ : ∃ quoted, e.text = '"' :: (quoted ++ ['"']) ∧
        l.Spells quoted := by
      generalize e.text = raw at value
      cases value with
      | string spelled => exact ⟨_, rfl, spelled⟩
    have short : s.toList.length ≤ quoted.length := Nat.le_trans meant.length_le spelled.length_le
    have long := congrArg List.length split
    simp only [List.map_cons, List.map_nil, separated, Entry.written, isQuoted, List.length_append,
      List.length_cons] at long
    rw [← String.length_toList, ← String.length_toList]
    omega

end Json

/-! ## The field -/

namespace Submission

/-- The project in a value. -/
def projectOf? : Value → Option ProjectId
  | .string s => (ProjectId.parse s).toOption
  | .number n => n.toInt64?.map ProjectId.mk
  | _ => none

theorem Field.project?_eq_bind (text : String) :
    project? text = (Value.ofText? text).bind projectOf? := by
  rw [project?]
  cases Value.ofText? text with
  | none => rfl
  | some v => cases v <;> rfl

/-- The text names an integer: as a number that is written as one, as a string that spells it between
    blanks, or as an object that embeds a text which names it. -/
inductive NamesProject : String → Int → Prop
  | number {text : String} {m : Numeral} (written : (Tree.number m).IsSpelledBy text)
      (is : m.IsInteger) : NamesProject text m.wholeValue
  | string {text s : String} {l : Literal} {n : Int} (written : (Tree.string l).IsSpelledBy text)
      (meant : l.Means s.toList) (spelled : Text.SpellsBetweenBlanks s.toList n) :
      NamesProject text n
  | embedded {text s : String} {key l : Literal} {n : Int}
      (written : (Tree.object [(key, .string l)]).IsSpelledBy text)
      (opens : key.Means Json.embeddingKey.toList) (meant : l.Means s.toList)
      (names : NamesProject s n) : NamesProject text n

variable {text : String} {t : Tree} {n n' : Int} {p : ProjectId}

/-! ### What a value of each kind names -/

namespace NamesProject

theorem number_iff {m : Numeral} (written : (Tree.number m).IsSpelledBy text) :
    NamesProject text n ↔ m.IsInteger ∧ n = m.wholeValue := by
  constructor
  · intro names
    cases names with
    | number written' is =>
      cases written.unique written'
      exact ⟨is, rfl⟩
    | string written' => cases written.unique written'
    | embedded written' => cases written.unique written'
  · rintro ⟨is, rfl⟩
    exact .number written is

theorem string_iff {l : Literal} (written : (Tree.string l).IsSpelledBy text) :
    NamesProject text n ↔ ∃ s, l.text? = some s ∧ Text.SpellsBetweenBlanks s.toList n := by
  constructor
  · intro names
    cases names with
    | number written' => cases written.unique written'
    | string written' meant spelled =>
      cases written.unique written'
      exact ⟨_, Literal.text?_eq_some_iff.2 meant, spelled⟩
    | embedded written' => cases written.unique written'
  · rintro ⟨s, meant, spelled⟩
    exact .string written (Literal.text?_eq_some_iff.1 meant) spelled

theorem object_iff {members : List (Literal × Tree)}
    (written : (Tree.object members).IsSpelledBy text) :
    NamesProject text n ↔ ∃ s, (Json.isEmbedding members = true ∧
      Json.embeddedText? members = some s) ∧ NamesProject s n := by
  constructor
  · intro names
    cases names with
    | number written' => cases written.unique written'
    | string written' => cases written.unique written'
    | embedded written' opens meant names =>
      cases written.unique written'
      exact ⟨_, Json.embeds_iff.2 ⟨_, _, rfl, opens, meant⟩, names⟩
  · rintro ⟨s, embeds, names⟩
    obtain ⟨key, l, rfl, opens, meant⟩ := Json.embeds_iff.1 embeds
    exact .embedded written opens meant names

theorem exists_tree (names : NamesProject text n) : ∃ t : Tree, t.IsSpelledBy text := by
  cases names with
  | number written => exact ⟨_, written⟩
  | string written => exact ⟨_, written⟩
  | embedded written => exact ⟨_, written⟩

/-- Nothing but numbers, strings and objects names an integer. -/
theorem kinds (written : t.IsSpelledBy text) (names : NamesProject text n) :
    (∃ m, t = .number m) ∨ (∃ l, t = .string l) ∨ ∃ members, t = .object members := by
  cases names with
  | number written' => exact .inl ⟨_, written.unique written'⟩
  | string written' => exact .inr (.inl ⟨_, written.unique written'⟩)
  | embedded written' => exact .inr (.inr ⟨_, written.unique written'⟩)

/-- No text names two integers. -/
theorem unique (names : NamesProject text n) (names' : NamesProject text n') : n = n' := by
  induction names with
  | number written => exact ((number_iff written).1 names').2.symm
  | string written meant spelled =>
    obtain ⟨s, found, spelled'⟩ := (string_iff written).1 names'
    rw [Literal.text?_eq_some_iff.2 meant] at found
    cases found
    rw [Text.spellsBetweenBlanks_iff] at spelled spelled'
    exact spelled.unique spelled'
  | embedded written opens meant names ih =>
    obtain ⟨s, ⟨-, found⟩, names'⟩ := (object_iff written).1 names'
    rw [(Json.embeds_iff.2 ⟨_, _, rfl, opens, meant⟩).2] at found
    cases found
    exact ih names'

end NamesProject

/-! ### What is read is named -/

theorem projectOf?_number {m : Numeral} (written : (Tree.number m).IsSpelledBy text) :
    (m.value?.map Value.number).bind projectOf? = some p ↔
      NamesProject text p.value ∧ IsInt64 p.value := by
  have read : (m.value?.map Value.number).bind projectOf? =
      (m.value?.bind Json.Number.toInt64?).map ProjectId.mk := by
    cases m.value? <;> rfl
  rw [read, NamesProject.number_iff written, ← Numeral.toInt64?_value?_eq_some_iff,
    Option.map_eq_some_iff]
  constructor
  · rintro ⟨n, found, rfl⟩
    exact found
  · exact fun found => ⟨p.value, found, rfl⟩

theorem projectOf?_string {l : Literal} (written : (Tree.string l).IsSpelledBy text) :
    (l.text?.map Value.string).bind projectOf? = some p ↔
      NamesProject text p.value ∧ IsInt64 p.value := by
  have read : (l.text?.map Value.string).bind projectOf? = some p ↔
      ∃ s, l.text? = some s ∧ ProjectId.parse s = .ok p := by
    cases l.text? with
    | none => simp
    | some s => cases found : ProjectId.parse s <;> simp [projectOf?, found, Except.toOption]
  simp only [read, NamesProject.string_iff written, ProjectId.parse_eq_ok_iff, ← and_assoc,
    exists_and_right]

theorem projectOf?_object {members : List (Literal × Tree)} {embedded : String → Option Value}
    (written : (Tree.object members).IsSpelledBy text)
    (inside : ∀ s, s.length < text.length →
      ((embedded s).bind projectOf? = some p ↔ NamesProject s p.value ∧ IsInt64 p.value)) :
    (Value.ofTreeWith? (some embedded) Json.nestingLimit (.object members)).bind projectOf? = some p ↔
      NamesProject text p.value ∧ IsInt64 p.value := by
  rw [NamesProject.object_iff written, Json.nestingLimit, Value.ofTreeWith?]
  by_cases opens : Json.isEmbedding members = true
  · have shorter {s : String} (found : Json.embeddedText? members = some s) :
        s.length < text.length := by
      obtain ⟨key, l, rfl, -, meant⟩ := Json.embeds_iff.1 ⟨opens, found⟩
      exact Json.length_lt_of_embeds written meant
    rw [if_pos opens]
    cases found : Json.embeddedText? members with
    | none => simp
    | some s => simp [opens, inside s (shorter found)]
  · rw [if_neg opens]
    cases Value.ofMembers? (some embedded) 126 [] members <;> simp [opens, projectOf?]

/-- The value of a tree has the project that the text of the tree names, if it fits 64 bits. -/
theorem projectOf?_ofTreeWith? {embedded : String → Option Value} (written : t.IsSpelledBy text)
    (inside : ∀ s, s.length < text.length →
      ((embedded s).bind projectOf? = some p ↔ NamesProject s p.value ∧ IsInt64 p.value)) :
    (Value.ofTreeWith? (some embedded) Json.nestingLimit t).bind projectOf? = some p ↔
      NamesProject text p.value ∧ IsInt64 p.value := by
  cases t with
  | number m => exact projectOf?_number written
  | string l => exact projectOf?_string written
  | object members => exact projectOf?_object written inside
  | null =>
    have unnamed : ¬ NamesProject text p.value := fun names => by simpa using names.kinds written
    simp [Value.ofTreeWith?, projectOf?, unnamed]
  | bool b =>
    have unnamed : ¬ NamesProject text p.value := fun names => by simpa using names.kinds written
    simp [Value.ofTreeWith?, projectOf?, unnamed]
  | array elements =>
    have unnamed : ¬ NamesProject text p.value := fun names => by simpa using names.kinds written
    rw [Json.nestingLimit, Value.ofTreeWith?]
    cases Value.ofElements? (some embedded) 126 elements <;> simp [projectOf?, unnamed]

/-- More fuel than the text has characters is enough to find the project that it names. -/
theorem projectOf?_ofTextWithin? {fuel : Nat} (enough : text.length < fuel) :
    (Value.ofTextWithin? fuel text).bind projectOf? = some p ↔
      NamesProject text p.value ∧ IsInt64 p.value := by
  induction fuel generalizing text with
  | zero => omega
  | succ fuel ih =>
    rw [Value.ofTextWithin?]
    cases read : Tree.ofText? text with
    | none =>
      have unnamed : ¬ NamesProject text p.value := by
        intro names
        obtain ⟨t, written⟩ := names.exists_tree
        rw [Tree.ofText?_eq_some_iff.2 written] at read
        cases read
      simp [unnamed]
    | some t =>
      exact projectOf?_ofTreeWith? (Tree.ofText?_eq_some_iff.1 read) fun s shorter =>
        ih (by omega)

/-- A project is read from the texts that name it and from no others. -/
theorem Field.project?_eq_some_iff :
    project? text = some p ↔ NamesProject text p.value ∧ IsInt64 p.value := by
  rw [project?_eq_bind]
  exact projectOf?_ofTextWithin? (Nat.lt_succ_self _)

/-! ### Payloads and requests -/

/-- The project that a payload names, if it names one. -/
def givenProject (payload : Payload) : Except SubmissionError (Option ProjectId) :=
  decodeField payload .project (fun raw => (Field.project? raw).map some) none

section

variable {payload : Payload} {text : String} {n : Int} {p : ProjectId}

theorem givenProject_of_stands (stands : payload.get? "project" = some text) :
    givenProject payload = match Field.project? text with
      | some p => .ok (some p)
      | none => .error (.invalidField "project" text) := by
  rw [givenProject, decodeField, show Field.project.name = "project" from rfl, stands]
  dsimp only
  cases Field.project? text <;> rfl

theorem givenProject_eq_ok_iff (stands : payload.get? "project" = some text) :
    givenProject payload = .ok (some p) ↔ NamesProject text p.value ∧ IsInt64 p.value := by
  rw [givenProject_of_stands stands, ← Field.project?_eq_some_iff]
  cases Field.project? text <;> simp

theorem givenProject_eq_error_iff (stands : payload.get? "project" = some text) :
    givenProject payload = .error (.invalidField "project" text) ↔
      ∀ n, NamesProject text n → ¬ IsInt64 n := by
  have unread : Field.project? text = none ↔ ∀ n, NamesProject text n → ¬ IsInt64 n := by
    rw [Option.eq_none_iff_forall_ne_some]
    constructor
    · exact fun unread n names fits => unread ⟨n⟩ (Field.project?_eq_some_iff.2 ⟨names, fits⟩)
    · intro far p found
      obtain ⟨names, fits⟩ := Field.project?_eq_some_iff.1 found
      exact far p.value names fits
  rw [givenProject_of_stands stands, ← unread]
  cases Field.project? text <;> simp

/-- An integer that is named is given if it fits 64 bits, and refused with its text else. -/
theorem givenProject_of_names (stands : payload.get? "project" = some text)
    (names : NamesProject text n) : givenProject payload =
      if IsInt64 n then .ok (some ⟨n⟩) else .error (.invalidField "project" text) := by
  split
  · next fits => exact (givenProject_eq_ok_iff stands).2 ⟨names, fits⟩
  · next far =>
    refine (givenProject_eq_error_iff stands).2 fun n' names' fits => far ?_
    rwa [names.unique names']

variable {interfaces : Interface.Registry} {occasion : Occasion} {e : Envelope} {body : Bytes}
  {parsed : Parsed}

theorem givenProject_of_parse (spelled : Body.payload? body = some payload)
    (read : (Protocol.standard interfaces).parse occasion body = .ok parsed) :
    ∃ r, parsed.reports = [r] ∧ givenProject payload = .ok r.project := by
  obtain ⟨_, r, logs, rfl, found, parts⟩ := exists_readFrom_of_parse read
  rw [spelled] at found
  cases found
  exact ⟨r, rfl, parts.project⟩

/-- A body that is read and has a project is accepted for the project that it names only. -/
theorem parseEnvelope_of_parse (stands : payload.get? "project" = some text)
    (unpacked : e.unpack = .ok body) (spelled : Body.payload? body = some payload)
    (read : (Protocol.standard interfaces).parse occasion body = .ok parsed) :
    ∃ p : ProjectId, NamesProject text p.value ∧
      ((Protocol.standard interfaces).parseEnvelope occasion e).result =
        if p = e.project then .ok parsed.reports else .error (.projectMismatch e.project p) := by
  obtain ⟨r, single, given⟩ := givenProject_of_parse spelled read
  have result : ((Protocol.standard interfaces).parseEnvelope occasion e).result =
      parsed.reports.mapM (Protocol.bind e.project) := by
    have unpacked : (Protocol.standard interfaces).unpack e = .ok body := unpacked
    rw [Protocol.parseEnvelope, unpacked]
    dsimp only
    rw [read]
  rw [givenProject_of_stands stands] at given
  split at given
  · next p found =>
    have named : some p = r.project := Except.ok.inj given
    refine ⟨p, (Field.project?_eq_some_iff.1 found).1, ?_⟩
    rw [result, single, List.mapM_cons, Protocol.bind, ← named]
    dsimp only
    split <;> rfl
  · cases given

end

/-- A project is given by a number and by a string alike.  A number gives the integer as which it is
    written, if it has neither fraction nor exponent, is not `-0` and fits 64 bits; a string gives
    the integer that it spells between blanks, with a sign or none and any zeros in front, if that
    fits 64 bits.  What names no integer that fits is refused with its text, and the text of a
    project names it.  So a request is accepted only if its body names the very project that it was
    made for, and refused as a mismatch if it names any other. -/
theorem project_as_spelled {payload : Payload} {text : String}
    (stands : payload.get? "project" = some text) :
    (∀ m, (Tree.number m).IsSpelledBy text → givenProject payload =
      if m.IsInteger ∧ IsInt64 m.wholeValue then .ok (some ⟨m.wholeValue⟩)
      else .error (.invalidField "project" text)) ∧
    (∀ l s n, (Tree.string l).IsSpelledBy text → l.Means (String.toList s) →
      Text.SpellsBetweenBlanks s.toList n → givenProject payload =
        if IsInt64 n then .ok (some ⟨n⟩) else .error (.invalidField "project" text)) ∧
    (∀ p, givenProject payload = .ok (some p) ↔ NamesProject text p.value ∧ IsInt64 p.value) ∧
    (givenProject payload = .error (.invalidField "project" text) ↔
      ∀ n, NamesProject text n → ¬ IsInt64 n) ∧
    (∀ p : ProjectId, IsInt64 p.value → ProjectId.parse p.toText = .ok p) ∧
    ∀ (interfaces : Interface.Registry) (occasion : Occasion) (e : Envelope) (body : Bytes),
      e.unpack = .ok body → Body.payload? body = some payload →
      (∀ reports, ((Protocol.standard interfaces).parseEnvelope occasion e).result = .ok reports →
        NamesProject text e.project.value) ∧
      ∀ parsed n, (Protocol.standard interfaces).parse occasion body = .ok parsed →
        NamesProject text n → n ≠ e.project.value →
        ((Protocol.standard interfaces).parseEnvelope occasion e).result =
          .error (.projectMismatch e.project ⟨n⟩) := by
  refine ⟨fun m written => ?_, fun l s n written meant spelled => ?_,
    fun p => givenProject_eq_ok_iff stands, givenProject_eq_error_iff stands,
    fun p => ProjectId.parse_toText, fun interfaces occasion e body unpacked spelled => ?_⟩
  · by_cases is : m.IsInteger
    · simp only [is, true_and]
      exact givenProject_of_names stands (.number written is)
    · rw [if_neg fun both => is both.1]
      refine (givenProject_eq_error_iff stands).2 fun n names => ?_
      exact absurd ((NamesProject.number_iff written).1 names).1 is
  · exact givenProject_of_names stands (.string written meant spelled)
  · constructor
    · intro reports accepted
      obtain ⟨body', parsed, unpacked', read, -⟩ := Protocol.exists_parsed_of_result accepted
      obtain rfl : body' = body := Except.ok.inj (unpacked'.symm.trans unpacked)
      obtain ⟨p, names, result⟩ := parseEnvelope_of_parse stands unpacked spelled read
      rw [result] at accepted
      split at accepted
      · next same => rwa [← same]
      · cases accepted
    · intro parsed n read names other
      obtain ⟨p, names', result⟩ := parseEnvelope_of_parse stands unpacked spelled read
      obtain rfl := names.unique names'
      rw [result, if_neg]
      rintro same
      exact other (congrArg ProjectId.value same)

/-- A payload with this project. -/
def withProject (v : Value) : Payload := .ofList [("project", v.toText)]

theorem get?_withProject (v : Value) : (withProject v).get? "project" = some v.toText := by
  simp [withProject, Table.get?_ofList]

/-- The digits of the lowest integer of 64 bits, with zeros in front. -/
def lowestDigits : List Char :=
  ['0', '0', '9', '2', '2', '3', '3', '7', '2', '0', '3', '6', '8', '5', '4', '7', '7', '5', '8',
   '0', '8']

/-- The lowest integer of 64 bits, behind a blank that is none of ASCII. -/
def lowest : String := String.ofList ('\u2003' :: '-' :: (lowestDigits ++ [' ']))

/-- A request for project 7 with a body that names project 8. -/
def misdirected : Envelope :=
  { project := ⟨7⟩, body := Text.toBytes "\x7b\"project\":\" +08\"\x7d" }

theorem project_as_spelled_limits :
    givenProject (withProject (.string lowest)) = .ok (some ⟨-9223372036854775808⟩) ∧
    givenProject (withProject (.ofInt 9223372036854775808)) =
      .error (.invalidField "project" (Value.ofInt 9223372036854775808).toText) ∧
    ((Protocol.standard .standard).parseEnvelope ⟨.epoch, "e1"⟩ misdirected).result =
      .error (.projectMismatch ⟨7⟩ ⟨8⟩) := by
  have isString (s : String) : (Value.string s).tree.IsSpelledBy (Value.string s).toText :=
    Tree.ofText?_eq_some_iff.1 (Value.ofText?_toText (Value.each_string.2 trivial))
  have meant (s : String) : (Literal.ofText s).Means s.toList :=
    Literal.text?_eq_some_iff.1 (Literal.text?_ofText s)
  refine ⟨?_, ?_, ?_⟩
  · obtain ⟨-, strings, -⟩ := project_as_spelled (get?_withProject (.string lowest))
    have inside : Text.SpellsInteger ('-' :: lowestDigits) (-9223372036854775808) :=
      .minus ⟨by decide, List.all_eq_true.1 (by decide)⟩
    have spelled : Text.SpellsBetweenBlanks lowest.toList (-9223372036854775808) :=
      ⟨['\u2003'], '-' :: lowestDigits, [' '], by rw [lowest, String.toList_ofList]; rfl,
        List.all_eq_true.1 (by decide), List.all_eq_true.1 (by decide), inside⟩
    exact strings _ lowest _ (isString lowest) (meant lowest) spelled
  · obtain ⟨numbers, -⟩ := project_as_spelled (get?_withProject (.ofInt 9223372036854775808))
    have written : Tree.ofText? (Value.ofInt 9223372036854775808).toText = some _ :=
      Value.ofText?_toText (Value.each_number.2 ⟨by decide, by decide⟩)
    exact numbers _ (Tree.ofText?_eq_some_iff.1 written)
  · obtain ⟨-, -, -, -, -, requests⟩ := project_as_spelled (get?_withProject (.string " +08"))
    have inside : Text.SpellsInteger ['+', '0', '8'] 8 :=
      .plus ⟨by decide, List.all_eq_true.1 (by decide)⟩
    have names : NamesProject (Value.string " +08").toText 8 :=
      .string (isString _) (meant " +08") ⟨[' '], _, [], rfl, List.all_eq_true.1 (by decide),
        by simp, inside⟩
    have spelled : Body.payload? misdirected.body = some (withProject (.string " +08")) := by
      decide +kernel
    have accepted : ((Protocol.standard .standard).parse ⟨.epoch, "e1"⟩
        misdirected.body).toOption.isSome := by
      decide +kernel
    cases read : (Protocol.standard .standard).parse ⟨.epoch, "e1"⟩ misdirected.body with
    | error err =>
      rw [read] at accepted
      cases accepted
    | ok parsed =>
      obtain ⟨-, mismatch⟩ := requests .standard ⟨.epoch, "e1"⟩ misdirected misdirected.body
        (if_pos (by decide +kernel)) spelled
      exact mismatch parsed 8 read names (by decide)

end Submission

end ErrorIntake
