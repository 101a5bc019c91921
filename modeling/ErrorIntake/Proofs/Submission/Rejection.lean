import ErrorIntake.Proofs.Json.Grammar
import ErrorIntake.Proofs.Submission.Encodings
import ErrorIntake.Proofs.Submission.Members

/-!
# Why bodies are refused

A body is refused as malformed if the grammar of JSON does not make it one object with readable
keys, and else for the first known field, in their fixed order, whose decoder refuses the text that
counts for it.  Nothing else refuses a body, so what is made of it depends on nothing but the texts
that count for its keys.
-/

namespace ErrorIntake.Submission

open Json (Entry Literal Tree Value)

/-! ## Bodies that are objects -/

namespace Body

/-- The key of an entry and the text of its value. -/
def memberOf (e : Entry) : Literal × String := (e.key, String.ofList e.text)

variable {cs after rest : List Char} {key : Literal} {raw : String} {e : Entry}
  {members : List (Literal × String)}

/-- A text that begins with a member begins with an entry. -/
theorem exists_entry (member : StartsWithMember cs key raw (after ++ rest))
    (blank : ∀ c ∈ after, Json.isBlank c) :
    ∃ e : Entry, (e.IsKeyed ∧ Tree.Spells e.text e.tree) ∧ memberOf e = (key, raw) ∧
      cs = e.written ++ rest := by
  obtain ⟨before, quoted, middle, gap, split, blanks, isKey, still, t, isValue⟩ := member
  obtain ⟨spelling, splitKey, spelledKey⟩ := Literal.spells_of_read isKey
  obtain ⟨front, value, splitValue, blankFront, spelled⟩ := Tree.startsWith_of_read isValue
  have quotes : quoted = spelling ++ ['"'] := by
    have behind : quoted ++ (middle ++ ':' :: (gap ++ (raw.toList ++ (after ++ rest)))) =
        spelling ++ ['"'] ++ (middle ++ ':' :: (gap ++ (raw.toList ++ (after ++ rest)))) := by
      rw [splitKey, List.append_assoc]
      rfl
    exact List.append_cancel_right behind
  -- The text of a member starts behind the blanks, where the value that is read there starts.
  have sameValue : raw.toList = value := by
    obtain ⟨c, more, begins, visible, -⟩ := spelled.head
    rw [splitValue, Json.skipBlanks_append blankFront, begins, List.cons_append,
      Json.skipBlanks_cons visible, ← List.cons_append, ← begins, ← splitValue] at still
    exact (List.append_cancel_right still).symm
  obtain ⟨outside, inGap⟩ := List.forall_mem_append.1 blanks
  refine ⟨⟨before, spelling, middle, gap, value, after, key, t⟩, ⟨⟨?_, spelledKey⟩, spelled⟩,
    ?_, ?_⟩
  · exact List.forall_mem_append.2 ⟨outside, List.forall_mem_append.2 ⟨inGap, blank⟩⟩
  · rw [memberOf, ← sameValue, String.ofList_toList]
  · rw [split, quotes, sameValue]
    simp [Entry.written]

/-- A text that lists members consists of entries. -/
theorem exists_entries (listed : Lists cs members rest) :
    ∃ entries : List Entry, entries ≠ [] ∧ (∀ e ∈ entries, e.IsKeyed ∧ Tree.Spells e.text e.tree) ∧
      members = entries.map memberOf ∧
      cs = Json.separated (entries.map Entry.written) ++ '\x7d' :: rest := by
  induction listed with
  | last member blank =>
    obtain ⟨e, spelled, same, split⟩ := exists_entry member blank
    exact ⟨[e], by simp, by simpa using spelled, by simp [same], split⟩
  | more member blank _ ih =>
    obtain ⟨e, spelled, same, split⟩ := exists_entry member blank
    obtain ⟨entries, filled, others, rfl, further⟩ := ih
    refine ⟨e :: entries, by simp, List.forall_mem_cons.2 ⟨spelled, others⟩, by simp [same], ?_⟩
    rw [List.map_cons, Json.separated_cons _ (by simpa using filled), split, further]
    simp

theorem exists_isObject (object : IsObjectOf cs members) :
    ∃ entries, Json.IsObject cs entries ∧ members = entries.map memberOf := by
  obtain ⟨before, inside, after, split, blank, filled | ⟨rfl, gap, blankGap, empty⟩⟩ := object
  · obtain ⟨entries, filled, spelled, same, listed⟩ := exists_entries filled
    refine ⟨entries, ⟨before, _, after, ?_, blank, .inr ⟨filled, rfl⟩, spelled⟩, same⟩
    rw [split, listed]
  · refine ⟨[], ⟨before, gap, after, ?_, blank, .inl ⟨rfl, blankGap⟩, by simp⟩, rfl⟩
    rw [split, empty]

/-! ### Entries are read as members -/

section

variable {fuel : Nat} {inside behind start left more : List Char} {t : Tree}

/-- A member with a comma behind it is read, and then the others. -/
theorem readMembers_more (opened : Json.skipBlanks cs = '"' :: inside)
    (isKey : Literal.read inside = some (key, behind))
    (colon : Json.skipBlanks behind = ':' :: start)
    (value : Tree.read (Json.skipBlanks start) = some (t, left))
    (comma : Json.skipBlanks left = ',' :: more) :
    readMembers (fuel + 1) cs = (readMembers fuel more).map fun p =>
      ((key, String.ofList (between (Json.skipBlanks start) left)) :: p.1, p.2) := by
  rw [readMembers]
  simp only [opened, isKey, Option.bind_eq_bind, Option.bind_some, colon, value, comma]
  cases readMembers fuel more <;> rfl

/-- A member with the closing brace behind it is read alone. -/
theorem readMembers_last (opened : Json.skipBlanks cs = '"' :: inside)
    (isKey : Literal.read inside = some (key, behind))
    (colon : Json.skipBlanks behind = ':' :: start)
    (value : Tree.read (Json.skipBlanks start) = some (t, left))
    (closed : Json.skipBlanks left = '\x7d' :: rest) :
    readMembers (fuel + 1) cs =
      some ([(key, String.ofList (between (Json.skipBlanks start) left))], rest) := by
  rw [readMembers]
  simp only [opened, isKey, Option.bind_eq_bind, Option.bind_some, colon, value, closed]
  rfl

end

/-- What the reader of members finds of an entry, step by step. -/
theorem entry_steps (keyed : e.IsKeyed) (spelled : Tree.Spells e.text e.tree) {c : Char}
    (closes : c = ',' ∨ c = ']' ∨ c = '\x7d') (more : List Char) :
    ∃ inside behind start, Json.skipBlanks (e.written ++ c :: more) = '"' :: inside ∧
      Literal.read inside = some (e.key, behind) ∧ Json.skipBlanks behind = ':' :: start ∧
      Tree.read (Json.skipBlanks start) = some (e.tree, e.after ++ c :: more) ∧
      between (Json.skipBlanks start) (e.after ++ c :: more) = e.text ∧
      Json.skipBlanks (e.after ++ c :: more) = c :: more := by
  obtain ⟨blank, spelledKey⟩ := keyed
  obtain ⟨outside, inside⟩ := List.forall_mem_append.1 blank
  obtain ⟨before, middle⟩ := List.forall_mem_append.1 outside
  obtain ⟨gap, after⟩ := List.forall_mem_append.1 inside
  have written : e.written ++ c :: more = e.before ++ '"' :: (e.quoted ++ '"' ::
      (e.middle ++ ':' :: (e.gap ++ (e.text ++ (e.after ++ c :: more))))) := by
    simp [Entry.written]
  have start : Json.skipBlanks (e.gap ++ (e.text ++ (e.after ++ c :: more))) =
      e.text ++ (e.after ++ c :: more) := by
    obtain ⟨d, text, begins, visible, -⟩ := spelled.head
    rw [Json.skipBlanks_append gap, begins, List.cons_append, Json.skipBlanks_cons visible]
  refine ⟨_, _, e.gap ++ (e.text ++ (e.after ++ c :: more)),
    written ▸ Json.skipBlanks_blanks before (by decide) _, Literal.read_of_spells spelledKey _,
    Json.skipBlanks_blanks middle (by decide) _, ?_, ?_, ?_⟩
  · rw [start]
    exact Tree.read_of_spells spelled (Json.endsNumber_closed after closes more)
  · rw [start, between_append]
  · refine Json.skipBlanks_blanks after ?_ more
    rcases closes with rfl | rfl | rfl <;> decide

theorem readMembers_separated {entries : List Entry} (fuel : Nat) (filled : entries ≠ [])
    (spelled : ∀ e ∈ entries, e.IsKeyed ∧ Tree.Spells e.text e.tree)
    (enough : (Json.separated (entries.map Entry.written)).length < fuel) (rest : List Char) :
    readMembers fuel (Json.separated (entries.map Entry.written) ++ '\x7d' :: rest) =
      some (entries.map memberOf, rest) := by
  induction entries generalizing fuel with
  | nil => exact absurd rfl filled
  | cons e more ih =>
    obtain ⟨fuel, rfl⟩ : ∃ k, fuel = k + 1 := ⟨fuel - 1, by omega⟩
    obtain ⟨keyed, value⟩ := spelled e List.mem_cons_self
    by_cases last : more = []
    · subst last
      obtain ⟨inside, behind, start, opened, isKey, colon, found, text, closed⟩ :=
        entry_steps keyed value (.inr (.inr rfl)) rest
      show readMembers (fuel + 1) (e.written ++ '\x7d' :: rest) = some ([memberOf e], rest)
      rw [readMembers_last opened isKey colon found closed, text, memberOf]
    · have others : more.map Entry.written ≠ [] := by simpa using last
      rw [List.map_cons, Json.separated_cons _ others] at enough ⊢
      simp only [List.length_append, List.length_cons] at enough
      have further := ih fuel last (fun e member => spelled e (List.mem_cons_of_mem _ member))
        (by omega)
      obtain ⟨inside, behind, start, opened, isKey, colon, found, text, comma⟩ :=
        entry_steps keyed value (.inl rfl)
          (Json.separated (more.map Entry.written) ++ '\x7d' :: rest)
      rw [List.append_assoc, List.cons_append,
        readMembers_more opened isKey colon found comma, text, further]
      rfl

/-- A text has members if it is one object with these entries. -/
theorem members?_eq_some_iff :
    members? cs = some members ↔ ∃ entries, Json.IsObject cs entries ∧
      members = entries.map memberOf := by
  constructor
  · intro found
    exact exists_isObject (isObjectOf_of_members? found)
  · rintro ⟨entries, ⟨before, inside, after, rfl, blank, filling, spelled⟩, rfl⟩
    obtain ⟨front, back⟩ := List.forall_mem_append.1 blank
    have closed : (Json.skipBlanks after).isEmpty :=
      List.isEmpty_iff.2 (List.dropWhile_eq_nil_iff.2 back)
    unfold members?
    rw [Json.skipBlanks_blanks front (by decide)]
    rcases filling with ⟨rfl, gap⟩ | ⟨filled, rfl⟩
    · simp only [Json.skipBlanks_blanks gap (by decide : Json.isBlank '\x7d' = false),
        Option.bind_eq_bind, Option.bind_some, closed, if_true]
      rfl
    · obtain ⟨more, opened⟩ := Tree.skipBlanks_entries filled (fun e member => (spelled e member).1)
        ('\x7d' :: after)
      have listed := readMembers_separated
        (Json.separated (entries.map Entry.written) ++ '\x7d' :: after).length filled spelled
        (by simp only [List.length_append, List.length_cons]; omega) after
      simp only [opened, listed, Option.bind_eq_bind, Option.bind_some, closed, if_true]
      rfl

/-- The body is UTF-8, namely one JSON object, whose keys have these texts and whose values are
    written like this. -/
def Spells (body : Bytes) (members : List (String × String)) : Prop :=
  ∃ text entries, Text.ofBytes? body = some text ∧ Json.IsObject text.toList entries ∧
    List.Forall₂ (fun (e : Entry) m => (∃ cs, e.key.Means cs ∧ m.1 = String.ofList cs) ∧
      m.2 = String.ofList e.text) entries members

/-- A body has a payload if it spells some members, and the payload is their table. -/
theorem payload?_eq_some_iff {body : Bytes} {payload : Payload} :
    payload? body = some payload ↔ ∃ members, Spells body members ∧ payload = .ofList members := by
  have named (e : Entry) (m : String × String) :
      ((memberOf e).1.text?.map fun key => (key, (memberOf e).2)) = some m ↔
        (∃ cs, e.key.Means cs ∧ m.1 = String.ofList cs) ∧ m.2 = String.ofList e.text := by
    simp only [memberOf, Literal.text?, Option.map_eq_some_iff, Literal.chars?_eq_some_iff]
    constructor
    · rintro ⟨key, ⟨cs, meant, rfl⟩, rfl⟩
      exact ⟨⟨cs, meant, rfl⟩, rfl⟩
    · rintro ⟨⟨cs, meant, key⟩, raw⟩
      exact ⟨String.ofList cs, ⟨cs, meant, rfl⟩, by rw [← key, ← raw]⟩
  constructor
  · intro found
    obtain ⟨text, isText, found⟩ := Option.bind_eq_some_iff.1 found
    obtain ⟨literals, isObject, found⟩ := Option.bind_eq_some_iff.1 found
    obtain ⟨members, isNamed, found⟩ := Option.bind_eq_some_iff.1 found
    cases found
    obtain ⟨entries, object, rfl⟩ := members?_eq_some_iff.1 isObject
    rw [mapM_eq_some_iff, List.forall₂_map_left_iff] at isNamed
    exact ⟨members, ⟨text, entries, isText, object, isNamed.imp fun e m => (named e m).1⟩, rfl⟩
  · rintro ⟨members, ⟨text, entries, isText, object, meant⟩, rfl⟩
    have isNamed : (entries.map memberOf).mapM
        (fun m : Literal × String => m.1.text?.map fun key => (key, m.2)) = some members := by
      rw [mapM_eq_some_iff, List.forall₂_map_left_iff]
      exact meant.imp fun e m => (named e m).2
    rw [payload?, isText]
    simp only [Option.bind_eq_bind, Option.bind_some,
      members?_eq_some_iff.2 ⟨entries, object, rfl⟩, isNamed]
    rfl

end Body

/-! ## The first field that is refused -/

/-- The text that counts under a key: that of the last member there. -/
def latest (members : List (String × String)) (key : String) : Option String :=
  members.reverse.lookup key

namespace Field

/-- The decoder of a field takes a text. -/
def accepts (field : Field) (raw : String) : Bool :=
  match field with
  | eventId => (eventId? raw).isSome
  | message | logger | serverName | culprit | platform | release => (text? raw).isSome
  | level => (level? raw).isSome
  | project => (project? raw).isSome
  | tags => (tags? raw).isSome
  | timestamp => (timestamp? raw).isSome
  | timeSpent => (timeSpent? raw).isSome
  | extra => (extra? raw).isSome

/-- The refusal of a payload for a field. -/
def refusal? (payload : Payload) (field : Field) : Option SubmissionError :=
  match payload.get? field.name with
  | none => none
  | some raw => if field.accepts raw then none else some (.invalidField field.name raw)

end Field

/-- A result follows the fields: it is the refusal of the first that refuses, and none otherwise. -/
def Follows {α : Type} (payload : Payload) (fields : List Field) (x : Except SubmissionError α) :
    Prop :=
  match fields.findSome? (Field.refusal? payload) with
  | some refusal => x = .error refusal
  | none => ∃ a, x = .ok a

section

variable {α β : Type} {payload : Payload} {field : Field} {fields : List Field}

theorem Follows.cons {decode : String → Option α} {default : α} {f : α → Except SubmissionError β}
    (agrees : ∀ raw, (decode raw).isSome = field.accepts raw)
    (next : ∀ a, Follows payload fields (f a)) :
    Follows payload (field :: fields) (decodeField payload field decode default >>= f) := by
  unfold Follows decodeField
  rw [List.findSome?_cons]
  unfold Field.refusal?
  cases payload.get? field.name with
  | none => exact next default
  | some raw =>
    have agrees := agrees raw
    dsimp only
    cases found : decode raw with
    | none =>
      rw [found] at agrees
      simp only [← agrees, Option.isSome_none, Bool.false_eq_true, if_false]
      rfl
    | some a =>
      rw [found] at agrees
      simp only [← agrees, Option.isSome_some, if_true]
      exact next a

end

theorem readPayload_follows (interfaces : Interface.Registry) (occasion : Occasion)
    (payload : Payload) : Follows payload Field.all (readPayload interfaces occasion payload) := by
  unfold readPayload Field.all
  refine .cons (fun _ => rfl) fun eventId => ?_
  refine .cons (fun _ => rfl) fun message => ?_
  refine .cons (fun _ => rfl) fun level => ?_
  refine .cons (fun _ => Option.isSome_map) fun logger => ?_
  refine .cons (fun _ => rfl) fun serverName => ?_
  refine .cons (fun _ => rfl) fun culprit => ?_
  refine .cons (fun _ => Option.isSome_map) fun platform => ?_
  refine .cons (fun _ => rfl) fun release => ?_
  refine .cons (fun _ => Option.isSome_map) fun project => ?_
  refine .cons (fun _ => rfl) fun tags => ?_
  refine .cons (fun _ => rfl) fun datetime => ?_
  refine .cons (fun _ => rfl) fun timeSpent => ?_
  refine .cons (fun _ => rfl) fun extra => ?_
  exact ⟨_, rfl⟩

/-- The members give a known field a text that its decoder refuses, and none to a field before
    it. -/
def Blames (members : List (String × String)) (field : Field) (raw : String) : Prop :=
  ∃ before after, Field.all = before ++ field :: after ∧ latest members field.name = some raw ∧
    field.accepts raw = false ∧
    ∀ earlier ∈ before, ∀ text, latest members earlier.name = some text → earlier.accepts text

section

variable {members : List (String × String)} {field : Field} {raw : String}

theorem Field.refusal?_eq_some_iff {payload : Payload} {refusal : SubmissionError} :
    field.refusal? payload = some refusal ↔ ∃ raw, payload.get? field.name = some raw ∧
      field.accepts raw = false ∧ refusal = .invalidField field.name raw := by
  unfold refusal?
  cases payload.get? field.name with
  | none => simp
  | some raw =>
    constructor
    · intro refused
      dsimp only at refused
      split at refused
      · cases refused
      · next taken =>
        cases refused
        exact ⟨raw, rfl, by simpa using taken, rfl⟩
    · rintro ⟨_, found, refused, rfl⟩
      cases found
      simp [refused]

theorem Field.refusal?_eq_none_iff {payload : Payload} :
    field.refusal? payload = none ↔
      ∀ raw, payload.get? field.name = some raw → field.accepts raw := by
  unfold refusal?
  cases payload.get? field.name with
  | none => simp
  | some raw => simp

/-- The first refusal is that of the field to blame. -/
theorem findSome?_refusal?_eq_some_iff {refusal : SubmissionError} :
    Field.all.findSome? (Field.refusal? (.ofList members)) = some refusal ↔
      ∃ field raw, Blames members field raw ∧ refusal = .invalidField field.name raw := by
  rw [List.findSome?_eq_some_iff]
  simp only [Field.refusal?_eq_some_iff, Field.refusal?_eq_none_iff, Table.get?_ofList]
  constructor
  · rintro ⟨before, field, after, split, ⟨raw, found, refused, rfl⟩, earlier⟩
    exact ⟨field, raw, ⟨before, after, split, found, refused, earlier⟩, rfl⟩
  · rintro ⟨field, raw, ⟨before, after, split, found, refused, earlier⟩, rfl⟩
    exact ⟨before, field, after, split, ⟨raw, found, refused, rfl⟩, earlier⟩

end

/-! ## Whole bodies -/

section

variable {interfaces : Interface.Registry} {occasion : Occasion} {body : Bytes}
  {members : List (String × String)}

theorem readBody_of_spells (spelled : Body.Spells body members) :
    readBody interfaces occasion body = readPayload interfaces occasion (.ofList members) := by
  rw [readBody, Body.payload?_eq_some_iff.2 ⟨members, spelled, rfl⟩]

/-- A body that spells some members is refused for the field to blame and for nothing else. -/
theorem parse_eq_error_iff (spelled : Body.Spells body members) {err : SubmissionError} :
    (Protocol.standard interfaces).parse occasion body = .error err ↔
      ∃ field raw, Blames members field raw ∧ err = .invalidField field.name raw := by
  rw [Protocol.parse_standard, readBody_of_spells spelled, ← findSome?_refusal?_eq_some_iff]
  have follows := readPayload_follows interfaces occasion (.ofList members)
  unfold Follows at follows
  split at follows
  · next refusal first =>
    rw [follows, first]
    simp [Except.map]
  · next first =>
    obtain ⟨⟨r, logs⟩, read⟩ := follows
    rw [read, first]
    simp [Except.map]

/-- A body that is not refused gives one report. -/
theorem parse_cases (interfaces : Interface.Registry) (occasion : Occasion) (body : Bytes) :
    (∃ err, (Protocol.standard interfaces).parse occasion body = .error err) ∨
    ∃ r logs, (Protocol.standard interfaces).parse occasion body = .ok ⟨[r], logs⟩ := by
  rw [Protocol.parse_standard]
  cases readBody interfaces occasion body with
  | error err => exact .inl ⟨err, rfl⟩
  | ok found => exact .inr ⟨found.1, found.2, rfl⟩

/-- A body is malformed if it does not say any members. -/
theorem parse_eq_malformed_iff :
    (Protocol.standard interfaces).parse occasion body = .error .malformedJson ↔
      ¬ ∃ members, Body.Spells body members := by
  constructor
  · rintro refused ⟨members, spelled⟩
    obtain ⟨field, raw, -, same⟩ := (parse_eq_error_iff spelled).1 refused
    cases same
  · intro none
    rw [Protocol.parse_standard, readBody]
    cases found : Body.payload? body with
    | none => rfl
    | some payload =>
      obtain ⟨members, spelled, -⟩ := Body.payload?_eq_some_iff.1 found
      exact absurd ⟨members, spelled⟩ none

/-- The data of a report, where what nobody claims is archived in this order. -/
def archive (claims : List Interface.Claim) (order : List (String × String)) : Table Value :=
  order.foldl (fun data entry => data.insert entry.1 (.string entry.2))
    (claims.foldl (fun data c => data.insert c.id c.value.toValue) ∅)

/-- The order in which members are archived does not show. -/
theorem data_eq_archive (spelled : Body.Spells body members) {r : Report} {logs : List LogRecord}
    (read : (Protocol.standard interfaces).parse occasion body = .ok ⟨[r], logs⟩)
    {order : List (String × String)}
    (same : order.Perm (interfaces.claim (unknownMembers (.ofList members))).2.entries) :
    r.data = archive (interfaces.claim (unknownMembers (.ofList members))).1 order := by
  obtain ⟨payload, _, _, single, found, parts⟩ := exists_readFrom_of_parse read
  cases single
  rw [Body.payload?_eq_some_iff.2 ⟨members, spelled, rfl⟩] at found
  cases found
  have once := (interfaces.claim (unknownMembers (.ofList members))).2.nodup_keys
  rw [parts.data]
  exact Table.foldl_insert_perm Prod.fst (fun e => Value.string e.2) same.symm once _

/-- Bodies whose keys have the same texts are answered alike. -/
theorem parse_same {occasion' : Occasion} {body' : Bytes} {members' : List (String × String)}
    (spelled : Body.Spells body members) (spelled' : Body.Spells body' members')
    (same : ∀ key, latest members key = latest members' key) :
    SameOutcome
      (fun p p' => List.Forall₂ (SameReport occasion occasion') p.reports p'.reports ∧
        p.logs = p'.logs)
      ((Protocol.standard interfaces).parse occasion body)
      ((Protocol.standard interfaces).parse occasion' body') := by
  have tables : (.ofList members : Payload) = .ofList members' := by
    refine Table.ext_get? fun key => ?_
    rw [Table.get?_ofList, Table.get?_ofList]
    exact same key
  rw [Protocol.parse_standard, Protocol.parse_standard, readBody_of_spells spelled,
    readBody_of_spells spelled', ← tables]
  have alike : SameOutcome (fun x x' => SameReport occasion occasion' x.1 x'.1 ∧ x.2 = x'.2)
      (readPayload interfaces occasion (.ofList members))
      (readPayload interfaces occasion' (.ofList members)) := readPayload_same _
  generalize readPayload interfaces occasion (.ofList members) = x at alike ⊢
  generalize readPayload interfaces occasion' (.ofList members) = x' at alike ⊢
  cases alike with
  | error err => exact .error err
  | ok both => exact .ok ⟨.cons both.1 .nil, both.2⟩

end

/-- A body is malformed exactly if the grammar does not make it one object with readable keys.
    Otherwise it is refused exactly if a known field is to blame, with the name of the first such
    field and the very text that it has; and else it gives one report.  Neither other members nor
    interfaces ever matter for that.  Bodies whose keys have the same texts are answered alike, and
    the order in which members are archived does not show. -/
theorem refused_with_blame (interfaces : Interface.Registry) (occasion : Occasion) (body : Bytes) :
    ((Protocol.standard interfaces).parse occasion body = .error .malformedJson ↔
      ¬ ∃ members, Body.Spells body members) ∧
    ∀ members, Body.Spells body members →
      (∀ name raw,
        (Protocol.standard interfaces).parse occasion body = .error (.invalidField name raw) ↔
          ∃ field : Field, field.name = name ∧ Blames members field raw) ∧
      ((∀ field raw, ¬ Blames members field raw) →
        ∃ r logs, (Protocol.standard interfaces).parse occasion body = .ok ⟨[r], logs⟩) ∧
      (∀ interfaces' occasion' body' members', Body.Spells body' members' →
        (∀ field : Field, latest members field.name = latest members' field.name) → ∀ err,
          ((Protocol.standard interfaces).parse occasion body = .error err ↔
            (Protocol.standard interfaces').parse occasion' body' = .error err)) ∧
      (∀ occasion' body' members', Body.Spells body' members' →
        (∀ key, latest members key = latest members' key) →
        SameOutcome
          (fun p p' => List.Forall₂ (SameReport occasion occasion') p.reports p'.reports ∧
            p.logs = p'.logs)
          ((Protocol.standard interfaces).parse occasion body)
          ((Protocol.standard interfaces).parse occasion' body')) ∧
      ∀ r logs, (Protocol.standard interfaces).parse occasion body = .ok ⟨[r], logs⟩ →
        ∀ order,
          order.Perm (interfaces.claim (unknownMembers (.ofList members))).2.entries →
          r.data = archive (interfaces.claim (unknownMembers (.ofList members))).1 order := by
  refine ⟨parse_eq_malformed_iff, fun members spelled => ⟨fun name raw => ?_, fun blameless => ?_,
    ?_, fun _ _ _ spelled' same => parse_same spelled spelled' same,
    fun r logs read order same => data_eq_archive spelled read same⟩⟩
  · rw [parse_eq_error_iff spelled]
    constructor
    · rintro ⟨field, text, blames, same⟩
      cases same
      exact ⟨field, rfl, blames⟩
    · rintro ⟨field, rfl, blames⟩
      exact ⟨field, raw, blames, rfl⟩
  · refine (parse_cases interfaces occasion body).resolve_left fun ⟨err, refused⟩ => ?_
    obtain ⟨field, raw, blames, -⟩ := (parse_eq_error_iff spelled).1 refused
    exact blameless field raw blames
  · intro interfaces' occasion' body' members' spelled' same err
    rw [parse_eq_error_iff spelled, parse_eq_error_iff spelled']
    simp only [Blames, same]

/-- A body with a level twice, of which the last is none, and a number that is past all doubles. -/
def loudBody : Bytes :=
  Text.toBytes "\x7b\"level\":\"error\", \"zzz\":[1e999], \"level\" : 77 \x7d"

theorem refused_with_blame_loudBody :
    (Protocol.standard .standard).parse ⟨.epoch, "e1"⟩ loudBody =
      .error (.invalidField "level" "77") ∧
    ∃ members, Body.Spells loudBody members ∧
      ∃ field : Field, field.name = "level" ∧ Blames members field "77" := by
  have first : ((Body.payload? loudBody).bind fun payload =>
      Field.all.findSome? (Field.refusal? payload)) = some (.invalidField "level" "77") := by
    decide +kernel
  obtain ⟨payload, found, refusal⟩ := Option.bind_eq_some_iff.1 first
  obtain ⟨members, spelled, rfl⟩ := Body.payload?_eq_some_iff.1 found
  obtain ⟨field, raw, blames, same⟩ := findSome?_refusal?_eq_some_iff.1 refusal
  obtain ⟨blame, -⟩ :=
    (refused_with_blame .standard ⟨.epoch, "e1"⟩ loudBody).2 members spelled
  obtain ⟨name, text⟩ := SubmissionError.invalidField.inj same
  subst text
  refine ⟨?_, members, spelled, field, name.symm, blames⟩
  exact (blame "level" "77").2 ⟨field, name.symm, blames⟩

end ErrorIntake.Submission
