import ErrorIntake.Proofs.Encoding.Base64
import ErrorIntake.Proofs.Submission.Parsed
import ErrorIntake.Proofs.Text.Blank

/-!
# Packed bodies

Plain JSON is told from packed bodies by one octet.  No zlib stream and no text in base 64 has it
first, blanks aside, so the three ways to pack a body give back the same body.  What is made of a
body depends on the occasion only for an id and a time that the body does not bring.
-/

namespace ErrorIntake

namespace Submission

namespace Envelope

/-- The text is `deflate`, with blanks around it and capitals where it likes. -/
def SaysDeflate (encoding : String) : Prop :=
  ∃ before word after : List Char, encoding.toList = before ++ word ++ after ∧
    (∀ c ∈ before, Text.isBlank c) ∧ (∀ c ∈ after, Text.isBlank c) ∧
    word.map Char.toLower = "deflate".toList

theorem isDeflate_of_saysDeflate {encoding : String} (told : SaysDeflate encoding) :
    isDeflate (some encoding) = true := by
  obtain ⟨before, word, after, spelled, front, back, lowered⟩ := told
  have inside : ∀ c ∈ word, Text.isBlank c = false := by
    intro c member
    by_contra blank
    have blank : Text.isBlank c = true := by simpa using blank
    have small : c.toLower ∈ "deflate".toList := lowered ▸ List.mem_map_of_mem member
    rw [Text.toLower_of_isBlank blank] at small
    have none : ∀ c ∈ "deflate".toList, Text.isBlank c = false := by
      simp [Text.isBlank, Text.inRanges, Text.blankRanges]
    rw [none c small] at blank
    cases blank
  have trimmed : Text.trim encoding.toList = word := by
    rw [spelled]
    exact Text.trimmed_between front inside back
  rw [isDeflate, trimmed, lowered]
  rfl

variable {project : ProjectId} {b z body : Bytes}

/-- A zlib stream is not taken for plain JSON. -/
theorem not_isPlain_of_decompress? (stream : Zlib.decompress? z = some b) : isPlain z = false := by
  unfold Zlib.decompress? at stream
  split at stream
  · next method flags rest =>
    split at stream
    · next header =>
      have low : method.toNat % 16 = 8 := by
        simp only [Zlib.isHeader, Bool.and_eq_true, beq_iff_eq] at header
        exact header.1.1.2
      have other : ∀ x : UInt8, x.toNat % 16 ≠ 8 → method ≠ x := by
        rintro x apart rfl
        exact apart low
      have solid : Text.isBlankByte method = false := by
        simp only [Text.isBlankByte, Bool.or_eq_false_iff, beq_eq_false_iff_ne]
        exact ⟨⟨⟨⟨other _ (by decide), other _ (by decide)⟩, other _ (by decide)⟩,
          other _ (by decide)⟩, other _ (by decide)⟩
      have first : (method :: flags :: rest).find? (fun b => !Text.isBlankByte b) = some method :=
        List.find?_cons_of_pos (by simp [solid])
      rw [isPlain, first]
      simpa using other openBrace (by decide)
    · cases stream
  · cases stream

/-- Neither is a text in base 64. -/
theorem not_isPlain_of_decode? {bytes : Bytes}
    (text : Base64.decode? (Text.trimBytes body) = some bytes) : isPlain body = false := by
  unfold isPlain
  cases found : body.find? fun b => !Text.isBlankByte b with
  | none => rfl
  | some x =>
    have solid : Text.isBlankByte x = false := by simpa using List.find?_some found
    have octet := Base64.isOctet_of_decode? text x
      (Text.mem_trimBytes (List.mem_of_find?_eq_some found) solid)
    have apart : x ≠ openBrace := by
      rintro rfl
      rcases octet with valued | padded
      · cases valued
      · cases padded
    simpa using apart

theorem unpack_plain (plain : isPlain b = true) (encoding : Option String) :
    unpack ⟨project, b, encoding⟩ = .ok b := by
  rw [unpack, if_pos plain]

theorem unpack_zlib (stream : Zlib.decompress? z = some b) {encoding : Option String}
    (told : isDeflate encoding = true) : unpack ⟨project, z, encoding⟩ = .ok b := by
  have packed := not_isPlain_of_decompress? stream
  simp only [unpack, packed, told, Bool.false_eq_true, if_false, if_true, inflate, stream]

theorem unpack_base64 (stream : Zlib.decompress? z = some b) {before after : Bytes}
    (front : ∀ x ∈ before, Text.isBlankByte x) (back : ∀ x ∈ after, Text.isBlankByte x)
    {encoding : Option String} (told : isDeflate encoding = false) :
    unpack ⟨project, before ++ Base64.encode z ++ after, encoding⟩ = .ok b := by
  have inside : ∀ x ∈ Base64.encode z, Text.isBlankByte x = false := fun x member =>
    (Base64.isOctet_of_decode? (Base64.decode?_encode z) x member).not_isBlankByte
  have trimmed : Text.trimBytes (before ++ Base64.encode z ++ after) = Base64.encode z :=
    Text.trimmed_between front inside back
  have text : Base64.decode? (Text.trimBytes (before ++ Base64.encode z ++ after)) = some z := by
    rw [trimmed, Base64.decode?_encode]
  have packed := not_isPlain_of_decode? text
  simp only [unpack, packed, told, Bool.false_eq_true, if_false, text, inflate, stream]

end Envelope

/-! ## Occasions -/

/-- Two readings of a report that differ at most in what their occasions added. -/
structure SameReport (o o' : Occasion) (r r' : Report) : Prop where
  rest : { r with eventId := r'.eventId, datetime := r'.datetime } = r'
  eventId : r.eventId = r'.eventId ∨ r.eventId = o.freshId ∧ r'.eventId = o'.freshId
  datetime : r.datetime = r'.datetime ∨ r.datetime = o.now ∧ r'.datetime = o'.now

/-- The same error, or results that are alike. -/
inductive SameOutcome {ε α : Type} (alike : α → α → Prop) : Except ε α → Except ε α → Prop
  | ok {a a' : α} (h : alike a a') : SameOutcome alike (.ok a) (.ok a')
  | error (e : ε) : SameOutcome alike (.error e) (.error e)

/-- The same warnings, and the same error or reports that differ at most in what their occasions
    added. -/
structure SameAnswer (o o' : Occasion) (a a' : Protocol.Answer) : Prop where
  result : SameOutcome (List.Forall₂ (SameReport o o')) a.result a'.result
  logs : a.logs = a'.logs

namespace SameOutcome

variable {ε α β : Type} {alike : α → α → Prop} {next : β → β → Prop} {x x' : Except ε α}
  {f f' : α → Except ε β}

theorem bind (h : SameOutcome alike x x')
    (step : ∀ a a', alike a a' → SameOutcome next (f a) (f' a')) :
    SameOutcome next (x >>= f) (x' >>= f') := by
  cases h with
  | ok h => exact step _ _ h
  | error e => exact .error e

/-- What does not depend on the occasion is read alike. -/
theorem bind_same (step : ∀ a, SameOutcome next (f a) (f' a)) :
    SameOutcome next (x >>= f) (x >>= f') := by
  cases x with
  | ok a => exact step a
  | error e => exact .error e

end SameOutcome

variable {interfaces : Interface.Registry} {o o' : Occasion}

/-- A field is decoded alike, or both times the default is taken. -/
theorem decodeField_same {α : Type} (payload : Payload) (field : Field) (decode : String → Option α)
    (default default' : α) :
    SameOutcome (fun a a' => a = a' ∨ a = default ∧ a' = default')
      (decodeField payload field decode default) (decodeField payload field decode default') := by
  unfold decodeField
  split
  · exact .ok (.inr ⟨rfl, rfl⟩)
  · split
    · exact .ok (.inl rfl)
    · exact .error _

theorem readPayload_same (payload : Payload) :
    SameOutcome (fun x x' => SameReport o o' x.1 x'.1 ∧ x.2 = x'.2)
      (readPayload interfaces o payload) (readPayload interfaces o' payload) := by
  unfold readPayload
  refine (decodeField_same payload .eventId Field.eventId? o.freshId o'.freshId).bind
    fun eventId eventId' sameId => ?_
  -- Between the id and the time, nothing depends on the occasion.
  iterate 9 refine SameOutcome.bind_same fun _ => ?_
  refine (decodeField_same payload .timestamp Field.timestamp? o.now o'.now).bind
    fun datetime datetime' sameTime => ?_
  iterate 2 refine SameOutcome.bind_same fun _ => ?_
  exact .ok ⟨⟨rfl, sameId, sameTime⟩, rfl⟩

theorem readBody_same (interfaces : Interface.Registry) (o o' : Occasion) (body : Bytes) :
    SameOutcome (fun x x' => SameReport o o' x.1 x'.1 ∧ x.2 = x'.2)
      (readBody interfaces o body) (readBody interfaces o' body) := by
  unfold readBody
  split
  · exact readPayload_same _
  · exact .error _

theorem Protocol.bind_same {expected : ProjectId} {r r' : Report} (same : SameReport o o' r r') :
    SameOutcome (SameReport o o') (bind expected r) (bind expected r') := by
  have project : r'.project = r.project := by
    rw [← same.rest]
  unfold bind
  rw [project]
  cases r.project with
  | none =>
    refine .ok ⟨?_, same.eventId, same.datetime⟩
    rw [← same.rest]
  | some actual =>
    dsimp only
    split
    · exact .ok same
    · exact .error _

/-- What a request is answered depends on its encoding only through the body that is unpacked, and
    on the occasion only through an id and a time that the body does not bring. -/
theorem parseEnvelope_same {e e' : Envelope} (unpacked : e.unpack = e'.unpack)
    (project : e.project = e'.project) :
    SameAnswer o o' ((Protocol.standard interfaces).parseEnvelope o e)
      ((Protocol.standard interfaces).parseEnvelope o' e') := by
  have unpack : (Protocol.standard interfaces).unpack = Envelope.unpack := rfl
  have parse (o : Occasion) (body : Bytes) : (Protocol.standard interfaces).parse o body =
      (readBody interfaces o body).map fun read => ⟨[read.1], read.2⟩ := rfl
  unfold Protocol.parseEnvelope
  rw [unpack, unpacked, project]
  cases e'.unpack with
  | error err => exact ⟨.error _, rfl⟩
  | ok body =>
    simp only [parse]
    have same := readBody_same interfaces o o' body
    generalize readBody interfaces o body = x at same ⊢
    generalize readBody interfaces o' body = x' at same ⊢
    cases same with
    | error err => exact ⟨.error _, rfl⟩
    | ok h =>
      obtain ⟨report, logs⟩ := h
      refine ⟨?_, logs⟩
      exact (Protocol.bind_same report).bind fun a a' alike => .ok (.cons alike .nil)

/-- The three ways to pack a body give it back: plain JSON whatever the request tells, a zlib stream
    under `deflate`, and its text in base 64 with blanks around it where the request does not tell
    `deflate`.  So they are answered alike, and the same on one occasion; no zlib stream and no text
    in base 64 is ever taken for plain JSON. -/
theorem encodings_agree (interfaces : Interface.Registry) (project : ProjectId) (b z : Bytes)
    (plain : Envelope.isPlain b = true) (stream : Zlib.decompress? z = some b) (deflate : String)
    (told : Envelope.SaysDeflate deflate) (before after : Bytes)
    (front : ∀ x ∈ before, Text.isBlankByte x) (back : ∀ x ∈ after, Text.isBlankByte x) :
    (∀ e ∈ [⟨project, z, some deflate⟩, ⟨project, before ++ Base64.encode z ++ after, none⟩],
      e.unpack = .ok b ∧ ∀ any : Option String,
        Envelope.unpack ⟨project, b, any⟩ = .ok b ∧
        (∀ o, (Protocol.standard interfaces).parseEnvelope o e =
          (Protocol.standard interfaces).parseEnvelope o ⟨project, b, any⟩) ∧
        ∀ o o', SameAnswer o o' ((Protocol.standard interfaces).parseEnvelope o e)
          ((Protocol.standard interfaces).parseEnvelope o' ⟨project, b, any⟩)) ∧
    (∀ z' b', Zlib.decompress? z' = some b' → Envelope.isPlain z' = false) ∧
    ∀ body bytes, Base64.decode? (Text.trimBytes body) = some bytes →
      Envelope.isPlain body = false := by
  refine ⟨fun e listed => ?_, fun z' b' => Envelope.not_isPlain_of_decompress?,
    fun body bytes => Envelope.not_isPlain_of_decode?⟩
  have unpacked : e.unpack = .ok b ∧ e.project = project := by
    rcases List.mem_pair.1 listed with rfl | rfl
    · exact ⟨Envelope.unpack_zlib stream (Envelope.isDeflate_of_saysDeflate told), rfl⟩
    · exact ⟨Envelope.unpack_base64 stream front back rfl, rfl⟩
  refine ⟨unpacked.1, fun any => ?_⟩
  have plainly : Envelope.unpack ⟨project, b, any⟩ = .ok b := Envelope.unpack_plain plain any
  have same : e.unpack = Envelope.unpack ⟨project, b, any⟩ := unpacked.1.trans plainly.symm
  refine ⟨plainly, fun o => ?_, fun o o' => parseEnvelope_same same unpacked.2⟩
  have unpack : (Protocol.standard interfaces).unpack = Envelope.unpack := rfl
  rw [Protocol.parseEnvelope, Protocol.parseEnvelope, unpack, same, unpacked.2]

/-- The stream of an empty object, in a block with the fixed codes. -/
def emptyStream : Bytes :=
  [0x78, 0x9C, 0xAB, 0xAE, 0x05, 0x00, 0x01, 0x75, 0x00, 0xF9]

theorem encodings_agree_emptyStream :
    Envelope.isPlain (Text.toBytes "\x7b\x7d") = true ∧
    Zlib.decompress? emptyStream = some (Text.toBytes "\x7b\x7d") ∧
    Envelope.SaysDeflate " Deflate\t" ∧
    (∀ e ∈ [⟨⟨1⟩, emptyStream, some " Deflate\t"⟩,
        ⟨⟨1⟩, [0x20, 0x0A] ++ Base64.encode emptyStream ++ [0x0D], none⟩],
      Envelope.unpack e = .ok (Text.toBytes "\x7b\x7d")) := by
  have plain : Envelope.isPlain (Text.toBytes "\x7b\x7d") = true := by decide +kernel
  have stream : Zlib.decompress? emptyStream = some (Text.toBytes "\x7b\x7d") := by
    decide +kernel
  have told : Envelope.SaysDeflate " Deflate\t" :=
    ⟨[' '], "Deflate".toList, ['\t'], by simp,
      by simp [Text.isBlank, Text.inRanges, Text.blankRanges],
      by simp [Text.isBlank, Text.inRanges, Text.blankRanges], by simp⟩
  obtain ⟨unpacked, -⟩ := encodings_agree .standard ⟨1⟩ _ _ plain stream " Deflate\t" told
    [0x20, 0x0A] [0x0D] (by decide +kernel) (by decide +kernel)
  exact ⟨plain, stream, told, fun e listed => (unpacked e listed).1⟩

end Submission

end ErrorIntake
