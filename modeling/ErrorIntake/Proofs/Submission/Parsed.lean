import ErrorIntake.Proofs.Report.RoundTrip
import ErrorIntake.Submission.Protocol

/-!
# Reports of submissions

A body of version 2.0 gives one report, each part of which is read from the payload as `ReadFrom`
tells.  A request is read before its reports are bound, and `Protocol.mapM_bind` says what becomes of
them: all are bound to its project, or the first that names another one is refused.  So a request of
version 2.0 that is not refused gives exactly one report, which is canonical.
-/

namespace ErrorIntake

namespace Report

/-- The report as one of a project. -/
def boundTo (r : Report) (project : ProjectId) : Report := { r with project := some project }

/-- Reports keep their ids when they are bound. -/
theorem map_eventId_boundTo (reports : List Report) (project : ProjectId) :
    (reports.map (·.boundTo project)).map eventId = reports.map eventId := List.map_map

/-- The project that the report names, if it is not the expected one. -/
def foreign? (r : Report) (expected : ProjectId) : Option ProjectId :=
  r.project.filter (· ≠ expected)

theorem foreign?_eq_none_iff {r : Report} {expected : ProjectId} :
    r.foreign? expected = none ↔ r.project = none ∨ r.project = some expected := by
  unfold foreign?
  cases r.project with
  | none => simp
  | some actual => simp

theorem foreign?_eq_some_iff {r : Report} {expected actual : ProjectId} :
    r.foreign? expected = some actual ↔ r.project = some actual ∧ actual ≠ expected := by
  simp [foreign?, Option.filter_eq_some_iff]

theorem findSome?_foreign?_eq_none_iff {reports : List Report} {expected : ProjectId} :
    reports.findSome? (·.foreign? expected) = none ↔
      ∀ r ∈ reports, r.project = none ∨ r.project = some expected := by
  simp only [List.findSome?_eq_none_iff, foreign?_eq_none_iff]

theorem findSome?_foreign?_eq_some_iff {reports : List Report} {expected actual : ProjectId} :
    reports.findSome? (·.foreign? expected) = some actual ↔
      ∃ before r rest, reports = before ++ r :: rest ∧
        (r.project = some actual ∧ actual ≠ expected) ∧
        ∀ r ∈ before, r.project = none ∨ r.project = some expected := by
  simp only [List.findSome?_eq_some_iff, foreign?_eq_some_iff, foreign?_eq_none_iff]

end Report

namespace Submission

open Json (Tree Value)

theorem bind_eq_ok {ε α β : Type} {x : Except ε α} {f : α → Except ε β} {b : β}
    (h : x >>= f = .ok b) : ∃ a, x = .ok a ∧ f a = .ok b := by
  cases x with
  | error e => cases h
  | ok a => exact ⟨a, rfl, h⟩

theorem decodeField_spec {α : Type} {p : α → Prop} {payload : Payload} {field : Field}
    {decode : String → Option α} {default a : α} (values : ∀ raw a, decode raw = some a → p a)
    (given : p default) (read : decodeField payload field decode default = .ok a) : p a := by
  unfold decodeField at read
  split at read
  · cases read
    exact given
  · next raw _ =>
    split at read
    · next found =>
      cases read
      exact values raw a found
    · cases read

theorem Field.isCanonical_extra? {raw : String} {t : Table Value} (read : extra? raw = some t) :
    ∀ m ∈ t.entries, m.2.Each Value.IsCanonical := by
  obtain ⟨tree, _, read⟩ := Option.bind_eq_some_iff.1 read
  obtain ⟨members, found, same⟩ := Option.bind_eq_some_iff.1 read
  cases same
  cases members with
  | none => simp
  | some table =>
    exact Tree.option?_spec (p := fun table : Table Value =>
      ∀ m ∈ table.entries, m.2.Each Value.IsCanonical)
      (fun _ _ => Tree.table?_spec fun _ _ => Value.isCanonical_of_ofTree?) found table rfl

theorem Field.isInt64_timeSpent? {raw : String} {t : Option Int} (read : timeSpent? raw = some t) :
    ∀ ms, t = some ms → IsInt64 ms := by
  obtain ⟨tree, _, read⟩ := Option.bind_eq_some_iff.1 read
  exact Tree.option?_spec (p := IsInt64) (fun _ _ => Tree.int64?_range) read

/-- What holds of the values of a table and of those that are inserted holds of all values then. -/
theorem foldl_insert_spec {α : Type} {p : Value → Prop} (key : α → String) (value : α → Value)
    (l : List α) (new : ∀ a ∈ l, p (value a)) (t : Table Value) (old : ∀ m ∈ t.entries, p m.2) :
    ∀ m ∈ (l.foldl (fun t a => t.insert (key a) (value a)) t).entries, p m.2 := by
  induction l generalizing t with
  | nil => exact old
  | cons a rest ih =>
    refine ih (fun a ha => new a (List.mem_cons_of_mem _ ha)) _ fun m hm => ?_
    rcases Table.mem_insertEntry hm with rfl | hm
    · exact new a List.mem_cons_self
    · exact old m hm

theorem isCanonical_dataOf (interfaces : Interface.Registry) (payload : Payload) :
    ∀ m ∈ (dataOf (interfaces.claim payload).1 (interfaces.claim payload).2).entries,
      m.2.Each Value.IsCanonical := by
  refine foldl_insert_spec Prod.fst (fun e => .string e.2) _
    (fun e _ => Value.isCanonical_string e.2) _ ?_
  exact foldl_insert_spec Interface.Claim.id (fun c => c.value.toValue) _
    (fun c _ => c.value.canonical) ∅ (by simp)

/-- Every member of a report is read from its own field of the payload, or made of what the payload
    has beside the known fields. -/
structure ReadFrom (interfaces : Interface.Registry) (occasion : Occasion) (payload : Payload)
    (r : Report) (logs : List LogRecord) : Prop where
  eventId : decodeField payload .eventId Field.eventId? occasion.freshId = .ok r.eventId
  message : decodeField payload .message Field.text? "" = .ok r.message
  level : decodeField payload .level Field.level? default = .ok r.level
  logger : decodeField payload .logger (Field.textOr? defaultLogger) defaultLogger = .ok r.logger
  serverName : decodeField payload .serverName Field.text? "" = .ok r.serverName
  culprit : decodeField payload .culprit Field.text? "" = .ok r.culprit
  platform : decodeField payload .platform (Field.textOr? defaultPlatform) defaultPlatform =
    .ok r.platform
  release : decodeField payload .release Field.text? "" = .ok r.release
  version : r.version = Submission.version
  project : decodeField payload .project (fun raw => (Field.project? raw).map some) none =
    .ok r.project
  tags : decodeField payload .tags Field.tags? ∅ = .ok r.tags
  datetime : decodeField payload .timestamp Field.timestamp? occasion.now = .ok r.datetime
  timeSpent : decodeField payload .timeSpent Field.timeSpent? none = .ok r.timeSpent
  extra : decodeField payload .extra Field.extra? ∅ = .ok r.extra
  checksum : r.checksum = fingerprintOf (interfaces.claim (unknownMembers payload)).1 r.message
  data : r.data = dataOf (interfaces.claim (unknownMembers payload)).1
    (interfaces.claim (unknownMembers payload)).2
  logs : logs = (interfaces.claim (unknownMembers payload)).1.filterMap Interface.Claim.warning?

section

variable {interfaces : Interface.Registry} {occasion : Occasion} {payload : Payload} {r : Report}
  {logs : List LogRecord}

theorem readFrom_of_readPayload (read : readPayload interfaces occasion payload = .ok (r, logs)) :
    ReadFrom interfaces occasion payload r logs := by
  unfold readPayload at read
  obtain ⟨eventId, isEventId, read⟩ := bind_eq_ok read
  obtain ⟨message, isMessage, read⟩ := bind_eq_ok read
  obtain ⟨level, isLevel, read⟩ := bind_eq_ok read
  obtain ⟨logger, isLogger, read⟩ := bind_eq_ok read
  obtain ⟨serverName, isServerName, read⟩ := bind_eq_ok read
  obtain ⟨culprit, isCulprit, read⟩ := bind_eq_ok read
  obtain ⟨platform, isPlatform, read⟩ := bind_eq_ok read
  obtain ⟨release, isRelease, read⟩ := bind_eq_ok read
  obtain ⟨project, isProject, read⟩ := bind_eq_ok read
  obtain ⟨tags, isTags, read⟩ := bind_eq_ok read
  obtain ⟨datetime, isDatetime, read⟩ := bind_eq_ok read
  obtain ⟨timeSpent, isTimeSpent, read⟩ := bind_eq_ok read
  obtain ⟨extra, isExtra, read⟩ := bind_eq_ok read
  cases read
  exact
    { eventId := isEventId, message := isMessage, level := isLevel, logger := isLogger
      serverName := isServerName, culprit := isCulprit, platform := isPlatform
      release := isRelease, version := rfl, project := isProject, tags := isTags
      datetime := isDatetime, timeSpent := isTimeSpent, extra := isExtra, checksum := rfl
      data := rfl, logs := rfl }

/-- A body that is read has a payload, which its report is read from. -/
theorem exists_readFrom_of_readBody {body : Bytes}
    (read : readBody interfaces occasion body = .ok (r, logs)) :
    ∃ payload, Body.payload? body = some payload ∧
      ReadFrom interfaces occasion payload r logs := by
  unfold readBody at read
  split at read
  · next payload found => exact ⟨payload, found, readFrom_of_readPayload read⟩
  · cases read

/-- The free values of a report that was read are canonical, and its time fits. -/
theorem ReadFrom.isCanonical (parts : ReadFrom interfaces occasion payload r logs) :
    (∀ m ∈ r.free, m.2.Each Value.IsCanonical) ∧ ∀ ms, r.timeSpent = some ms → IsInt64 ms := by
  have extra : ∀ m ∈ r.extra.entries, m.2.Each Value.IsCanonical :=
    decodeField_spec (p := fun t : Table Value => ∀ m ∈ t.entries, m.2.Each Value.IsCanonical)
      (fun _ _ => Field.isCanonical_extra?) (by simp) parts.extra
  have data : ∀ m ∈ r.data.entries, m.2.Each Value.IsCanonical := by
    rw [parts.data]
    exact isCanonical_dataOf interfaces _
  refine ⟨List.forall_mem_append.2 ⟨extra, data⟩, ?_⟩
  exact decodeField_spec (p := fun t : Option Int => ∀ ms, t = some ms → IsInt64 ms)
    (fun _ _ => Field.isInt64_timeSpent?) (by simp) parts.timeSpent

end

/-! ## Whole bodies -/

theorem Protocol.parse_standard (interfaces : Interface.Registry) (occasion : Occasion)
    (body : Bytes) : (standard interfaces).parse occasion body =
      (readBody interfaces occasion body).map fun (r, logs) => ⟨[r], logs⟩ := rfl

/-- A body of version 2.0 that is read gives one report. -/
theorem exists_readFrom_of_parse {interfaces : Interface.Registry} {occasion : Occasion}
    {body : Bytes} {parsed : Parsed}
    (read : (Protocol.standard interfaces).parse occasion body = .ok parsed) :
    ∃ payload r logs, parsed = ⟨[r], logs⟩ ∧ Body.payload? body = some payload ∧
      ReadFrom interfaces occasion payload r logs := by
  rw [Protocol.parse_standard] at read
  cases found : readBody interfaces occasion body with
  | error err =>
    rw [found] at read
    cases read
  | ok made =>
    obtain ⟨r, logs⟩ := made
    rw [found] at read
    cases read
    obtain ⟨payload, spelled, parts⟩ := exists_readFrom_of_readBody found
    exact ⟨payload, r, logs, rfl, spelled, parts⟩

/-! ## Whole requests -/

/-- Unpacks and reads a request, and leaves its reports as they are. -/
def Protocol.read (p : Protocol) (occasion : Occasion) (e : Envelope) :
    Except SubmissionError (List Report) := do
  let body ← p.unpack e
  let parsed ← p.parse occasion body
  return parsed.reports

/-- Unpacks and reads a request of a version, and leaves its reports as they are. -/
def Protocols.read (ps : Protocols) (occasion : Occasion) (version : String) (e : Envelope) :
    Except SubmissionError (List Report) := do
  let p ← ps.find version
  p.read occasion e

theorem Protocol.result_parseEnvelope (p : Protocol) (occasion : Occasion) (e : Envelope) :
    (p.parseEnvelope occasion e).result =
      p.read occasion e >>= List.mapM (Protocol.bind e.project) := by
  unfold parseEnvelope read
  cases p.unpack e with
  | error err => rfl
  | ok body =>
    dsimp only [Bind.bind, Except.bind]
    cases p.parse occasion body with
    | error err => rfl
    | ok parsed => rfl

/-- Reading comes before binding. -/
theorem Protocols.result_parseEnvelope (ps : Protocols) (occasion : Occasion) (version : String)
    (e : Envelope) :
    (ps.parseEnvelope occasion version e).result =
      ps.read occasion version e >>= List.mapM (Protocol.bind e.project) := by
  unfold parseEnvelope read
  cases ps.find version with
  | error err => rfl
  | ok p => exact p.result_parseEnvelope occasion e

/-- Binding refuses a report that names another project, and keeps all but the project of any
    other. -/
theorem Protocol.bind_eq (expected : ProjectId) (r : Report) :
    bind expected r = match r.foreign? expected with
      | some actual => .error (.projectMismatch expected actual)
      | none => .ok (r.boundTo expected) := by
  cases foreign : r.foreign? expected with
  | some actual =>
    obtain ⟨named, other⟩ := Report.foreign?_eq_some_iff.1 foreign
    rw [bind, named]
    exact if_neg other
  | none =>
    rcases Report.foreign?_eq_none_iff.1 foreign with named | named
    · rw [bind, named]
      rfl
    · have same : r.boundTo expected = r := by rw [Report.boundTo, ← named]
      rw [bind, named, same]
      exact if_pos rfl

/-- All reports are bound, or the first that names another project is refused. -/
theorem Protocol.mapM_bind (expected : ProjectId) (reports : List Report) :
    reports.mapM (bind expected) = match reports.findSome? (·.foreign? expected) with
      | some actual => .error (.projectMismatch expected actual)
      | none => .ok (reports.map (·.boundTo expected)) := by
  induction reports with
  | nil => rfl
  | cons r rest ih =>
    rw [List.mapM_cons, bind_eq, ih, List.findSome?_cons]
    cases r.foreign? expected with
    | some actual => rfl
    | none =>
      cases rest.findSome? (·.foreign? expected) with
      | some actual => rfl
      | none => rfl

/-- An accepted request was unpacked and read, and its reports are those of its body, bound. -/
theorem Protocol.exists_parsed_of_result {p : Protocol} {occasion : Occasion} {e : Envelope}
    {reports : List Report} (accepted : (p.parseEnvelope occasion e).result = .ok reports) :
    ∃ body parsed, p.unpack e = .ok body ∧ p.parse occasion body = .ok parsed ∧
      reports = parsed.reports.map (·.boundTo e.project) := by
  rw [result_parseEnvelope] at accepted
  obtain ⟨read, isRead, accepted⟩ := bind_eq_ok accepted
  obtain ⟨body, unpacked, isRead⟩ := bind_eq_ok isRead
  obtain ⟨parsed, isParsed, same⟩ := bind_eq_ok isRead
  cases same
  rw [mapM_bind] at accepted
  split at accepted
  · cases accepted
  · cases accepted
    exact ⟨body, parsed, unpacked, isParsed, rfl⟩

theorem Protocols.parseEnvelope_standard (interfaces : Interface.Registry) (occasion : Occasion)
    (e : Envelope) :
    (standard interfaces).parseEnvelope occasion version e =
      (Protocol.standard interfaces).parseEnvelope occasion e := by
  have found : (standard interfaces).find version = .ok (.standard interfaces) := by
    unfold find standard
    rw [Table.get?_insert, if_pos rfl]
  rw [parseEnvelope, found]

/-- An accepted request of version 2.0 gives one report, which is canonical. -/
theorem Protocols.parsed_report {interfaces : Interface.Registry} {occasion : Occasion}
    {e : Envelope} {reports : List Report} (fits : IsInt64 e.project.value)
    (h : ((standard interfaces).parseEnvelope occasion version e).result = .ok reports) :
    ∃ r : Report, reports = [r] ∧ r.IsCanonical := by
  rw [parseEnvelope_standard] at h
  obtain ⟨body, parsed, -, isParsed, rfl⟩ := Protocol.exists_parsed_of_result h
  obtain ⟨payload, raw, logs, rfl, -, parts⟩ := exists_readFrom_of_parse isParsed
  obtain ⟨values, timeSpent⟩ := parts.isCanonical
  refine ⟨_, rfl, ⟨values, ?_, timeSpent⟩⟩
  rintro p same
  cases same
  exact fits

end Submission

end ErrorIntake
