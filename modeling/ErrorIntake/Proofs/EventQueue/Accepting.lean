import ErrorIntake.Proofs.EventQueue.Delivery
import ErrorIntake.Proofs.Ledger.Commands

/-!
# What a submission puts on the queue

A submission is read, its reports are bound to the project that it was authenticated for, and the
bound reports are published one by one.  Reading and binding leave the queue alone and every
publication succeeds, so a submission is taken in whole or not at all: `ingest_cases` has the three
ways in which it can end, and `pushAll_spec` what is published.
-/

namespace ErrorIntake

open Calendar (Reading)
open Queue (Broker Slot)
open Submission (Envelope Occasion Protocol Protocols)

namespace Intake

/-- The broker once some reports are published: a new message for each, in their order, with the
    ids that follow. -/
theorem pushAll_spec (q : EventQueue) (now : Reading) (reports : List Report) (b : Broker) :
    (pushAll q now reports b).2.lastId = b.lastId + reports.length ∧
    (pushAll q now reports b).2.slots = b.slots ++ reports.mapIdx fun i r =>
      ⟨⟨(b.lastId + 1 + i : Nat)⟩, q.name, q.payload r, 0, now.wall,
        now.steady⟩ := by
  induction reports generalizing b with
  | nil => simp [pushAll]
  | cons r rest ih =>
    obtain ⟨last, slots⟩ := ih (b.publish now q.name (q.payload r)).2
    show (pushAll q now rest (b.publish _ _ _).2).2.lastId = _ ∧
      (pushAll q now rest (b.publish _ _ _).2).2.slots = _
    rw [last, slots, List.mapIdx_cons]
    constructor
    · show b.lastId + 1 + rest.length = b.lastId + (rest.length + 1)
      omega
    · show (b.slots ++ [_]) ++ _ = _
      rw [List.append_assoc, List.singleton_append]
      congr 2
      refine List.mapIdx_eq_mapIdx_iff.2 fun i _ => ?_
      -- The ids of the rest are counted from the id of the first.
      show Slot.mk ⟨((b.lastId + 1 + 1 + i : Nat) : Int)⟩ .. = _
      rw [show b.lastId + 1 + 1 + i = b.lastId + 1 + (i + 1) by omega]

variable (ps : Protocols) (q : EventQueue) (now : Reading) (freshId version : String) (e : Envelope)
  (b : Broker)

/-- A submission is not read, or one of its reports names another project, or its reports are
    published as those of its project. -/
theorem ingest_cases :
    (∃ err logs, ps.read ⟨now.wall, freshId⟩ version e = .error err ∧
      ingest ps q now freshId version e b = (.error (.submission err), b, logs)) ∨
    (∃ reports actual logs, ps.read ⟨now.wall, freshId⟩ version e = .ok reports ∧
      reports.findSome? (·.foreign? e.project) = some actual ∧
      ingest ps q now freshId version e b =
        (.error (.submission (.projectMismatch e.project actual)), b, logs)) ∨
    ∃ reports logs, ps.read ⟨now.wall, freshId⟩ version e = .ok reports ∧
      reports.findSome? (·.foreign? e.project) = none ∧
      ingest ps q now freshId version e b =
        (.ok (reports.map Report.eventId),
          (pushAll q now (reports.map (·.boundTo e.project)) b).2, logs) := by
  have result := ps.result_parseEnvelope ⟨now.wall, freshId⟩ version e
  cases read : ps.read ⟨now.wall, freshId⟩ version e with
  | error err =>
    rw [read] at result
    obtain ⟨logs, made⟩ := ingest_of_refused q now result b
    exact .inl ⟨err, logs, rfl, made⟩
  | ok reports =>
    rw [read] at result
    have bound := result.trans (Protocol.mapM_bind e.project reports)
    cases foreign : reports.findSome? (·.foreign? e.project) with
    | some actual =>
      rw [foreign] at bound
      obtain ⟨logs, made⟩ := ingest_of_refused q now bound b
      exact .inr (.inl ⟨reports, actual, logs, rfl, foreign, made⟩)
    | none =>
      rw [foreign] at bound
      obtain ⟨logs, made⟩ := ingest_of_parsed q now bound b
      rw [Report.map_eventId_boundTo] at made
      exact .inr (.inr ⟨reports, logs, rfl, foreign, made⟩)

/-- A submission that is refused leaves the queues alone. -/
theorem unchanged_of_refused {err : IntakeError}
    (refused : (ingest ps q now freshId version e b).1 = .error err) :
    (ingest ps q now freshId version e b).2.1 = b := by
  rcases ingest_cases ps q now freshId version e b with
    ⟨_, _, _, made⟩ | ⟨_, _, _, _, _, made⟩ | ⟨_, _, _, _, made⟩
  · rw [made]
  · rw [made]
  · rw [made] at refused
    cases refused

/-- A submission that is accepted is published: its reports in their order, as those of its
    project. -/
theorem published_of_accepted {ids : List String}
    (accepted : (ingest ps q now freshId version e b).1 = .ok ids) :
    ∃ reports, ps.read ⟨now.wall, freshId⟩ version e = .ok reports ∧
      let bound := reports.map (·.boundTo e.project)
      let after := (ingest ps q now freshId version e b).2.1
      ids = bound.map Report.eventId ∧ after.lastId = b.lastId + ids.length ∧
      after.slots = b.slots ++ bound.mapIdx fun i r =>
        ⟨⟨(b.lastId + 1 + i : Nat)⟩, q.name, q.payload r, 0, now.wall,
          now.steady⟩ := by
  rcases ingest_cases ps q now freshId version e b with
    ⟨_, _, _, made⟩ | ⟨_, _, _, _, _, made⟩ | ⟨reports, _, read, _, made⟩
  · rw [made] at accepted
    cases accepted
  · rw [made] at accepted
    cases accepted
  · rw [made] at accepted ⊢
    cases accepted
    obtain ⟨last, slots⟩ := pushAll_spec q now (reports.map (·.boundTo e.project)) b
    rw [List.length_map] at last
    refine ⟨reports, read, (Report.map_eventId_boundTo ..).symm, ?_, slots⟩
    rw [List.length_map]
    exact last

/-- A submission is accepted if it is read and no report of it names another project, and only
    then. -/
theorem accepted_iff :
    (∃ ids, (ingest ps q now freshId version e b).1 = .ok ids) ↔
      ∃ reports, ps.read ⟨now.wall, freshId⟩ version e = .ok reports ∧
        ∀ r ∈ reports, r.project = none ∨ r.project = some e.project := by
  simp only [← Report.findSome?_foreign?_eq_none_iff]
  rcases ingest_cases ps q now freshId version e b with
    ⟨_, _, read, made⟩ | ⟨_, _, _, read, foreign, made⟩ | ⟨reports, _, read, native, made⟩
  · rw [made, read]
    exact ⟨nofun, nofun⟩
  · rw [made, read]
    refine ⟨nofun, ?_⟩
    rintro ⟨_, same, native⟩
    cases same
    cases foreign.symm.trans native
  · rw [made, read]
    exact ⟨fun _ => ⟨reports, rfl, native⟩, fun _ => ⟨_, rfl⟩⟩

/-- A submission is refused for a project if reading says so, or if a report names that project and
    it is another than that of the submission, and no report before names another one. -/
theorem mismatch_iff (expected actual : ProjectId) :
    (ingest ps q now freshId version e b).1 =
        .error (.submission (.projectMismatch expected actual)) ↔
      ps.read ⟨now.wall, freshId⟩ version e = .error (.projectMismatch expected actual) ∨
      expected = e.project ∧ ∃ before r rest,
        ps.read ⟨now.wall, freshId⟩ version e = .ok (before ++ r :: rest) ∧
        (r.project = some actual ∧ actual ≠ e.project) ∧
        ∀ r ∈ before, r.project = none ∨ r.project = some e.project := by
  rcases ingest_cases ps q now freshId version e b with
    ⟨_, _, read, made⟩ | ⟨_, _, _, read, foreign, made⟩ | ⟨_, _, read, native, made⟩
  · rw [made, read]
    simp
  · rw [made, read]
    constructor
    · intro told
      cases told
      obtain ⟨before, r, rest, rfl, first⟩ := Report.findSome?_foreign?_eq_some_iff.1 foreign
      exact .inr ⟨rfl, before, r, rest, rfl, first⟩
    · rintro (refused | ⟨rfl, before, r, rest, same, first⟩)
      · cases refused
      · cases same
        cases foreign.symm.trans
          (Report.findSome?_foreign?_eq_some_iff.2 ⟨before, r, rest, rfl, first⟩)
        rfl
  · rw [made, read]
    refine ⟨nofun, ?_⟩
    rintro (refused | ⟨_, before, r, rest, same, first⟩)
    · cases refused
    · cases same
      cases native.symm.trans
        (Report.findSome?_foreign?_eq_some_iff.2 ⟨before, r, rest, rfl, first⟩)

/-- A submission that is refused leaves the queues alone.  One that is accepted appends one message
    for each report that was read, in their order, with ids that follow the latest one, no attempts,
    and the report as one of the request's project; the answer has the ids of the reports.  It is
    accepted exactly if it is read and no report names another project; for a mismatch that reading
    did not report, the first of these projects is told. -/
theorem ingest_all_or_nothing :
    let read := ps.read ⟨now.wall, freshId⟩ version e
    let (answer, after, _) := ingest ps q now freshId version e b
    (∀ err, answer = .error err → after = b) ∧
    (∀ ids, answer = .ok ids → ∃ reports, read = .ok reports ∧
      let bound := reports.map (·.boundTo e.project)
      ids = bound.map Report.eventId ∧ after.lastId = b.lastId + ids.length ∧
      after.slots = b.slots ++ bound.mapIdx fun i r =>
        ⟨⟨(b.lastId + 1 + i : Nat)⟩, q.name, q.payload r, 0, now.wall,
          now.steady⟩) ∧
    ((∃ ids, answer = .ok ids) ↔ ∃ reports, read = .ok reports ∧
      ∀ r ∈ reports, r.project = none ∨ r.project = some e.project) ∧
    ∀ expected actual, answer = .error (.submission (.projectMismatch expected actual)) ↔
      read = .error (.projectMismatch expected actual) ∨
      expected = e.project ∧ ∃ before r rest, read = .ok (before ++ r :: rest) ∧
        (r.project = some actual ∧ actual ≠ e.project) ∧
        ∀ r ∈ before, r.project = none ∨ r.project = some e.project :=
  ⟨fun _ => unchanged_of_refused ps q now freshId version e b,
    fun _ => published_of_accepted ps q now freshId version e b,
    accepted_iff ps q now freshId version e b, mismatch_iff ps q now freshId version e b⟩

/-- A protocol whose bodies tell how many of four reports they hold: one that names no project, one
    of the first project, and two of other ones. -/
def counting : Protocols :=
  ⟨(∅ : Table Protocol).insert "count"
    { version := "count"
      parse := fun _ body => .ok ⟨([none, some 1, some 2, some 3].map fun project =>
        { Report.plain with project := project.map ProjectId.mk }).take body.length, []⟩ }⟩

theorem ingest_all_or_nothing_counting :
    (∃ after logs, ingest counting (.ofSettings {}) (.atEpoch 0) "" "count" ⟨⟨1⟩, [0, 0], none⟩
        Broker.empty = (.ok ["e1", "e1"], after, logs) ∧
      after.slots.map (fun s => s.id.value) = [1, 2]) ∧
    ∃ logs, ingest counting (.ofSettings {}) (.atEpoch 0) "" "count" ⟨⟨1⟩, [0, 0, 0, 0], none⟩
      Broker.empty = (.error (.submission (.projectMismatch ⟨1⟩ ⟨2⟩)), Broker.empty, logs) := by
  constructor
  · refine ⟨_, _, rfl, ?_⟩
    obtain ⟨_, accepted, _⟩ := ingest_all_or_nothing counting (.ofSettings {}) (.atEpoch 0) "" "count"
      ⟨⟨1⟩, [0, 0], none⟩ Broker.empty
    obtain ⟨reports, read, _, _, slots⟩ := accepted _ rfl
    cases read
    rw [slots]
    rfl
  · obtain ⟨refused, _, _, mismatch⟩ := ingest_all_or_nothing counting (.ofSettings {}) (.atEpoch 0) ""
      "count" ⟨⟨1⟩, [0, 0, 0, 0], none⟩ Broker.empty
    have told := (mismatch ⟨1⟩ ⟨2⟩).2 (.inr ⟨rfl, [_, _], _, [_], rfl, ⟨rfl, by decide⟩, by decide⟩)
    exact ⟨_, Prod.ext told (Prod.ext (refused _ told) rfl)⟩

end Intake

end ErrorIntake
