import ErrorIntake.EventQueue.Pop
import ErrorIntake.Intake
import ErrorIntake.Proofs.Queue.Slots
import ErrorIntake.Proofs.Submission.Parsed

/-!
# From a submission to its delivery

On a queue that holds nothing else, the next pop claims the message of an accepted submission, unless
the clock does not reach the end of the claim.  It delivers what the message is decoded as, and parks
a message that is not decoded.
-/

namespace ErrorIntake

open Calendar (Reading)
open Json (Tree Value)
open Queue (Broker Message QueueBackend Slot)

namespace Pop

variable {σ : Type} [QueueBackend σ] {q : EventQueue} {now : Reading} {p next : Pop} {s after : σ}
  {logs : List LogRecord}

theorem finish_done {result : Popped} (h : p.step q now s = (.done result, after, logs)) :
    p.finish q now s = (result, after, logs) := by
  rw [finish]
  split
  · next made =>
    rw [h] at made
    cases made
    rfl
  · next made =>
    rw [h] at made
    cases made

theorem finish_more (h : p.step q now s = (.more next, after, logs)) :
    p.finish q now s = ((next.finish q now after).1, (next.finish q now after).2.1,
      logs ++ (next.finish q now after).2.2) := by
  rw [finish]
  split
  · next made =>
    rw [h] at made
    cases made
  · next made =>
    rw [h] at made
    cases made
    rfl

end Pop

namespace EventQueue

variable {q : EventQueue} {now : Reading} {b : Broker} {s : Slot}

/-- The next pop delivers this report, and nothing is parked then. -/
def Delivers (q : EventQueue) (now : Reading) (b : Broker) (r : Report) : Prop :=
  ∃ d, (q.pop now b).1 = .ok (some d) ∧ d.event = r ∧ (q.pop now b).2.1.depth q.deadName = 0

/-- The first claim of a message is below every limit, so what it holds decides. -/
theorem judge_claimed (q : EventQueue) (time : Nat) (fresh : s.attempt = 0) :
    q.judge (s.claimed time).message = match decode? s.payload with
      | some event => .deliver event
      | none => .park (.undecodable q.name s.id) := by
  have first : (s.claimed time).message.attempt = 1 := by
    show s.attempt + 1 = 1
    rw [fresh]
    rfl
  have allowed : ¬ q.maxAttempts < (s.claimed time).message.attempt := by
    rw [first, UInt32.lt_iff_toNat_lt]
    have positive : q.maxAttempts.toNat ≠ 0 := fun zero =>
      q.maxAttempts_ne_zero (UInt32.toNat_inj.1 zero)
    show ¬ q.maxAttempts.toNat < 1
    omega
  unfold judge
  exact if_neg allowed

variable (alone : b.slots = [s]) (on : s.queue = q.name) (visible : s.visibleAt ≤ now.steady)
include alone on visible

theorem first_of_one : b.slots.find? (Slot.isAvailable q.name now.steady) = some s := by
  have available : s.isAvailable q.name now.steady = true := by
    simp [Slot.isAvailable, on, visible]
  rw [alone, List.find?_cons_of_pos available]

/-- A pop that the clock does not reach the end of fails on the one message that it sees. -/
theorem pop_overflows (beyond : ¬ now.Reaches q.timeout) :
    (q.pop now b).1 = .error (.queue .overflow) := by
  have first := first_of_one alone on visible
  have step : Pop.step q now .receiving b = (.done (.error (.queue .overflow)), b, []) := by
    simp only [Pop.step, QueueBackend.receive, Broker.receive, first, if_neg beyond]
  rw [pop, Pop.finish_done step]

variable (reaches : now.Reaches q.timeout)
include reaches

theorem receive_one :
    b.receive now q.name q.timeout = (.ok (some (s.claimed (now.steady + q.timeout)).message),
      b.change s.id (Slot.claimed (now.steady + q.timeout)) fun _ => rfl) :=
  Broker.receive_of_first (first_of_one alone on visible) reaches

variable (fresh : s.attempt = 0)
include fresh

/-- A message alone on a queue is delivered as it is decoded. -/
theorem pop_delivers {event : Report} (holds : decode? s.payload = some event) :
    (q.pop now b).1 = .ok (some (q.delivery (s.claimed (now.steady + q.timeout)).message event)) ∧
      (q.pop now b).2.1.depth q.deadName = 0 := by
  have step : Pop.step q now .receiving b =
      (.done (.ok (some (q.delivery (s.claimed (now.steady + q.timeout)).message event))),
        b.change s.id (Slot.claimed (now.steady + q.timeout)) fun _ => rfl, []) := by
    have judged : q.judge (s.claimed (now.steady + q.timeout)).message = .deliver event := by
      rw [judge_claimed q _ fresh, holds]
    simp only [Pop.step, QueueBackend.receive, receive_one alone on visible reaches, judged]
  rw [pop, Pop.finish_done step]
  refine ⟨rfl, ?_⟩
  have apart := q.name_ne_deadName
  simp [Broker.depth, Broker.change, alone, Slot.claimed, on, apart]

/-- A message alone on a queue that is not decoded is parked, and nothing is delivered. -/
theorem pop_parks (holds : decode? s.payload = none) :
    (q.pop now b).1 = .ok none ∧ (q.pop now b).2.1.depth q.deadName = 1 := by
  let claimed := b.change s.id (Slot.claimed (now.steady + q.timeout)) fun _ => rfl
  let parked := claimed.change s.id (Slot.moved q.deadName now.steady) fun _ => rfl
  have step : Pop.step q now .receiving b =
      (.more (.parking (s.claimed (now.steady + q.timeout)).message), claimed,
        [.undecodable q.name s.id]) := by
    have judged : q.judge (s.claimed (now.steady + q.timeout)).message =
        .park (.undecodable q.name s.id) := by
      rw [judge_claimed q _ fresh, holds]
    simp only [Pop.step, QueueBackend.receive, receive_one alone on visible reaches, judged, claimed]
  have parking : Pop.step q now (.parking (s.claimed (now.steady + q.timeout)).message) claimed =
      (.more .receiving, parked, []) := by
    have held : claimed.held? q.name s.id = some (s.claimed (now.steady + q.timeout)) := by
      simp [claimed, Broker.held?, Broker.change, alone, Slot.isHeld, Slot.claimed, on]
    simp only [Pop.step, QueueBackend.deadLetter, Broker.deadLetter, Broker.ifHeld, Slot.message,
      Slot.claimed] at held ⊢
    rw [held]
  have apart := q.name_ne_deadName
  have slots : parked.slots = [(s.claimed (now.steady + q.timeout)).moved q.deadName now.steady] := by
    simp [parked, claimed, Broker.change, alone, Slot.claimed]
  have nothing : Pop.step q now .receiving parked = (.done (.ok none), parked, []) := by
    have none : parked.receive now q.name q.timeout = (.ok none, parked) := by
      simp [Broker.receive, slots, Slot.isAvailable, Slot.moved, Ne.symm apart]
    simp only [Pop.step, QueueBackend.receive, none]
  rw [pop, Pop.finish_more step, Pop.finish_more parking, Pop.finish_done nothing]
  refine ⟨rfl, ?_⟩
  show parked.depth q.deadName = 1
  simp [Broker.depth, slots, Slot.moved]

end EventQueue

/-! ## Accepted submissions -/

namespace Intake

open Submission (Envelope Protocols)

variable {interfaces : Interface.Registry} {q : EventQueue} {now : Reading} {freshId : String}
  {e : Envelope} {b : Broker} {ids : List String}

/-- A broker in memory takes every report. -/
theorem pushAll_ok (q : EventQueue) (now : Reading) (reports : List Report) (b : Broker) :
    (pushAll q now reports b).1 = .ok () := by
  induction reports generalizing b with
  | nil => rfl
  | cons r rest ih => exact ih _

/-- What is refused is not queued. -/
theorem ingest_of_refused {ps : Protocols} {version : String} (q : EventQueue) (now : Reading)
    {err : SubmissionError}
    (refused : (ps.parseEnvelope ⟨now.wall, freshId⟩ version e).result = .error err) (b : Broker) :
    ∃ logs, ingest ps q now freshId version e b = (.error (.submission err), b, logs) := by
  unfold ingest
  simp only [refused]
  exact ⟨_, rfl⟩

/-- What is read is accepted. -/
theorem ingest_of_parsed {ps : Protocols} {version : String} (q : EventQueue) (now : Reading)
    {reports : List Report}
    (parsed : (ps.parseEnvelope ⟨now.wall, freshId⟩ version e).result = .ok reports) (b : Broker) :
    ∃ logs, ingest ps q now freshId version e b =
      (.ok (reports.map Report.eventId), (pushAll q now reports b).2, logs) := by
  have ok := pushAll_ok q now reports b
  unfold ingest
  simp only [parsed, ok]
  exact ⟨_, rfl⟩

/-- An accepted submission is one report, whose message is the only one then. -/
theorem accepted_message (unused : b.slots = []) (fits : IsInt64 e.project.value)
    (accepted : (ingest (.standard interfaces) q now freshId Submission.version e b).1 = .ok ids) :
    ∃ r : Report,
      ((Protocols.standard interfaces).parseEnvelope ⟨now.wall, freshId⟩ Submission.version
        e).result = .ok [r] ∧
      ids = [r.eventId] ∧ r.IsCanonical ∧
      (ingest (.standard interfaces) q now freshId Submission.version e b).2.1.slots =
        [⟨b.nextId, q.name, q.payload r, 0, now.wall, now.steady⟩] := by
  cases parsed : ((Protocols.standard interfaces).parseEnvelope ⟨now.wall, freshId⟩
    Submission.version e).result with
  | error err =>
    simp only [ingest, parsed] at accepted
    cases accepted
  | ok reports =>
    obtain ⟨r, rfl, canonical⟩ := Protocols.parsed_report fits parsed
    obtain ⟨logs, made⟩ := ingest_of_parsed q now parsed b
    rw [made] at accepted ⊢
    refine ⟨r, rfl, (Except.ok.inj accepted).symm, canonical, ?_⟩
    show b.slots ++ _ = _
    rw [unused]
    rfl

/-- On a queue that holds nothing else, the next pop delivers the report of an accepted submission
    unchanged and parks nothing, if and only if the report is legible and the clock reaches the end
    of the claim.  The texts of its doubles and of its time are taken to read back. -/
theorem accepted_delivered_iff_legible (interfaces : Interface.Registry) (q : EventQueue)
    (now later : Reading) (freshId : String) (e : Envelope) (b : Broker) (ids : List String)
    (unused : b.slots = []) (fits : IsInt64 e.project.value) (order : now.steady ≤ later.steady)
    (accepted : (ingest (.standard interfaces) q now freshId Submission.version e b).1 = .ok ids) :
    ∃ r : Report,
      ((Protocols.standard interfaces).parseEnvelope ⟨now.wall, freshId⟩ Submission.version
        e).result = .ok [r] ∧
      ids = [r.eventId] ∧
      (r.ReadsBack →
        (q.Delivers later (ingest (.standard interfaces) q now freshId Submission.version e b).2.1 r ↔
          r.IsLegible ∧ later.Reaches q.timeout)) := by
  obtain ⟨r, parsed, named, canonical, slots⟩ := accepted_message unused fits accepted
  refine ⟨r, parsed, named, fun reads => ?_⟩
  have legible := EventQueue.decode?_encode canonical reads q.compressor q.compression
  rw [← legible, ← EventQueue.payload]
  by_cases reaches : later.Reaches q.timeout
  case neg =>
    have fails := EventQueue.pop_overflows slots rfl order reaches
    refine iff_of_false ?_ fun both => reaches both.2
    rintro ⟨d, delivered, _, _⟩
    rw [fails] at delivered
    cases delivered
  cases holds : EventQueue.decode? (q.payload r) with
  | none =>
    have parks := EventQueue.pop_parks slots rfl order reaches rfl holds
    refine iff_of_false ?_ (by simp)
    rintro ⟨d, delivered, _, _⟩
    rw [parks.1] at delivered
    cases delivered
  | some event =>
    have delivers := EventQueue.pop_delivers slots rfl order reaches rfl holds
    constructor
    · rintro ⟨d, delivered, same, _⟩
      rw [delivers.1] at delivered
      cases delivered
      exact ⟨congrArg some same, reaches⟩
    · rintro ⟨same, -⟩
      exact ⟨_, delivers.1, Option.some.inj same, delivers.2⟩

/-- A submission whose extra has 127 containers inside one another. -/
def deepest : Envelope where
  project := ⟨1⟩
  body := Text.toBytes ("\x7b\"extra\":\x7b\"a\":" ++
    String.ofList (List.replicate 126 '[' ++ List.replicate 126 ']') ++ "\x7d\x7d")

/-- It is accepted, and the next pop does not deliver its report. -/
theorem accepted_delivered_iff_legible_deepest :
    (ingest (.standard .standard) (.ofSettings {}) (.atEpoch 0) "e1" Submission.version deepest
      Broker.empty).1 = .ok ["e1"] ∧
    ∃ r : Report,
      ((Protocols.standard .standard).parseEnvelope ⟨.epoch, "e1"⟩ Submission.version
        deepest).result = .ok [r] ∧
      ¬ (EventQueue.ofSettings {}).Delivers (.atEpoch 0)
        (ingest (.standard .standard) (.ofSettings {}) (.atEpoch 0) "e1" Submission.version deepest
          Broker.empty).2.1 r := by
  have read : (((Protocols.standard .standard).parseEnvelope ⟨.epoch, "e1"⟩ Submission.version
      deepest).result.toOption.map fun reports => reports.map fun r =>
        decide (r.eventId = "e1" ∧ r.ReadsBack ∧ ¬ r.IsLegible)) = some [true] := by
    decide +kernel
  cases parsed : ((Protocols.standard .standard).parseEnvelope ⟨.epoch, "e1"⟩ Submission.version
      deepest).result with
  | error e =>
    rw [parsed] at read
    cases read
  | ok reports =>
    rw [parsed] at read
    obtain ⟨r, rfl, checked⟩ := List.map_eq_singleton_iff.1 (Option.some.inj read)
    obtain ⟨named, reads, illegible⟩ := of_decide_eq_true checked
    obtain ⟨logs, made⟩ := ingest_of_parsed (.ofSettings {}) (.atEpoch 0) parsed Broker.empty
    have ok : (ingest (.standard .standard) (.ofSettings {}) (.atEpoch 0) "e1" Submission.version
        deepest Broker.empty).1 = .ok ["e1"] := by
      rw [made, ← named]
      rfl
    obtain ⟨r', parsed', _, exact'⟩ := accepted_delivered_iff_legible .standard (.ofSettings {})
      (.atEpoch 0) (.atEpoch 0) "e1" deepest .empty ["e1"] rfl (by decide) (Nat.le_refl 0) ok
    rw [Reading.atEpoch_wall, parsed] at parsed'
    cases parsed'
    exact ⟨ok, r, rfl, fun delivered => illegible ((exact' reads).1 delivered).1⟩

end Intake

end ErrorIntake
