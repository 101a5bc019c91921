import ErrorIntake.EventQueue.Basic
import ErrorIntake.IntakeError
import ErrorIntake.Submission.Protocol

/-!
# Taking submissions in

A submission is accepted once every report in it is on the queue; the client gets their ids.  What
becomes of a report after that is up to the workers.
-/

namespace ErrorIntake.Intake

open Calendar (Reading)
open Queue (QueueBackend)
open Submission (Envelope Occasion Protocols)

variable {σ : Type} [QueueBackend σ]

/-- Publishes reports in their order, up to the first that cannot be published. -/
def pushAll (q : EventQueue) (now : Reading) : List Report → σ → Except TransportError Unit × σ
  | [], s => (.ok (), s)
  | r :: rest, s =>
    let (pushed, s) := q.push now r s
    match pushed with
    | .error e => (.error e, s)
    | .ok _ => pushAll q now rest s

/-- The answer to a submission: the ids of its reports, the backend after it, and what is logged. -/
def ingest (ps : Protocols) (q : EventQueue) (now : Reading) (freshId version : String)
    (e : Envelope) (s : σ) : Except IntakeError (List String) × σ × List LogRecord :=
  let answer := ps.parseEnvelope ⟨now.wall, freshId⟩ version e
  match answer.result with
  | .error err => (.error (.submission err), s, answer.logs)
  | .ok reports =>
    let (pushed, s) := pushAll q now reports s
    match pushed with
    | .error err => (.error (.transport err), s, answer.logs)
    | .ok () => (.ok (reports.map Report.eventId), s, answer.logs)

end ErrorIntake.Intake
