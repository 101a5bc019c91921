import ErrorIntake.Error
import ErrorIntake.Settings.Basic

/-!
# Failures of a pipeline

Whatever can go wrong anywhere in a pipeline, from its settings to its store.
-/

namespace ErrorIntake

/-- Why a pipeline cannot go on. -/
inductive IntakeError
  | config (f : Settings.Fault)
  | submission (e : SubmissionError)
  | transport (e : TransportError)
  | store (e : StoreError)
  | queue (e : QueueError)
  deriving DecidableEq, Repr

/-- What is said about a pipeline that cannot go on. -/
def IntakeError.message : IntakeError → String
  | config f => s!"configuration error: {f.message}"
  | submission e => e.message
  | transport e => e.message
  | store e => e.message
  | queue e => s!"queue error: {e.message}"

end ErrorIntake
