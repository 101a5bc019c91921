import ErrorIntake.EventQueue.Pop
import ErrorIntake.Worker.Processing

/-!
# An attempt of a worker

A worker takes one report off the queue, processes it, and acknowledges it if that succeeded.
`Attempt.step` is one call of the queue or of the store, so that other workers can act between two
calls; `runOnce` makes all calls at one time.
-/

namespace ErrorIntake.Worker

open Calendar (Reading)
open Ledger (EventStore)
open Queue (QueueBackend)

/-- Where an attempt stands. -/
inductive Attempt
  /-- It is taking a report off the queue. -/
  | popping (p : Pop)
  /-- It is about to find or make the group. -/
  | grouping (d : Delivery)
  /-- It is about to record the event. -/
  | recording (d : Delivery) (f : Found)
  /-- It is about to acknowledge the message. -/
  | acking (d : Delivery) (o : Outcome)
  deriving Repr

/-- The result of an attempt: an outcome, or none if no message was visible. -/
abbrev Attempted := Except WorkerError (Option Outcome)

namespace Attempt

/-- An attempt that has made no call yet. -/
def start : Attempt := .popping .receiving

/-- What a step of the pop leads to. -/
def afterPop : Progress Pop Popped → Progress Attempt Attempted
  | .more p => .more (.popping p)
  | .done (.error e) => .done (.error (.transport e))
  | .done (.ok none) => .done (.ok none)
  | .done (.ok (some d)) => .more (.grouping d)

/-- How near an attempt is to its end while the backlog stays. -/
def rank : Attempt → Nat
  | .popping p => 3 + p.rank
  | .grouping _ => 2
  | .recording .. => 1
  | .acking .. => 0

variable {σ τ : Type} [QueueBackend σ] [EventStore τ]

/-- One call of an attempt: what it leads to, queue and store after it, and what is seen. -/
def step (q : EventQueue) (hooks : List Hook) (now : Reading) (a : Attempt) (s : σ) (t : τ) :
    Progress Attempt Attempted × σ × τ × Trace :=
  match a with
  | .popping p =>
    let (popped, s, logs) := p.step q now s
    (afterPop popped, s, t, { logs })
  | .grouping d =>
    let (found, t) := resolve d.event now.wall t
    match found with
    | .error e => (.done (.error (.store e)), s, t, {})
    | .ok f => (.more (.recording d f), s, t, {})
  | .recording d f =>
    let (recorded, t, shown) := record hooks d.event f t
    match recorded with
    | .error e => (.done (.error (.store e)), s, t, shown)
    | .ok o => (.more (.acking d o), s, t, shown)
  | .acking d o =>
    let (acked, s) := d.ack s
    match acked with
    | .error e => (.done (.error (.transport e)), s, t, {})
    | .ok () => (.done (.ok (some o)), s, t, {})

theorem step_decreases {q : EventQueue} {hooks : List Hook} {now : Reading} {a next : Attempt}
    {s s' : σ} {t t' : τ} {shown : Trace}
    (h : a.step q hooks now s t = (.more next, s', t', shown)) :
    Prod.Lex (· < ·) (· < ·) (QueueBackend.backlog q.name s', next.rank)
      (QueueBackend.backlog q.name s, a.rank) := by
  have keeps : ∀ {m n : Nat} {s s' : σ},
      QueueBackend.backlog q.name s' ≤ QueueBackend.backlog q.name s → m < n →
        Prod.Lex (· < ·) (· < ·) (QueueBackend.backlog q.name s', m)
          (QueueBackend.backlog q.name s, n) := by
    intro m n s s' le lt
    rcases Nat.lt_or_eq_of_le le with less | same
    · exact .left _ _ less
    · rw [same]; exact .right _ lt
  cases a with
  | popping p =>
    simp only [step] at h
    match hp : p.step q now s with
    | (.more p', after, logs) =>
      rw [hp] at h
      cases h
      rcases Prod.lex_def.1 (Pop.step_decreases hp) with less | ⟨same, lt⟩
      · exact .left _ _ less
      · exact keeps (Nat.le_of_eq same) (Nat.add_lt_add_left lt 3)
    | (.done (.error e), after, logs) => rw [hp] at h; cases h
    | (.done (.ok none), after, logs) => rw [hp] at h; cases h
    | (.done (.ok (some d)), after, logs) =>
      rw [hp] at h
      cases h
      exact keeps (Pop.backlog_le_of_delivered hp) (Nat.lt_add_right _ (Nat.lt_succ_self 2))
  | grouping d =>
    simp only [step] at h
    split at h <;> cases h
    exact keeps (Nat.le_refl _) (Nat.lt_succ_self _)
  | recording d f =>
    simp only [step] at h
    split at h <;> cases h
    exact keeps (Nat.le_refl _) (Nat.lt_succ_self _)
  | acking d o =>
    simp only [step] at h
    split at h <;> cases h

/-- The calls of an attempt from where it stands up to its end. -/
def finish (q : EventQueue) (hooks : List Hook) (now : Reading) (a : Attempt) (s : σ) (t : τ) :
    Attempted × σ × τ × Trace :=
  match _h : a.step q hooks now s t with
  | (.done result, s, t, shown) => (result, s, t, shown)
  | (.more next, s, t, shown) =>
    let (result, s, t, more) := next.finish q hooks now s t
    (result, s, t, shown ++ more)
termination_by (QueueBackend.backlog q.name s, a.rank)
decreasing_by exact step_decreases _h

end Attempt

/-- Takes one report off the queue and processes it. -/
def runOnce {σ τ : Type} [QueueBackend σ] [EventStore τ] (q : EventQueue) (hooks : List Hook)
    (now : Reading) (s : σ) (t : τ) : Attempted × σ × τ × Trace :=
  Attempt.start.finish q hooks now s t

end ErrorIntake.Worker
