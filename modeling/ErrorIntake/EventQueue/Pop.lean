import ErrorIntake.EventQueue.Basic

/-!
# Taking reports off a queue

A pop claims messages until one can be delivered or none is visible, and parks what it skips.
`Pop.step` is one call of the backend, so that others can act between two calls; `pop` makes all
calls at one time.  It ends because a parked message is no longer held by the queue it came from.
-/

namespace ErrorIntake

open Calendar (Reading)
open Queue (Message QueueBackend)

/-- Where a pop stands. -/
inductive Pop
  /-- It is about to claim a message. -/
  | receiving
  /-- It is about to park a message. -/
  | parking (m : Message)
  deriving DecidableEq, Repr

/-- What a call leads to: another call, or a result. -/
inductive Progress (α β : Type)
  | more (next : α)
  | done (result : β)

variable {σ : Type} [QueueBackend σ]

/-- One call of a pop: what it leads to, the backend after it, and what is logged. -/
def Pop.step (q : EventQueue) (now : Reading) (p : Pop) (s : σ) :
    Progress Pop Popped × σ × List LogRecord :=
  match p with
  | .receiving =>
    let (claim, s) := QueueBackend.receive now q.name q.timeout s
    match claim with
    | .error e => (.done (.error (.queue e)), s, [])
    | .ok none => (.done (.ok none), s, [])
    | .ok (some m) =>
      match q.judge m with
      | .deliver event => (.done (.ok (some (q.delivery m event))), s, [])
      | .park warning => (.more (.parking m), s, [warning])
  | .parking m =>
    let (moved, s) := QueueBackend.deadLetter now q.name m.id q.deadName s
    match moved with
    | .error e => (.done (.error (.queue e)), s, [])
    | .ok () => (.more .receiving, s, [])

/-- Of two pops with the same backlog, the one that already holds a message is nearer to its end. -/
def Pop.rank : Pop → Nat
  | .receiving => 1
  | .parking _ => 0

theorem Pop.step_decreases {q : EventQueue} {now : Reading} {p next : Pop} {s after : σ}
    {logs : List LogRecord} (h : p.step q now s = (.more next, after, logs)) :
    Prod.Lex (· < ·) (· < ·) (QueueBackend.backlog q.name after, next.rank)
      (QueueBackend.backlog q.name s, p.rank) := by
  cases p with
  | receiving =>
    have le := QueueBackend.backlog_receive now q.name q.timeout s
    simp only [Pop.step] at h
    split at h
    · cases h
    · cases h
    · split at h
      · cases h
      · cases h
        rcases Nat.lt_or_eq_of_le le with lt | eq
        · exact .left _ _ lt
        · rw [eq]; exact .right _ Nat.zero_lt_one
  | parking m =>
    have lt := QueueBackend.backlog_deadLetter now q.name m.id q.deadName s q.name_ne_deadName
    simp only [Pop.step] at h
    split at h
    · cases h
    · next accepted =>
      cases h
      exact .left _ _ (lt accepted)

theorem Pop.backlog_le_of_delivered {q : EventQueue} {now : Reading} {p : Pop} {s after : σ}
    {d : Delivery} {logs : List LogRecord}
    (h : p.step q now s = (.done (.ok (some d)), after, logs)) :
    QueueBackend.backlog q.name after ≤ QueueBackend.backlog q.name s := by
  cases p with
  | receiving =>
    have le := QueueBackend.backlog_receive now q.name q.timeout s
    simp only [Pop.step] at h
    split at h
    · cases h
    · cases h
    · split at h
      · cases h; exact le
      · cases h
  | parking m =>
    simp only [Pop.step] at h
    split at h <;> cases h

/-- The calls of a pop from where it stands up to its end. -/
def Pop.finish (q : EventQueue) (now : Reading) (p : Pop) (s : σ) : Popped × σ × List LogRecord :=
  match _h : p.step q now s with
  | (.done result, after, logs) => (result, after, logs)
  | (.more next, after, logs) =>
    let (result, last, more) := next.finish q now after
    (result, last, logs ++ more)
termination_by (QueueBackend.backlog q.name s, p.rank)
decreasing_by exact Pop.step_decreases _h

/-- Takes the next report off a queue. -/
def EventQueue.pop (q : EventQueue) (now : Reading) (s : σ) : Popped × σ × List LogRecord :=
  Pop.finish q now .receiving s

end ErrorIntake
