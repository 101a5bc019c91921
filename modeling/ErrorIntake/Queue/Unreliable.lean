import ErrorIntake.Queue.Backend

/-!
# Backends with outages

A backend whose next calls of a kind fail before they do anything.  It behaves as the backend
inside as long as no outage is left, and whatever fails leaves that backend alone.
-/

namespace ErrorIntake.Queue

open Calendar (Reading)

/-- The calls of a backend that can fail. -/
inductive Call
  | publish
  | receive
  | ack
  | nack
  | deadLetter
  | depth
  deriving DecidableEq, Repr

/-- A backend and how many calls of each kind will fail next. -/
structure Unreliable (σ : Type) where
  inner : σ
  outages : Call → Nat := fun _ => 0
  /-- The failure of a call. -/
  failure : Call → QueueError

namespace Unreliable

variable {σ α : Type}

/-- Lets the next calls of a kind fail, so many of them. -/
def fail (s : Unreliable σ) (call : Call) (times : Nat) : Unreliable σ :=
  { s with outages := fun c => if c = call then times else s.outages c }

/-- Makes a call of the backend inside, or fails if an outage of its kind is left. -/
def calling (s : Unreliable σ) (call : Call) (f : σ → Called σ α) : Called (Unreliable σ) α :=
  match s.outages call with
  | 0 => ((f s.inner).1, { s with inner := (f s.inner).2 })
  | left + 1 => (.error (s.failure call), s.fail call left)

theorem calling_inner (s : Unreliable σ) (call : Call) (f : σ → Called σ α) :
    (s.calling call f).2.inner = s.inner ∨
      (s.calling call f).1 = (f s.inner).1 ∧ (s.calling call f).2.inner = (f s.inner).2 := by
  unfold calling
  split
  · exact .inr ⟨rfl, rfl⟩
  · exact .inl rfl

end Unreliable

open QueueBackend in
instance [QueueBackend σ] : QueueBackend (Unreliable σ) where
  publish now queue payload s := s.calling .publish (publish now queue payload)
  receive now queue timeout s := s.calling .receive (receive now queue timeout)
  ack queue id s := s.calling .ack (ack queue id)
  nack now queue id s := s.calling .nack (nack now queue id)
  deadLetter now queue id dead s := s.calling .deadLetter (deadLetter now queue id dead)
  depth queue s := s.calling .depth (depth queue)
  backlog queue s := backlog queue s.inner
  backlog_receive now queue timeout s := by
    rcases s.calling_inner .receive (receive now queue timeout) with h | ⟨_, h⟩
    · exact Nat.le_of_eq (congrArg (backlog queue) h)
    · exact h ▸ backlog_receive now queue timeout s.inner
  backlog_deadLetter now queue id dead s different accepted := by
    unfold Unreliable.calling at accepted ⊢
    split at accepted
    · exact backlog_deadLetter now queue id dead s.inner different accepted
    · cases accepted

end ErrorIntake.Queue
