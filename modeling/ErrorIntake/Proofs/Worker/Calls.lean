import ErrorIntake.Ledger.Unreliable
import ErrorIntake.Proofs.Ledger.Commands
import ErrorIntake.Proofs.Queue.Slots
import ErrorIntake.Worker.Attempt

/-!
# The calls of an attempt

What one call of an attempt can do to a broker and to a store in memory whose calls may fail.
`Attempt.Call` has one constructor for each ending of each call, and `step_call` says that there is
no other.  Whoever proves something about workers goes through these cases.
-/

namespace ErrorIntake.Worker

open Calendar (Instant Reading)
open Ledger (EventStore Memory Unreliable)
open Queue (Broker QueueBackend Slot)

namespace Attempt

/-- The message that an attempt holds. -/
def claimed? : Attempt → Option MessageId
  | .popping .receiving => none
  | .popping (.parking m) => some m.id
  | .grouping d => some d.id
  | .recording d _ => some d.id
  | .acking d _ => some d.id

/-- The message that an attempt has recorded and not acknowledged yet. -/
def recorded? : Attempt → Option MessageId
  | .acking d _ => some d.id
  | _ => none

/-- What was delivered to the attempt came from this queue. -/
def IsOn (q : EventQueue) : Attempt → Prop
  | .popping _ => True
  | .grouping d => d.queue = q.name
  | .recording d _ => d.queue = q.name
  | .acking d _ => d.queue = q.name

theorem claimed?_of_recorded? {a : Attempt} {id : MessageId} (h : a.recorded? = some id) :
    a.claimed? = some id := by
  cases a with
  | acking d o => exact h
  | popping p => cases h
  | grouping d => cases h
  | recording d f => cases h

/-- One call of an attempt over a broker and a store, what it leads to, and both after it. -/
inductive Call (q : EventQueue) (now : Reading) (b : Broker) (t : Unreliable Memory) :
    Attempt → Progress Attempt Attempted → Broker → Unreliable Memory → Prop
  /-- No message is available. -/
  | idle (nothing : ∀ id s, b.slot? id = some s → ¬ s.isAvailable q.name now.steady) :
      Call q now b t (.popping .receiving) (.done (.ok none)) b t
  /-- A message is available, but the clock does not reach the end of the claim. -/
  | overflow (beyond : ¬ now.Reaches q.timeout) :
      Call q now b t (.popping .receiving) (.done (.error (.transport (.queue .overflow)))) b t
  /-- The available message of the least id is claimed, to be parked. -/
  | skip (id : MessageId) (s : Slot) (found : b.slot? id = some s)
      (available : s.isAvailable q.name now.steady) (m : Queue.Message) (hm : m.id = id) :
      Call q now b t (.popping .receiving) (.more (.popping (.parking m)))
        (b.change id (Slot.claimed (now.steady + q.timeout)) fun _ => rfl) t
  /-- The available message of the least id is claimed, to be processed. -/
  | take (id : MessageId) (s : Slot) (found : b.slot? id = some s)
      (available : s.isAvailable q.name now.steady) (d : Delivery) (hd : d.id = id)
      (on : d.queue = q.name) :
      Call q now b t (.popping .receiving) (.more (.grouping d))
        (b.change id (Slot.claimed (now.steady + q.timeout)) fun _ => rfl) t
  | park (m : Queue.Message) (s : Slot) (found : b.slot? m.id = some s) (on : s.queue = q.name) :
      Call q now b t (.popping (.parking m)) (.more start)
        (b.change m.id (Slot.moved q.deadName now.steady) fun _ => rfl) t
  /-- The message to be parked is not on the queue any more. -/
  | misplaced (m : Queue.Message) (off : ∀ s, b.slot? m.id = some s → s.queue ≠ q.name)
      (e : TransportError) :
      Call q now b t (.popping (.parking m)) (.done (.error (.transport e))) b t
  | ungrouped (d : Delivery) (e : StoreError) (t' : Unreliable Memory)
      (same : t'.inner = t.inner) :
      Call q now b t (.grouping d) (.done (.error (.store e))) b t'
  | group (d : Delivery) (f : Found) (t' : Unreliable Memory) (g : Ledger.NewGroup)
      (after : t'.inner = (t.inner.getOrCreateGroup g).2) :
      Call q now b t (.grouping d) (.more (.recording d f)) b t'
  | unrecorded (d : Delivery) (f : Found) (e : StoreError) (t' : Unreliable Memory)
      (same : t'.inner = t.inner) :
      Call q now b t (.recording d f) (.done (.error (.store e))) b t'
  | record (d : Delivery) (f : Found) (o : Outcome) (t' : Unreliable Memory)
      (e : Ledger.NewEvent) (after : t'.inner = (t.inner.recordEvent e f.now).2)
      (rows : t'.inner.events = t.inner.events ++ [o.event]) :
      Call q now b t (.recording d f) (.more (.acking d o)) b t'
  | ack (d : Delivery) (o : Outcome) (s : Slot) (found : b.slot? d.id = some s)
      (on : s.queue = d.queue) :
      Call q now b t (.acking d o) (.done (.ok (some o))) (b.remove d.id) t
  /-- The message to be acknowledged is not on its queue any more. -/
  | unacked (d : Delivery) (o : Outcome) (off : ∀ s, b.slot? d.id = some s → s.queue ≠ d.queue)
      (e : TransportError) :
      Call q now b t (.acking d o) (.done (.error (.transport e))) b t

end Attempt

/-! ## The calls of the store -/

/-- A call of a store with outages fails and leaves the store inside alone, or is the call of the
    store inside. -/
theorem calling_cases {α : Type} (t : Unreliable Memory) (call : Ledger.Call)
    (f : Memory → Ledger.Called Memory α) :
    (∃ e t', t.calling call f = (.error e, t') ∧ t'.inner = t.inner) ∨
    (∃ t', t.calling call f = ((f t.inner).1, t') ∧ t'.inner = (f t.inner).2) := by
  unfold Unreliable.calling
  cases t.outages call with
  | zero => exact .inr ⟨_, rfl, rfl⟩
  | succ left => exact .inl ⟨_, _, rfl, rfl⟩

/-- Finding a group fails and leaves the store alone, or finds or makes a group in it. -/
theorem resolve_cases (r : Report) (now : Instant) (t : Unreliable Memory) :
    (∃ e t', resolve r now t = (.error e, t') ∧ t'.inner = t.inner) ∨
    (∃ f t' g, resolve r now t = (.ok f, t') ∧ t'.inner = (t.inner.getOrCreateGroup g).2) := by
  unfold resolve
  cases r.project with
  | none => exact .inl ⟨_, t, rfl, rfl⟩
  | some project =>
    generalize new : Ledger.NewGroup.ofReport r project now = g
    rcases calling_cases t .group (EventStore.getOrCreateGroup g) with
      ⟨e, t', made, same⟩ | ⟨t', made, after⟩
    · change EventStore.getOrCreateGroup g t = _ at made
      exact .inl ⟨e, t', by simp only [new, made]; rfl, same⟩
    · change EventStore.getOrCreateGroup g t = _ at made
      exact .inr ⟨_, t', g, by simp only [new, made]; rfl, after⟩

/-- Recording an event fails and leaves the store alone, or adds the row that it tells. -/
theorem record_cases (hooks : List Hook) (r : Report) (f : Found) (t : Unreliable Memory) :
    (∃ e t' shown, record hooks r f t = (.error e, t', shown) ∧ t'.inner = t.inner) ∨
    (∃ o t' shown e, record hooks r f t = (.ok o, t', shown) ∧
      t'.inner = (t.inner.recordEvent e f.now).2 ∧
      t'.inner.events = t.inner.events ++ [o.event]) := by
  unfold record
  generalize Ledger.NewEvent.ofReport r f.project f.group.id = e
  rcases calling_cases t .record (EventStore.recordEvent e f.now) with
    ⟨err, t', made, same⟩ | ⟨t', made, after⟩
  · change EventStore.recordEvent e f.now t = _ at made
    exact .inl ⟨err, t', {}, by simp only [made], same⟩
  · change EventStore.recordEvent e f.now t = ((t.inner.recordEvent e f.now).1, t') at made
    change t'.inner = (t.inner.recordEvent e f.now).2 at after
    rcases t.inner.recordEvent_cases e f.now with
      ⟨_, call⟩ | ⟨_, _, _, call⟩ | ⟨g, total, count, _, _, call⟩
    · rw [call] at made after
      exact .inl ⟨_, t', {}, by simp only [made]; rfl, after⟩
    · rw [call] at made after
      exact .inl ⟨_, t', {}, by simp only [made]; rfl, after⟩
    · rw [call] at made after
      refine .inr ⟨_, t', _, e, by simp only [made]; rfl, ?_, ?_⟩
      · rw [after, call]
      · rw [after]
        rfl

namespace Attempt

/-- A step of an attempt is one of its calls. -/
theorem step_call (q : EventQueue) (hooks : List Hook) (now : Reading) (a : Attempt) (b : Broker)
    (t : Unreliable Memory) :
    Call q now b t a (a.step q hooks now b t).1 (a.step q hooks now b t).2.1
      (a.step q hooks now b t).2.2.1 := by
  cases a with
  | popping p =>
    cases p with
    | receiving =>
      simp only [step, Pop.step, QueueBackend.receive]
      rcases b.receive_cases now q.name q.timeout with
        ⟨none, made⟩ | ⟨_, _, _, _, beyond, made⟩ | ⟨id, s, found, available, _, _, made⟩
      · simp only [made]
        exact .idle none
      · simp only [made]
        exact .overflow beyond
      · have hid := Broker.id_of_slot? found
        simp only [made]
        cases q.judge (s.claimed (now.steady + q.timeout)).message with
        | deliver event => exact .take id s found available _ hid rfl
        | park warning => exact .skip id s found available _ hid
    | parking m =>
      simp only [step, Pop.step, QueueBackend.deadLetter, Broker.deadLetter]
      rcases b.ifHeld_cases q.name m.id
        (b.change m.id (Slot.moved q.deadName now.steady) fun _ => rfl) with
        ⟨s, found, on, made⟩ | ⟨off, made⟩
      · simp only [made]
        exact .park m s found on
      · simp only [made]
        exact .misplaced m off _
  | grouping d =>
    simp only [step]
    rcases resolve_cases d.event now.wall t with ⟨e, t', made, same⟩ | ⟨f, t', g, made, after⟩
    · simp only [made]
      exact .ungrouped d e t' same
    · simp only [made]
      exact .group d f t' g after
  | recording d f =>
    simp only [step]
    rcases record_cases hooks d.event f t with
      ⟨e, t', _, made, same⟩ | ⟨o, t', _, e, made, after, rows⟩
    · simp only [made]
      exact .unrecorded d f e t' same
    · simp only [made]
      exact .record d f o t' e after rows
  | acking d o =>
    simp only [step, Delivery.ack, EventQueue.crossing, QueueBackend.ack, Broker.ack]
    rcases b.ifHeld_cases d.queue d.id (b.remove d.id) with ⟨s, found, on, made⟩ | ⟨off, made⟩
    · simp only [made]
      exact .ack d o s found on
    · simp only [made]
      exact .unacked d o off _

end Attempt

end ErrorIntake.Worker
