import ErrorIntake.Proofs.Worker.Calls
import ErrorIntake.Proofs.Worker.Deeds
import ErrorIntake.Queue.Unreliable
import Mathlib.Logic.Function.Basic
import Mathlib.Logic.Relation

/-!
# Closing down

Workers share a queue and a store, producers publish, calls fail, and at some time the workers are
told to stop.  A `Workshop` keeps what each worker did before and after that time, deed by deed.

Two invariants hold of every workshop: `Orderly` says that the deeds of a worker lead to where it
stands, and `Safe` what became of the messages that were delivered.
-/

namespace ErrorIntake.Worker

open Calendar (Reading)
open Ledger (Memory)
open Queue (Broker QueueBackend Slot)

/-! ## Calls that may fail -/

/-- What a step of a worker can do to a broker and a store, both of which may fail. -/
inductive Acted (q : EventQueue) (now : Reading) (toldToStop : Bool) (b : Queue.Unreliable Broker)
    (t : Ledger.Unreliable Memory) :
    Deed → Queue.Unreliable Broker → Ledger.Unreliable Memory → Prop
  | asked : Acted q now toldToStop b t (.asked toldToStop) b t
  | rested : Acted q now toldToStop b t (.rested toldToStop) b t
  /-- The queue fails and nothing is done. -/
  | failed (a : Attempt) (e : TransportError) (b' : Queue.Unreliable Broker)
      (same : b'.inner = b.inner) :
      Acted q now toldToStop b t (.called a (.done (.error (.transport e)))) b' t
  | called (a : Attempt) (p : Progress Attempt Attempted) (b' : Queue.Unreliable Broker)
      (t' : Ledger.Unreliable Memory) (made : Attempt.Call q now b.inner t a p b'.inner t') :
      Acted q now toldToStop b t (.called a p) b' t'

/-- A call of a queue with outages fails and leaves the queue inside alone, or is the call of the
    queue inside. -/
theorem queue_calling_cases {α : Type} (b : Queue.Unreliable Broker) (call : Queue.Call)
    (f : Broker → Queue.Called Broker α) :
    (∃ e b', b.calling call f = (.error e, b') ∧ b'.inner = b.inner) ∨
    b.calling call f = ((f b.inner).1, { b with inner := (f b.inner).2 }) := by
  unfold Queue.Unreliable.calling
  cases b.outages call with
  | zero => exact .inr rfl
  | succ left => exact .inl ⟨_, _, rfl, rfl⟩

/-- A call of an attempt fails at the queue, or is a call over the broker inside. -/
theorem acted_of_attempt (q : EventQueue) (hooks : List Hook) (toldToStop : Bool) (now : Reading)
    (a : Attempt) (b : Queue.Unreliable Broker) (t : Ledger.Unreliable Memory) :
    Acted q now toldToStop b t (.called a (a.step q hooks now b t).1)
      (a.step q hooks now b t).2.1 (a.step q hooks now b t).2.2.1 := by
  have inside := Attempt.step_call q hooks now a b.inner t
  cases a with
  | grouping d =>
    simp only [Attempt.step] at inside ⊢
    generalize resolve d.event now.wall t = called at inside ⊢
    obtain ⟨found, t'⟩ := called
    cases found with
    | error e => exact .called _ _ b t' inside
    | ok f => exact .called _ _ b t' inside
  | recording d f =>
    simp only [Attempt.step] at inside ⊢
    generalize record hooks d.event f t = called at inside ⊢
    obtain ⟨recorded, t', shown⟩ := called
    cases recorded with
    | error e => exact .called _ _ b t' inside
    | ok o => exact .called _ _ b t' inside
  | popping p =>
    cases p with
    | receiving =>
      simp only [Attempt.step, Pop.step] at inside ⊢
      rcases queue_calling_cases b .receive (QueueBackend.receive now q.name q.timeout) with
        ⟨e, b', made, same⟩ | made
      · change QueueBackend.receive now q.name q.timeout b = _ at made
        rw [made]
        exact .failed _ _ b' same
      · change QueueBackend.receive now q.name q.timeout b = _ at made
        rw [made]
        generalize QueueBackend.receive now q.name q.timeout b.inner = called at inside ⊢
        obtain ⟨(e | _ | m), b'⟩ := called
        · exact .called _ _ _ t inside
        · exact .called _ _ _ t inside
        · simp only at inside ⊢
          generalize q.judge m = verdict at inside ⊢
          cases verdict with
          | deliver event => exact .called _ _ _ t inside
          | park warning => exact .called _ _ _ t inside
    | parking m =>
      simp only [Attempt.step, Pop.step] at inside ⊢
      rcases queue_calling_cases b .deadLetter
        (QueueBackend.deadLetter now q.name m.id q.deadName) with ⟨e, b', made, same⟩ | made
      · change QueueBackend.deadLetter now q.name m.id q.deadName b = _ at made
        rw [made]
        exact .failed _ _ b' same
      · change QueueBackend.deadLetter now q.name m.id q.deadName b = _ at made
        rw [made]
        generalize QueueBackend.deadLetter now q.name m.id q.deadName b.inner = called
          at inside ⊢
        obtain ⟨(e | done), b'⟩ := called
        · exact .called _ _ _ t inside
        · exact .called _ _ _ t inside
  | acking d o =>
    simp only [Attempt.step, Delivery.ack, EventQueue.crossing] at inside ⊢
    rcases queue_calling_cases b .ack (QueueBackend.ack d.queue d.id) with
      ⟨e, b', made, same⟩ | made
    · change QueueBackend.ack d.queue d.id b = _ at made
      rw [made]
      exact .failed _ _ b' same
    · change QueueBackend.ack d.queue d.id b = _ at made
      rw [made]
      generalize QueueBackend.ack d.queue d.id b.inner = called at inside ⊢
      obtain ⟨(e | done), b'⟩ := called
      · exact .called _ _ _ t inside
      · exact .called _ _ _ t inside

/-- A deed of a worker is a question or a call. -/
theorem acted_of_deed? {q : EventQueue} {hooks : List Hook} {toldToStop : Bool} {now : Reading}
    {w : Shift} {b : Queue.Unreliable Broker} {t : Ledger.Unreliable Memory} {d : Deed}
    (does : w.deed? q hooks toldToStop now b t = some d) :
    Acted q now toldToStop b t d (w.step q hooks toldToStop now b t).2.1
      (w.step q hooks toldToStop now b t).2.2.1 := by
  cases w with
  | stopped => cases does
  | asking =>
    cases does
    exact .asked
  | resting =>
    cases does
    exact .rested
  | attempting a =>
    cases does
    obtain ⟨queue, store⟩ := Shift.step_attempting q hooks toldToStop now a b t
    rw [queue, store]
    exact acted_of_attempt q hooks toldToStop now a b t

/-- Who was told to stop does not go on. -/
theorem Acted.obeys {q : EventQueue} {now : Reading} {b b' : Queue.Unreliable Broker}
    {t t' : Ledger.Unreliable Memory} {d : Deed} (made : Acted q now true b t d b' t') :
    d.obeys := by
  cases made with
  | asked => rfl
  | rested => rfl
  | failed => rfl
  | called => rfl

/-! ## Workshops -/

/-- Workers at a queue and a store that may fail, and what they did so far. -/
structure Workshop (count : Nat) where
  broker : Queue.Unreliable Broker
  store : Ledger.Unreliable Memory
  workers : Fin count → Shift
  toldToStop : Bool
  /-- What each worker did before they were told to stop. -/
  early : Fin count → List Deed
  /-- What each worker did since. -/
  late : Fin count → List Deed

namespace Workshop

variable {count : Nat} {q : EventQueue} {hooks : List Hook} {now : Reading}
  {w w' : Workshop count}

/-- Workers that have not done anything yet, at any queue and store. -/
def start (broker : Queue.Unreliable Broker) (store : Ledger.Unreliable Memory) :
    Workshop count where
  broker
  store
  workers _ := .asking
  toldToStop := false
  early _ := []
  late _ := []

/-- A producer publishes a report. -/
def push (q : EventQueue) (now : Reading) (r : Report) (w : Workshop count) : Workshop count :=
  { w with broker := (q.push now r w.broker).2 }

/-- The next calls of queue and store fail, so many of each kind and in this way. -/
def suffer (queueOutages : Queue.Call → Nat) (queueFailure : Queue.Call → QueueError)
    (storeOutages : Ledger.Call → Nat) (storeFailure : Ledger.Call → StoreError)
    (w : Workshop count) : Workshop count :=
  { w with broker := { w.broker with outages := queueOutages, failure := queueFailure }
           store := { w.store with outages := storeOutages, failure := storeFailure } }

/-- The workers are told to stop. -/
def tell (w : Workshop count) : Workshop count := { w with toldToStop := true }

/-- The workshop after a deed of a worker that leads to this. -/
def after (i : Fin count) (d : Deed) (next : Shift) (broker : Queue.Unreliable Broker)
    (store : Ledger.Unreliable Memory) (w : Workshop count) : Workshop count where
  broker
  store
  workers := Function.update w.workers i next
  toldToStop := w.toldToStop
  early := if w.toldToStop then w.early else Function.update w.early i (w.early i ++ [d])
  late := if w.toldToStop then Function.update w.late i (w.late i ++ [d]) else w.late

/-- A worker makes a step, unless it has stopped. -/
def act (q : EventQueue) (hooks : List Hook) (i : Fin count) (now : Reading)
    (w : Workshop count) : Workshop count :=
  let (next, broker, store, _) :=
    (w.workers i).step q hooks w.toldToStop now w.broker w.store
  match (w.workers i).deed? q hooks w.toldToStop now w.broker w.store with
  | some d => w.after i d next broker store
  | none => w

/-- One step of a worker, or one change from outside. -/
inductive Step (q : EventQueue) (hooks : List Hook) : Workshop count → Workshop count → Prop
  | push (w : Workshop count) (now : Reading) (r : Report) : Step q hooks w (w.push q now r)
  | suffer (w : Workshop count) (queueOutages : Queue.Call → Nat)
      (queueFailure : Queue.Call → QueueError) (storeOutages : Ledger.Call → Nat)
      (storeFailure : Ledger.Call → StoreError) :
      Step q hooks w (w.suffer queueOutages queueFailure storeOutages storeFailure)
  | tell (w : Workshop count) : Step q hooks w w.tell
  | act (w : Workshop count) (i : Fin count) (now : Reading) :
      Step q hooks w (w.act q hooks i now)

/-- A workshop that comes of one in which nothing was done yet. -/
def Reachable (q : EventQueue) (hooks : List Hook) (w : Workshop count) : Prop :=
  ∃ broker store, Relation.ReflTransGen (Step q hooks) (start broker store) w

/-- All that a worker did. -/
def story (w : Workshop count) (i : Fin count) : List Deed := w.early i ++ w.late i

/-- What was delivered to a worker. -/
def delivered (w : Workshop count) (i : Fin count) : List Delivery :=
  (w.story i).filterMap Deed.delivered?

/-- A message is held by the queue or parked. -/
def Held (q : EventQueue) (b : Broker) (id : MessageId) : Prop :=
  ∃ s, b.slot? id = some s ∧ (s.queue = q.name ∨ s.queue = q.deadName)

/-- A worker recorded a message, and acknowledged it next. -/
def Settled (w : Workshop count) (id : MessageId) : Prop :=
  ∃ i d f o, d.id = id ∧ o.event ∈ w.store.inner.events ∧
    [.called (.recording d f) (.more (.acking d o)),
      .called (.acking d o) (.done (.ok (some o)))] <:+: w.story i

/-- A step of a worker that has not stopped is a deed that its place allows. -/
theorem act_cases (q : EventQueue) (hooks : List Hook) (i : Fin count) (now : Reading)
    (w : Workshop count) :
    (w.workers i = .stopped ∧ w.act q hooks i now = w) ∨
    ∃ d b t, d.place = w.workers i ∧ Acted q now w.toldToStop w.broker w.store d b t ∧
      w.act q hooks i now = w.after i d d.next b t := by
  unfold act
  cases does : (w.workers i).deed? q hooks w.toldToStop now w.broker w.store with
  | none =>
    cases here : w.workers i with
    | stopped => exact .inl ⟨rfl, rfl⟩
    | asking => rw [here] at does; cases does
    | resting => rw [here] at does; cases does
    | attempting a => rw [here] at does; cases does
  | some d =>
    obtain ⟨place, next⟩ := Shift.step_of_deed? does
    exact .inr ⟨d, _, _, place, acted_of_deed? does, congrArg (fun v => w.after i d v _ _) next⟩

/-! ## Deeds in order -/

/-- What each worker did leads to where it stands, and it did not go on once it was told to stop. -/
structure Orderly (w : Workshop count) : Prop where
  leads : ∀ i, Leads .asking (w.story i) (w.workers i)
  obeys : ∀ i, ∀ d ∈ w.late i, d.obeys
  untold : w.toldToStop = false → ∀ i, w.late i = []

namespace Orderly

theorem start (broker : Queue.Unreliable Broker) (store : Ledger.Unreliable Memory) :
    (start broker store : Workshop count).Orderly :=
  ⟨fun _ => rfl, fun _ _ member => absurd member List.not_mem_nil, fun _ _ => rfl⟩

/-- The deed of a worker stands at the end of its story. -/
theorem story_after (h : w.Orderly) (i : Fin count) (d : Deed) (next : Shift)
    (b : Queue.Unreliable Broker) (t : Ledger.Unreliable Memory) (j : Fin count) :
    (w.after i d next b t).story j = if j = i then w.story i ++ [d] else w.story j := by
  simp only [story, after]
  cases told : w.toldToStop with
  | false =>
    have none := h.untold told
    simp only [Bool.false_eq_true, if_false, none, List.append_nil, Function.update_apply]
  | true =>
    simp only [if_true, Function.update_apply]
    split
    · next same => rw [same, List.append_assoc]
    · rfl

theorem after (h : w.Orderly) {i : Fin count} {d : Deed} (place : d.place = w.workers i)
    (obeys : w.toldToStop = true → d.obeys) (b : Queue.Unreliable Broker)
    (t : Ledger.Unreliable Memory) : (w.after i d d.next b t).Orderly := by
  refine ⟨fun j => ?_, fun j e member => ?_, fun told j => ?_⟩
  · rw [h.story_after]
    show Leads .asking _ (Function.update w.workers i d.next j)
    rw [Function.update_apply]
    by_cases same : j = i
    · rw [if_pos same, if_pos same]
      exact leads_append.2 ⟨w.workers i, h.leads i, place, rfl⟩
    · rw [if_neg same, if_neg same]
      exact h.leads j
  · cases told : w.toldToStop with
    | false =>
      simp only [Workshop.after, told, Bool.false_eq_true, if_false] at member
      exact h.obeys j e member
    | true =>
      simp only [Workshop.after, told, if_true, Function.update_apply] at member
      split at member
      · rcases List.mem_append.1 member with before | now
        · exact h.obeys i e before
        · rw [List.mem_singleton.1 now]
          exact obeys told
      · exact h.obeys j e member
  · change w.toldToStop = false at told
    simp only [Workshop.after, told, Bool.false_eq_true, if_false]
    exact h.untold told j

theorem step (h : w.Orderly) (made : Step q hooks w w') : w'.Orderly := by
  cases made with
  | push now r => exact ⟨h.leads, h.obeys, h.untold⟩
  | suffer => exact ⟨h.leads, h.obeys, h.untold⟩
  | tell => exact ⟨h.leads, h.obeys, fun told => by cases told⟩
  | act i now =>
    rcases act_cases q hooks i now w with ⟨-, same⟩ | ⟨d, b, t, place, made, same⟩
    · rw [same]
      exact h
    · rw [same]
      refine h.after place (fun told => ?_) b t
      rw [told] at made
      exact made.obeys

end Orderly

/-! ## No message is lost -/

/-- What a call of an attempt leaves to the queues: they lose a message only if it is
    acknowledged. -/
theorem held_of_call {b b' : Broker} {t t' : Ledger.Unreliable Memory} {a : Attempt}
    {p : Progress Attempt Attempted} (made : Attempt.Call q now b t a p b' t') {id : MessageId}
    (held : Held q b id) :
    Held q b' id ∨ ∃ d o, d.id = id ∧ a = .acking d o ∧ p = .done (.ok (some o)) := by
  obtain ⟨s, found, on⟩ := held
  have changed : ∀ {f : Slot → Slot} {keeps : ∀ s, (f s).id = s.id} {other : MessageId},
      ((f s).queue = q.name ∨ (f s).queue = q.deadName) → Held q (b.change other f keeps) id := by
    intro f keeps other placed
    refine ⟨if id = other then f s else s, ?_, ?_⟩
    · rw [Broker.slot?_change, found]
      rfl
    · split
      · exact placed
      · exact on
  cases made with
  | skip other s' found' available m hm => exact .inl (changed on)
  | take other s' found' available d hd onq => exact .inl (changed on)
  | park m s' found' on' => exact .inl (changed (.inr rfl))
  | ack d o s' found' on' =>
    by_cases same : id = d.id
    · exact .inr ⟨d, o, same.symm, rfl, rfl⟩
    · exact .inl ⟨s, by rw [Broker.slot?_remove, if_neg same, found], on⟩
  | idle | overflow => exact .inl ⟨s, found, on⟩
  | misplaced => exact .inl ⟨s, found, on⟩
  | ungrouped => exact .inl ⟨s, found, on⟩
  | group => exact .inl ⟨s, found, on⟩
  | unrecorded => exact .inl ⟨s, found, on⟩
  | record => exact .inl ⟨s, found, on⟩
  | unacked => exact .inl ⟨s, found, on⟩

/-- A publication takes no message off the queues. -/
theorem held_push (now : Reading) (r : Report) {b : Queue.Unreliable Broker} {id : MessageId}
    (held : Held q b.inner id) : Held q (q.push now r b).2.inner id := by
  show Held q (QueueBackend.publish now q.name (q.payload r) b).2.inner id
  rcases queue_calling_cases b .publish
    (QueueBackend.publish now q.name (q.payload r)) with
    ⟨e, b', made, same⟩ | made
  · change QueueBackend.publish now q.name (q.payload r) b = _ at made
    rw [made, same]
    exact held
  · change QueueBackend.publish now q.name (q.payload r) b = _ at made
    rw [made]
    obtain ⟨s, found, on⟩ := held
    refine ⟨s, ?_, on⟩
    show (b.inner.publish now q.name (q.payload r)).2.slot? id = some s
    have old : id ≠ b.inner.nextId := by
      rintro rfl
      rw [Broker.slot?_nextId] at found
      cases found
    rw [Broker.slot?_publish, if_neg old, found]

/-- A queue holds what it delivers. -/
theorem held_of_delivered {b b' : Broker} {t t' : Ledger.Unreliable Memory} {a : Attempt}
    {p : Progress Attempt Attempted} (made : Attempt.Call q now b t a p b' t') {d : Delivery}
    (delivers : (Deed.called a p).delivered? = some d) : Held q b' d.id := by
  cases made with
  | take id s found available d' hd onq =>
    cases delivers
    subst hd
    refine ⟨_, (Broker.slot?_change_of_found found _ _ d.id).trans (if_pos rfl), .inl ?_⟩
    exact (Slot.isAvailable_iff.1 available).1
  | idle | overflow => cases delivers
  | skip => cases delivers
  | park => cases delivers
  | misplaced => cases delivers
  | ungrouped => cases delivers
  | group => cases delivers
  | unrecorded => cases delivers
  | record => cases delivers
  | ack => cases delivers
  | unacked => cases delivers

/-- The rows of a store stay. -/
theorem events_of_call {b b' : Broker} {t t' : Ledger.Unreliable Memory} {a : Attempt}
    {p : Progress Attempt Attempted} (made : Attempt.Call q now b t a p b' t') :
    t.inner.events <+: t'.inner.events := by
  have kept : t'.inner.events = t.inner.events → t.inner.events <+: t'.inner.events :=
    fun same => same ▸ List.prefix_refl _
  cases made with
  | record d f o _ e after rows => exact ⟨[o.event], rows.symm⟩
  | group d f _ g after =>
    refine kept ?_
    rw [after]
    rcases t.inner.getOrCreateGroup_cases g with ⟨_, _, known⟩ | ⟨_, new⟩
    · rw [known]
    · rw [new]
      rfl
  | ungrouped d e _ same => exact kept (congrArg Ledger.Memory.events same)
  | unrecorded d f e _ same => exact kept (congrArg Ledger.Memory.events same)
  | idle | overflow => exact List.prefix_refl _
  | skip => exact List.prefix_refl _
  | take => exact List.prefix_refl _
  | park => exact List.prefix_refl _
  | misplaced => exact List.prefix_refl _
  | ack => exact List.prefix_refl _
  | unacked => exact List.prefix_refl _

/-- What is to be acknowledged has just been recorded. -/
theorem recorded_of_call {b b' : Broker} {t t' : Ledger.Unreliable Memory} {a : Attempt}
    {d : Delivery} {o : Outcome} (made : Attempt.Call q now b t a (.more (.acking d o)) b' t') :
    o.event ∈ t'.inner.events ∧ ∃ f, a = .recording d f := by
  cases made with
  | record _ f _ _ e after rows =>
    rw [rows]
    exact ⟨List.mem_append_right _ List.mem_cons_self, f, rfl⟩

/-- What was delivered is held or settled, and what is to be acknowledged was recorded just
    before. -/
structure Safe (q : EventQueue) (w : Workshop count) : Prop extends Orderly w where
  recorded : ∀ i d o, w.workers i = .attempting (.acking d o) →
    o.event ∈ w.store.inner.events ∧
      ∃ f, [.called (.recording d f) (.more (.acking d o))] <:+ w.story i
  kept : ∀ i d, d ∈ w.delivered i → w.Settled d.id ∨ Held q w.broker.inner d.id

namespace Safe

theorem start (broker : Queue.Unreliable Broker) (store : Ledger.Unreliable Memory) :
    (start broker store : Workshop count).Safe q where
  toOrderly := .start broker store
  recorded i d o at' := by cases at'
  kept i d member := absurd member List.not_mem_nil

/-- Stories and rows only grow, so what is settled stays settled. -/
theorem settled_after {w : Workshop count} (h : w.Orderly) (i : Fin count) (d : Deed) (next : Shift)
    (b : Queue.Unreliable Broker) {t : Ledger.Unreliable Memory}
    (rows : w.store.inner.events <+: t.inner.events) {id : MessageId} (settled : w.Settled id) :
    (w.after i d next b t).Settled id := by
  obtain ⟨j, d', f, o, same, row, told⟩ := settled
  refine ⟨j, d', f, o, same, rows.subset row, ?_⟩
  rw [h.story_after]
  split
  · next here =>
    subst here
    exact told.trans (List.prefix_append _ _).isInfix
  · exact told

theorem mem_delivered_after {w : Workshop count} (h : w.Orderly) {i j : Fin count} {e : Deed}
    {next : Shift} {b : Queue.Unreliable Broker} {t : Ledger.Unreliable Memory} {d : Delivery}
    (member : d ∈ (w.after i e next b t).delivered j) :
    d ∈ w.delivered j ∨ e.delivered? = some d := by
  rw [delivered, h.story_after] at member
  split at member
  · next here =>
    subst here
    rw [List.filterMap_append, List.mem_append] at member
    rcases member with before | now
    · exact .inl before
    · obtain ⟨_, last, delivers⟩ := List.mem_filterMap.1 now
      rw [List.mem_singleton.1 last] at delivers
      exact .inr delivers
  · exact .inl member

/-- A deed keeps messages safe if the queues lose only what it acknowledges, hold what it delivers,
    and what is to be acknowledged then was recorded by it. -/
theorem after (h : w.Safe q) {i : Fin count} {e : Deed} {b : Queue.Unreliable Broker}
    {t : Ledger.Unreliable Memory} (place : e.place = w.workers i)
    (obeys : w.toldToStop = true → e.obeys) (rows : w.store.inner.events <+: t.inner.events)
    (loses : ∀ id, Held q w.broker.inner id → Held q b.inner id ∨
      ∃ d o, d.id = id ∧ e = .called (.acking d o) (.done (.ok (some o))))
    (delivers : ∀ d, e.delivered? = some d → Held q b.inner d.id)
    (records : ∀ d o, e.next = .attempting (.acking d o) →
      o.event ∈ t.inner.events ∧ ∃ f, e = .called (.recording d f) (.more (.acking d o))) :
    (w.after i e e.next b t).Safe q := by
  refine ⟨h.toOrderly.after place obeys b t, fun j d o at' => ?_, fun j d member => ?_⟩
  · change Function.update w.workers i e.next j = _ at at'
    rw [Function.update_apply] at at'
    rw [h.story_after]
    split at at'
    · next here =>
      obtain ⟨row, f, same⟩ := records d o at'
      rw [if_pos here, same]
      exact ⟨row, f, List.suffix_append _ _⟩
    · next other =>
      obtain ⟨row, f, last⟩ := h.recorded j d o at'
      rw [if_neg other]
      exact ⟨rows.subset row, f, last⟩
  · rcases mem_delivered_after h.toOrderly member with before | now
    · rcases h.kept j d before with settled | held
      · exact .inl (settled_after h.toOrderly i e e.next b rows settled)
      · rcases loses d.id held with still | ⟨d', o, same, acks⟩
        · exact .inr still
        · -- The message is acknowledged by this deed, and was recorded by the one before.
          subst acks
          obtain ⟨row, f, before, last⟩ := h.recorded i d' o place.symm
          refine .inl ⟨i, d', f, o, same, rows.subset row, ?_⟩
          rw [h.story_after, if_pos rfl, ← last, List.append_assoc]
          exact (List.suffix_append before _).isInfix
    · exact .inr (delivers d now)

/-- A deed that does not reach queue or store keeps messages safe if it delivers nothing and no
    acknowledgement comes of it. -/
theorem after_idle (h : w.Safe q) {i : Fin count} {e : Deed} {b : Queue.Unreliable Broker}
    (place : e.place = w.workers i) (obeys : w.toldToStop = true → e.obeys)
    (same : b.inner = w.broker.inner) (delivers : e.delivered? = none)
    (acks : ∀ d o, e.next ≠ .attempting (.acking d o)) : (w.after i e e.next b w.store).Safe q := by
  refine h.after place obeys (List.prefix_refl _) (fun id held => ?_) (fun d now => ?_)
    fun d o at' => ?_
  · rw [same]
    exact .inl held
  · rw [delivers] at now
    cases now
  · exact absurd at' (acks d o)

theorem step (h : w.Safe q) (made : Step q hooks w w') : w'.Safe q := by
  have orderly := h.toOrderly.step made
  cases made with
  | suffer => exact ⟨orderly, h.recorded, h.kept⟩
  | tell => exact ⟨orderly, h.recorded, h.kept⟩
  | push now r =>
    refine ⟨orderly, h.recorded, fun i d member => ?_⟩
    exact (h.kept i d member).imp_right fun held => held_push now r held
  | act i now =>
    rcases act_cases q hooks i now w with ⟨-, after⟩ | ⟨e, b, t, place, made, after⟩
    · rw [after]
      exact h
    · rw [after]
      have obeys : w.toldToStop = true → e.obeys := by
        intro told
        rw [told] at made
        exact made.obeys
      cases made with
      | asked =>
        refine h.after_idle place obeys rfl rfl fun d o at' => ?_
        simp only [Deed.next] at at'
        split at at' <;> cases at'
      | rested =>
        refine h.after_idle place obeys rfl rfl fun d o at' => ?_
        simp only [Deed.next] at at'
        split at at' <;> cases at'
      | failed a err _ same =>
        exact h.after_idle place obeys same rfl fun d o => Shift.afterAttempt_ne_attempting _ _
      | called a p _ _ made =>
        refine h.after place obeys (events_of_call made) (fun id held => ?_)
          (fun d now => held_of_delivered made now) fun d o at' => ?_
        · refine (held_of_call made held).imp_right fun ⟨d, o, same, at', ends⟩ => ?_
          exact ⟨d, o, same, by rw [at', ends]⟩
        · cases p with
          | more next =>
            cases at'
            obtain ⟨row, f, same⟩ := recorded_of_call made
            exact ⟨row, f, by rw [same]⟩
          | done result => exact absurd at' (Shift.afterAttempt_ne_attempting result _)

end Safe

/-- What holds of every workshop, by induction on the steps to it. -/
theorem safe_of_reachable (reach : w.Reachable q hooks) : w.Safe q := by
  obtain ⟨broker, store, steps⟩ := reach
  induction steps with
  | refl => exact .start broker store
  | tail _ made ih => exact ih.step made

/-- However workers, producers and failures act in turn, and whenever the workers are told to stop:
    a worker that was told to stop makes at most the calls of one attempt, asks, and stops.  It
    begins an attempt since then only if its last deed before was to ask and be sent on.  No worker
    leaves an attempt before its end, so one that has stopped has ended each; and what was delivered
    is either recorded and then acknowledged, or still held by the queue or parked. -/
theorem closed_without_loss {count : Nat} (q : EventQueue) (hooks : List Hook)
    (w : Workshop count) (reach : w.Reachable q hooks) :
    (∀ i, ∃ calls tests, w.late i = calls ++ tests ∧ IsOneAttempt calls ∧
      tests.Sublist [.asked true, .rested true]) ∧
    (∀ i, begun false (w.story i) ≤ begun false (w.early i) + 1 ∧
      (begun false (w.story i) ≠ begun false (w.early i) →
        (w.early i).getLast? = some (.asked false))) ∧
    (∀ i before a b rest, w.story i = before ++ .called a (.more b) :: rest →
      Carried b rest (w.workers i) ∧
      (w.workers i = .stopped → ∃ c result, .called c (.done result) ∈ rest)) ∧
    ∀ i d, d ∈ w.delivered i → w.Settled d.id ∨ Held q w.broker.inner d.id := by
  have h := safe_of_reachable reach
  refine ⟨fun i => ?_, fun i => ?_, fun i before a b rest split => ?_, h.kept⟩
  · have path := h.leads i
    rw [story, leads_append] at path
    obtain ⟨v, -, since⟩ := path
    exact since.winds_up (h.obeys i)
  · have none : ∀ d ∈ w.late i, d.isGo = false := fun d member =>
      Deed.isGo_of_obeys (h.obeys i d member)
    rw [story, begun_append]
    refine ⟨Nat.add_le_add_left (begun_le_one none _) _, fun more => ?_⟩
    cases last : (w.early i).getLast? with
    | none =>
      rw [last] at more
      exact absurd (by rw [Option.map_none, Option.getD_none, begun_eq_zero none]; rfl) more
    | some e =>
      rw [last] at more
      cases go : e.isGo with
      | false =>
        refine absurd ?_ more
        rw [Option.map_some, Option.getD_some, go, begun_eq_zero none]
        rfl
      | true =>
        cases e with
        | asked toldToStop =>
          cases toldToStop with
          | false => rfl
          | true => cases go
        | called => cases go
        | rested => cases go
  · have path := h.leads i
    rw [split, leads_append] at path
    obtain ⟨v, -, -, further⟩ := path
    have carried := further.carried
    refine ⟨carried, fun stopped => ?_⟩
    rw [stopped] at carried
    exact carried.ended_of_stopped

/-- A worker makes so many steps in turn. -/
def acts (q : EventQueue) (hooks : List Hook) (i : Fin count) (now : Reading) :
    Nat → Workshop count → Workshop count
  | 0, w => w
  | n + 1, w => acts q hooks i now n (w.act q hooks i now)

theorem Reachable.then (reach : w.Reachable q hooks) (made : Step q hooks w w') :
    w'.Reachable q hooks := by
  obtain ⟨broker, store, steps⟩ := reach
  exact ⟨broker, store, steps.tail made⟩

theorem Reachable.acts (reach : w.Reachable q hooks) (i : Fin count) (now : Reading) (n : Nat) :
    (w.acts q hooks i now n).Reachable q hooks := by
  induction n generalizing w with
  | zero => exact reach
  | succ n ih => exact ih (reach.then (.act w i now))

/-- A report is published and the only worker is sent to take it; then it is told to stop.  It makes
    the four calls for the report, asks twice, and stops. -/
def lastReport : Workshop 1 :=
  let opened : Workshop 1 := start ⟨.empty, fun _ => 0, fun _ => .database⟩
    ⟨.empty, fun _ => 0, fun _ => .database⟩
  let sent := (opened.push (.ofSettings {}) (.atEpoch 0) .plain).acts (.ofSettings {}) [] 0
    (.atEpoch 0) 1
  sent.tell.acts (.ofSettings {}) [] 0 (.atEpoch 0) 6

theorem lastReport_reachable : lastReport.Reachable (.ofSettings {}) [] := by
  refine Reachable.acts (Reachable.then ?_ (.tell _)) _ _ _
  refine Reachable.acts (Reachable.then ?_ (.push _ _ _)) _ _ _
  exact ⟨_, _, .refl⟩

/-- What comes of that. -/
theorem lastReport_outcome :
    (lastReport.delivered 0).map Delivery.id = [⟨1⟩] ∧
    lastReport.broker.inner.slot? ⟨1⟩ = none ∧
    (lastReport.workers 0).isStopped = true ∧
    begun false (lastReport.story 0) = begun false (lastReport.early 0) + 1 := by
  decide +kernel

theorem closed_without_loss_lastReport :
    lastReport.Reachable (.ofSettings {}) [] ∧ (lastReport.workers 0).isStopped = true ∧
    begun false (lastReport.story 0) = begun false (lastReport.early 0) + 1 ∧
    lastReport.Settled ⟨1⟩ := by
  obtain ⟨one, gone, stopped, began⟩ := lastReport_outcome
  obtain ⟨d, member, same⟩ : ∃ d ∈ lastReport.delivered 0, d.id = ⟨1⟩ := by
    rw [← List.mem_map, one]
    exact List.mem_cons_self
  have kept := (closed_without_loss (.ofSettings {}) [] lastReport lastReport_reachable).2.2.2
  have either := kept 0 d member
  rw [same] at either
  refine ⟨lastReport_reachable, stopped, began, either.resolve_right fun ⟨s, found, _⟩ => ?_⟩
  rw [gone] at found
  cases found

end Workshop

end ErrorIntake.Worker
