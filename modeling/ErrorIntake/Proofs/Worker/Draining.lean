import ErrorIntake.Proofs.EventQueue.Traffic
import ErrorIntake.Proofs.Report.RoundTrip
import ErrorIntake.Proofs.Worker.Deeds
import ErrorIntake.Proofs.Worker.World

/-!
# Draining a queue

One worker drains a queue that nobody else uses, and claims hide nothing, so a message whose event
cannot be stored is claimed again at once.  The drain ends all the same, however often the store
fails: a claim uses up one of the attempts that its message has left, and a message without any is
parked.

`Tended` says where the messages stand that the queue held in the beginning, and `Sound` adds the
worker, the rows and the deliveries.  `cost` falls with every step.

A limit that the counter of attempts cannot pass is none.  `Spinning` says where a worker stands that
takes the same message again and again, and every step keeps it.
-/

namespace ErrorIntake

open Calendar (Reading)
open Ledger (Event Memory Unreliable)
open Queue (Broker QueueBackend Slot)

/-! ## Sums over the messages of a queue -/

namespace Queue.Broker

variable {b : Broker} {id : MessageId} {s : Slot} {queue : String}

/-- The sum of a number over the messages of a queue. -/
def total (b : Broker) (queue : String) (f : Slot → Nat) : Nat :=
  ((b.slots.filter fun s => s.queue == queue).map f).sum

/-- An id stands once in the list of slots. -/
theorem slots_eq_append (found : b.slot? id = some s) :
    ∃ before after, b.slots = before ++ s :: after ∧ s.id = id ∧
      (∀ t ∈ before, t.id ≠ id) ∧ ∀ t ∈ after, t.id ≠ id := by
  obtain ⟨member, rfl⟩ := slot?_eq_some_iff.1 found
  obtain ⟨before, after, split⟩ := List.append_of_mem member
  have once := b.nodup_ids
  rw [split, List.map_append, List.map_cons] at once
  obtain ⟨-, later, apart⟩ := List.nodup_append.1 once
  refine ⟨before, after, split, rfl, fun t there same => ?_, fun t there same => ?_⟩
  · exact apart t.id (List.mem_map_of_mem there) s.id List.mem_cons_self same
  · exact (List.nodup_cons.1 later).1 (same ▸ List.mem_map_of_mem there)

/-- Changing a slot changes a sum by what the slot adds to it. -/
theorem total_change (queue : String) (found : b.slot? id = some s) (g : Slot → Slot)
    (keeps : ∀ s, (g s).id = s.id) (f : Slot → Nat) :
    (b.change id g keeps).total queue f + (if s.queue = queue then f s else 0) =
      b.total queue f + if (g s).queue = queue then f (g s) else 0 := by
  obtain ⟨before, after, split, named, front, back⟩ := slots_eq_append found
  have same : ∀ l : List Slot, (∀ t ∈ l, t.id ≠ id) →
      l.map (fun t => if t.id = id then g t else t) = l := by
    intro l apart
    exact (List.map_congr_left fun t member => if_neg (apart t member)).trans (List.map_id l)
  have slots : (b.change id g keeps).slots = before ++ g s :: after := by
    show b.slots.map _ = _
    rw [split, List.map_append, List.map_cons, same before front, same after back, if_pos named]
  rw [total, total, slots, split]
  by_cases on : s.queue = queue <;> by_cases stays : (g s).queue = queue <;>
    simp [on, stays] <;> omega

/-- Removing a slot lowers a sum by what the slot adds to it. -/
theorem total_remove (queue : String) (found : b.slot? id = some s) (f : Slot → Nat) :
    (b.remove id).total queue f + (if s.queue = queue then f s else 0) = b.total queue f := by
  obtain ⟨before, after, split, named, front, back⟩ := slots_eq_append found
  have same : ∀ l : List Slot, (∀ t ∈ l, t.id ≠ id) → l.filter (fun t => t.id != id) = l :=
    fun l apart => List.filter_eq_self.2 fun t member => by simpa using apart t member
  have slots : (b.remove id).slots = before ++ after := by
    show b.slots.filter _ = _
    rw [split, List.filter_append, List.filter_cons_of_neg (by simp [named]), same before front,
      same after back]
  rw [total, total, slots, split]
  by_cases on : s.queue = queue <;> simp [on]
  omega

/-- A queue without slots is empty. -/
theorem depth_eq_zero (none : ∀ id s, b.slot? id = some s → s.queue ≠ queue) :
    b.depth queue = 0 := by
  refine List.countP_eq_zero.2 fun s member on => ?_
  exact none s.id s (slot?_eq_some_iff.2 ⟨member, rfl⟩) (by simpa using on)

end Queue.Broker

namespace Worker

/-! ## What the worker does -/

namespace Attempt

/-- The message that an attempt is about to park. -/
def condemned? : Attempt → Option MessageId
  | .popping (.parking m) => some m.id
  | _ => none

/-- A message is delivered only if its claims are within the limit then. -/
theorem allowed_of_delivers {q : EventQueue} {hooks : List Hook} {now : Reading} {b : Broker}
    {t : Unreliable Memory} {d : Delivery} {s : Slot}
    (led : (Attempt.start.step q hooks now b t).1 = .more (.grouping d))
    (found : b.slot? d.id = some s) : s.attempt + 1 ≤ q.maxAttempts := by
  simp only [start, step, Pop.step, QueueBackend.receive] at led
  rcases b.receive_cases now q.name q.timeout with
    ⟨-, made⟩ | ⟨-, -, -, -, -, made⟩ | ⟨id, s', found', -, -, -, made⟩
  · rw [made] at led
    cases led
  · rw [made] at led
    cases led
  · rw [made] at led
    rcases q.judge_cases (s'.claimed (now.steady + q.timeout)).message with
      ⟨warning, judged, -⟩ | ⟨event, judged, allowed, -⟩
    · simp only [judged] at led
      cases led
    · simp only [judged] at led
      cases led
      have named := Broker.id_of_slot? found'
      change b.slot? s'.id = some s at found
      rw [named, found'] at found
      cases found
      exact UInt32.not_lt.1 allowed

end Attempt

namespace Shift

/-- The attempt that a worker is in. -/
def attempt? : Shift → Option Attempt
  | .attempting a => some a
  | _ => none

/-- The message that a worker has recorded and not acknowledged yet. -/
def recorded? (w : Shift) : Option MessageId := w.attempt?.bind Attempt.recorded?

/-- The message that a worker is about to park. -/
def condemned? (w : Shift) : Option MessageId := w.attempt?.bind Attempt.condemned?

/-- How near a worker is to the end of its drain while the messages of the queue and their attempts
    stay. -/
def rank : Shift → Nat
  | .attempting (.grouping _) => 5
  | .attempting (.recording ..) => 4
  | .attempting (.acking ..) => 3
  | .asking => 2
  | .attempting (.popping .receiving) => 1
  | _ => 0

end Shift

namespace Deed

/-- What the deed acknowledges. -/
def acked : Deed → List MessageId
  | called a p => World.ackedBy p a
  | _ => []

/-- The row that the deed records, with the message that it came of. -/
def produced : Deed → List (MessageId × Event)
  | called _ p => World.producedBy p
  | _ => []

end Deed

/-- A store that fails in this way, or does not fail. -/
def faulty (fault? : Option StoreError) (t : Memory) : Unreliable Memory where
  inner := t
  outages _ := if fault?.isSome then 1 else 0
  failure _ := fault?.getD .database

/-- A worker that drains a queue alone, and what it has done. -/
structure Drain where
  worker : Shift
  broker : Broker
  store : Memory
  deeds : List Deed

namespace Drain

/-- The worker has not begun. -/
def start (b : Broker) (t : Memory) : Drain := ⟨.asking, b, t, []⟩

/-- The next step of the worker, which nobody tells to stop.  If it calls the store, the call fails
    in this way or does not fail. -/
def step (q : EventQueue) (hooks : List Hook) (now : Reading) (fault? : Option StoreError)
    (x : Drain) : Drain :=
  let t := faulty fault? x.store
  let (worker, broker, store, _) := x.worker.step q hooks false now x.broker t
  { worker, broker
    store := store.inner
    deeds := x.deeds ++ (x.worker.deed? q hooks false now x.broker t).toList }

/-- So many steps, each with its own time and its own fault of the store. -/
def run (q : EventQueue) (hooks : List Hook) (clock : Nat → Reading)
    (faults : Nat → Option StoreError) (x : Drain) : Nat → Drain
  | 0 => x
  | n + 1 => (x.run q hooks clock faults n).step q hooks (clock n) (faults n)

/-- What was delivered, the oldest first. -/
def delivered (x : Drain) : List Delivery := x.deeds.filterMap Deed.delivered?

/-- The messages that were acknowledged, the oldest first. -/
def acked (x : Drain) : List MessageId := x.deeds.flatMap Deed.acked

/-- The rows that were recorded, the oldest first, each with the message that it came of. -/
def produced (x : Drain) : List (MessageId × Event) := x.deeds.flatMap Deed.produced

/-- How many rows came of a message. -/
def rowsOf (x : Drain) (id : MessageId) : Nat := (x.produced.map Prod.fst).count id

/-- The drain once its worker begins an attempt. -/
def begin (x : Drain) : Drain :=
  { x with worker := .attempting .start, deeds := x.deeds ++ [.asked false] }

/-- The drain after a call of the worker's attempt that led to this. -/
def after (a : Attempt) (p : Progress Attempt Attempted) (b : Broker) (t : Memory) (x : Drain) :
    Drain :=
  ⟨(Deed.called a p).next, b, t, x.deeds ++ [.called a p]⟩

variable {q : EventQueue} {hooks : List Hook} {now : Reading} {fault? : Option StoreError}
  {x : Drain} {a : Attempt} {p : Progress Attempt Attempted} {b b₀ : Broker} {t t₀ : Memory}
  {id : MessageId} {s : Slot}

@[simp] theorem delivered_after :
    (x.after a p b t).delivered = x.delivered ++ (Deed.called a p).delivered?.toList := by
  simp only [delivered, after, List.filterMap_append]
  cases h : (Deed.called a p).delivered? <;> simp [h]

@[simp] theorem acked_after : (x.after a p b t).acked = x.acked ++ World.ackedBy p a := by
  simp [acked, after, Deed.acked]

@[simp] theorem produced_after : (x.after a p b t).produced = x.produced ++ World.producedBy p := by
  simp [produced, after, Deed.produced]

@[simp] theorem delivered_begin : x.begin.delivered = x.delivered := by
  simp [delivered, begin, Deed.delivered?]

@[simp] theorem acked_begin : x.begin.acked = x.acked := by simp [acked, begin, Deed.acked]

@[simp] theorem produced_begin : x.begin.produced = x.produced := by
  simp [produced, begin, Deed.produced]

/-- A worker that is about to begin an attempt begins it. -/
theorem step_asking (asks : x.worker = .asking) : x.step q hooks now fault? = x.begin := by
  simp only [step, asks, Shift.step, Shift.deed?]
  rfl

/-- A worker in an attempt makes one of the calls. -/
theorem step_attempting (q : EventQueue) (hooks : List Hook) (now : Reading)
    (fault? : Option StoreError) (busy : x.worker = .attempting a) :
    ∃ p b t, (a.step q hooks now x.broker (faulty fault? x.store)).1 = p ∧
      Attempt.Call q now x.broker (faulty fault? x.store) a p b t ∧
      x.step q hooks now fault? = x.after a p b t.inner := by
  have does : x.worker.deed? q hooks false now x.broker (faulty fault? x.store) =
      some (.called a (a.step q hooks now x.broker (faulty fault? x.store)).1) := by
    rw [busy]
    rfl
  obtain ⟨-, next⟩ := Shift.step_of_deed? does
  have both := Shift.step_attempting q hooks false now a x.broker (faulty fault? x.store)
  rw [← busy] at both
  refine ⟨_, _, _, rfl, Attempt.step_call q hooks now a x.broker (faulty fault? x.store), ?_⟩
  simp only [step, after, does, next, both.1, both.2]
  rfl

/-! ## Where the messages stand -/

/-- Where a message stands that stood in this slot of the queue: it waits there still, with other
    claims, it is parked, or it is acknowledged. -/
inductive Stage (q : EventQueue) (b : Broker) (acked : List MessageId) (s₀ : Slot) : Prop
  | waiting (s : Slot) (found : b.slot? s₀.id = some s) (on : s.queue = q.name)
      (same : ∀ dead time, s.moved dead time = s₀.moved dead time) (pending : s₀.id ∉ acked)
  | parked (time : Nat) (found : b.slot? s₀.id = some (s₀.moved q.deadName time))
      (pending : s₀.id ∉ acked)
  | acked (gone : b.slot? s₀.id = none) (done : s₀.id ∈ acked)

/-- What holds of the messages while a queue is drained. -/
structure Tended (q : EventQueue) (time : Nat) (b₀ b : Broker) (acked : List MessageId)
    (condemned? : Option MessageId) : Prop where
  visible : ∀ id s, b.slot? id = some s → s.queue = q.name → s.visibleAt ≤ time
  /-- A message was claimed within the limit, unless it is about to be parked. -/
  counted : ∀ id s, b.slot? id = some s → s.queue = q.name →
    s.attempt ≤ q.maxAttempts ∨ condemned? = some id
  others : ∀ id s, b₀.slot? id = some s → s.queue ≠ q.name → b.slot? id = some s
  fresh : ∀ id, b₀.slot? id = none → b.slot? id = none
  own : ∀ id s, b₀.slot? id = some s → s.queue = q.name → Stage q b acked s
  ackedOnce : acked.Nodup
  ackedOwn : ∀ id ∈ acked, ∃ s, b₀.slot? id = some s ∧ s.queue = q.name

/-- A message whose slot is left alone stays where it is. -/
theorem Stage.keep {b' : Broker} {acked acked' : List MessageId} (h : Stage q b acked s)
    (same : b'.slot? s.id = b.slot? s.id) (still : s.id ∈ acked' ↔ s.id ∈ acked) :
    Stage q b' acked' s := by
  cases h with
  | waiting s' found on alike pending =>
    exact .waiting s' (same.trans found) on alike (mt still.1 pending)
  | parked time found pending => exact .parked time (same.trans found) (mt still.1 pending)
  | acked gone done => exact .acked (same.trans gone) (still.2 done)

namespace Tended

variable {time time' : Nat} {acked : List MessageId} {condemned? condemned?' : Option MessageId}

/-- Nothing happens but that time goes on. -/
theorem wait (h : Tended q time b₀ b acked condemned?) (later : time ≤ time') :
    Tended q time' b₀ b acked condemned? :=
  { h with visible := fun id s found on => (h.visible id s found on).trans later }

/-- A message that stands on the queue stood there in the beginning, and is not acknowledged. -/
theorem origin (h : Tended q time b₀ b acked condemned?) (found : b.slot? id = some s)
    (on : s.queue = q.name) :
    ∃ s₀, b₀.slot? id = some s₀ ∧ s₀.queue = q.name ∧ id ∉ acked ∧
      ∀ dead time, s.moved dead time = s₀.moved dead time := by
  cases begun : b₀.slot? id with
  | none =>
    rw [h.fresh id begun] at found
    cases found
  | some s₀ =>
    by_cases own : s₀.queue = q.name
    · obtain rfl := Broker.id_of_slot? begun
      cases h.own _ s₀ begun own with
      | waiting s' found' _ same pending =>
        rw [found] at found'
        cases found'
        exact ⟨s₀, rfl, own, pending, same⟩
      | parked time found' pending =>
        rw [found] at found'
        cases found'
        exact absurd on.symm q.name_ne_deadName
      | acked gone done =>
        rw [found] at gone
        cases gone
    · have kept := h.others id s₀ begun own
      rw [found] at kept
      cases kept
      exact absurd on own

/-- A change of one slot on the queue, after which its message stands where it may. -/
theorem change (h : Tended q time b₀ b acked condemned?)
    (only : ∀ other, condemned? = some other → other = id) (found : b.slot? id = some s)
    (on : s.queue = q.name) {b' : Broker} {s'? : Option Slot} {acked' : List MessageId}
    (slots : ∀ other, b'.slot? other = if other = id then s'? else b.slot? other)
    (still : ∀ other, other ≠ id → (other ∈ acked' ↔ other ∈ acked))
    (visible : ∀ s', s'? = some s' → s'.queue = q.name → s'.visibleAt ≤ time)
    (counted : ∀ s', s'? = some s' → s'.queue = q.name →
      s'.attempt ≤ q.maxAttempts ∨ condemned?' = some id)
    (own : ∀ s₀, b₀.slot? id = some s₀ → s₀.queue = q.name → Stage q b' acked' s₀)
    (once : acked'.Nodup) : Tended q time b₀ b' acked' condemned?' := by
  obtain ⟨s₀, begun, queued, -, -⟩ := h.origin found on
  refine ⟨fun other t there at' => ?_, fun other t there at' => ?_, fun other t there off => ?_,
    fun other none => ?_, fun other t there at' => ?_, once, fun other member => ?_⟩
  · rw [slots] at there
    split at there
    · exact visible t there at'
    · exact h.visible other t there at'
  · rw [slots] at there
    split at there
    · next same => exact same ▸ counted t there at'
    · next apart =>
      rcases h.counted other t there at' with allowed | condemned
      · exact .inl allowed
      · exact absurd (only other condemned) apart
  · have apart : other ≠ id := by
      rintro rfl
      rw [begun] at there
      cases there
      exact off queued
    rw [slots, if_neg apart]
    exact h.others other t there off
  · have apart : other ≠ id := by
      rintro rfl
      rw [begun] at none
      cases none
    rw [slots, if_neg apart]
    exact h.fresh other none
  · by_cases same : other = id
    · exact own t (same ▸ there) at'
    · obtain rfl := Broker.id_of_slot? there
      exact (h.own _ t there at').keep (by rw [slots, if_neg same]) (still _ same)
  · by_cases same : other = id
    · exact ⟨s₀, same ▸ begun, queued⟩
    · exact h.ackedOwn other ((still other same).1 member)

/-- A message is claimed, and is parked next if that was a claim too many. -/
theorem claim (h : Tended q time b₀ b acked none) (found : b.slot? id = some s)
    (on : s.queue = q.name) (at' : time' ≤ time)
    (ends : s.attempt + 1 ≤ q.maxAttempts ∨ condemned?' = some id) :
    Tended q time b₀ (b.change id (Slot.claimed time') fun _ => rfl) acked condemned?' := by
  obtain ⟨s₀, begun, -, pending, same⟩ := h.origin found on
  have slots := Broker.slot?_change_of_found found (Slot.claimed time') fun _ => rfl
  refine h.change (fun _ none => by cases none) found on slots (fun _ _ => Iff.rfl)
    (fun s' is _ => ?_) (fun s' is _ => ?_) (fun s₁ begun₁ _ => ?_) h.ackedOnce
  · cases is
    exact at'
  · cases is
    exact ends
  · rw [begun] at begun₁
    cases begun₁
    obtain rfl := Broker.id_of_slot? begun
    exact .waiting (s.claimed time') ((slots _).trans (if_pos rfl)) on same pending

/-- A message is parked. -/
theorem park (h : Tended q time b₀ b acked condemned?)
    (only : ∀ other, condemned? = some other → other = id) (found : b.slot? id = some s)
    (on : s.queue = q.name) (time' : Nat) :
    Tended q time b₀ (b.change id (Slot.moved q.deadName time') fun _ => rfl) acked none := by
  obtain ⟨s₀, begun, -, pending, same⟩ := h.origin found on
  have slots := Broker.slot?_change_of_found found (Slot.moved q.deadName time') fun _ => rfl
  have away : ∀ s', some (s.moved q.deadName time') = some s' → s'.queue ≠ q.name := by
    intro s' is
    cases is
    exact Ne.symm q.name_ne_deadName
  refine h.change only found on slots (fun _ _ => Iff.rfl)
    (fun s' is at' => absurd at' (away s' is)) (fun s' is at' => absurd at' (away s' is))
    (fun s₁ begun₁ _ => ?_) h.ackedOnce
  rw [begun] at begun₁
  cases begun₁
  obtain rfl := Broker.id_of_slot? begun
  refine .parked time' ((slots _).trans ?_) pending
  rw [if_pos rfl, same]

/-- A message is acknowledged. -/
theorem ack (h : Tended q time b₀ b acked none) (found : b.slot? id = some s)
    (on : s.queue = q.name) : Tended q time b₀ (b.remove id) (acked ++ [id]) none := by
  obtain ⟨s₀, begun, queued, pending, -⟩ := h.origin found on
  have slots : ∀ other, (b.remove id).slot? other = if other = id then none else b.slot? other :=
    fun other => b.slot?_remove id other
  refine h.change (fun _ none => by cases none) found on slots (fun other apart => ?_)
    (fun s' is => by cases is) (fun s' is => by cases is) (fun s₁ begun₁ _ => ?_) ?_
  · rw [List.mem_append, List.mem_singleton, or_iff_left apart]
  · rw [begun] at begun₁
    cases begun₁
    obtain rfl := Broker.id_of_slot? begun
    exact .acked ((slots _).trans (if_pos rfl))
      (List.mem_append_right _ (List.mem_singleton_self _))
  · refine List.nodup_append.2 ⟨h.ackedOnce, List.nodup_singleton _, ?_⟩
    rintro other member _ single rfl
    exact pending (List.mem_singleton.1 single ▸ member)

end Tended

/-! ## Every step brings the drain nearer to its end -/

/-- How often the message of a slot may still be delivered. -/
def left (q : EventQueue) (s : Slot) : Nat := q.maxAttempts.toNat - s.attempt.toNat

/-- How often the message of a slot may still be claimed, its parking included. -/
def claimsLeft (q : EventQueue) (s : Slot) : Nat := q.maxAttempts.toNat + 1 - s.attempt.toNat + 1

/-- What a drain has before it. -/
def cost (q : EventQueue) (x : Drain) : Nat :=
  6 * x.broker.total q.name (claimsLeft q) + x.worker.rank

theorem rank_le (w : Shift) : w.rank ≤ 5 := by
  unfold Shift.rank
  split <;> omega

/-- A call that leaves the queue alone and brings the worker on. -/
theorem cost_keep (busy : x.worker = .attempting a)
    (nearer : (Deed.called a p).next.rank < (Shift.attempting a).rank) :
    (x.after a p x.broker t).cost q < x.cost q := by
  show 6 * x.broker.total q.name (claimsLeft q) + (Deed.called a p).next.rank <
    6 * x.broker.total q.name (claimsLeft q) + x.worker.rank
  rw [busy]
  exact Nat.add_lt_add_left nearer _

/-- A call that leaves the messages fewer claims, wherever it leads the worker. -/
theorem cost_less
    (fewer : b.total q.name (claimsLeft q) + 1 ≤ x.broker.total q.name (claimsLeft q)) :
    (x.after a p b t).cost q < x.cost q := by
  have near := rank_le (Deed.called a p).next
  show 6 * b.total q.name (claimsLeft q) + (Deed.called a p).next.rank <
    6 * x.broker.total q.name (claimsLeft q) + x.worker.rank
  omega

/-- The worker drains, and what it holds is on the queue; or it has found the queue empty. -/
def IsAt (q : EventQueue) (b : Broker) : Shift → Prop
  | .asking => True
  | .attempting a => a.IsOn q ∧
      ∀ id, a.claimed? = some id → ∃ s, b.slot? id = some s ∧ s.queue = q.name
  | .resting => b.depth q.name = 0
  | .stopped => False

/-- What holds of a drain at all times. -/
structure Sound (q : EventQueue) (time : Nat) (b₀ : Broker) (t₀ : Memory) (x : Drain) : Prop
    extends Tended q time b₀ x.broker x.acked x.worker.condemned? where
  stands : IsAt q x.broker x.worker
  booked : x.produced.map Prod.fst = x.acked ++ x.worker.recorded?.toList
  rows : x.store.events = t₀.events ++ x.produced.map Prod.snd
  spent : x.delivered.length + x.broker.total q.name (left q) ≤ b₀.total q.name (left q)

/-- One more claim within the limit of 32 bits is one more attempt. -/
theorem toNat_attempt (limit : q.maxAttempts.toNat < 2 ^ 32 - 1)
    (allowed : s.attempt ≤ q.maxAttempts) : (s.attempt + 1).toNat = s.attempt.toNat + 1 := by
  have le := UInt32.le_iff_toNat_le.1 allowed
  rw [UInt32.toNat_add]
  show (s.attempt.toNat + 1) % 2 ^ 32 = _
  omega

/-- A claim uses up one of the attempts that its message has left. -/
theorem total_claimed (limit : q.maxAttempts.toNat < 2 ^ 32 - 1) (found : b.slot? id = some s)
    (on : s.queue = q.name) (allowed : s.attempt ≤ q.maxAttempts) (time : Nat) :
    (b.change id (Slot.claimed time) fun _ => rfl).total q.name (claimsLeft q) + 1 =
      b.total q.name (claimsLeft q) ∧
    (b.change id (Slot.claimed time) fun _ => rfl).total q.name (left q) +
      (if s.attempt + 1 ≤ q.maxAttempts then 1 else 0) = b.total q.name (left q) := by
  have sum := Broker.total_change q.name found (Slot.claimed time) fun _ => rfl
  have claims := sum (claimsLeft q)
  have lefts := sum (left q)
  have more : (s.claimed time).attempt.toNat = s.attempt.toNat + 1 := toNat_attempt limit allowed
  have still : (s.claimed time).queue = q.name := on
  have le := UInt32.le_iff_toNat_le.1 allowed
  rw [if_pos on, if_pos still] at claims lefts
  simp only [claimsLeft, left, more] at claims lefts ⊢
  constructor
  · omega
  · split
    · next again =>
      rw [UInt32.le_iff_toNat_le, toNat_attempt limit allowed] at again
      omega
    · next spent =>
      rw [UInt32.le_iff_toNat_le, toNat_attempt limit allowed] at spent
      omega

/-- Taking a message off the queue lowers what is left. -/
theorem total_gone {b' : Broker} (sums : ∀ f, b'.total q.name f + f s = b.total q.name f) :
    b'.total q.name (claimsLeft q) + 1 ≤ b.total q.name (claimsLeft q) ∧
      b'.total q.name (left q) ≤ b.total q.name (left q) := by
  have claims := sums (claimsLeft q)
  have lefts := sums (left q)
  simp only [claimsLeft] at claims ⊢
  omega

namespace Sound

variable {time : Nat}

/-- A call that records nothing keeps the drain sound if it keeps the queue tended, and uses up as
    many attempts as it delivers. -/
theorem move (h : Sound q time b₀ t₀ x) (busy : x.worker = .attempting a)
    (events : t.events = x.store.events) (still : World.producedBy p = [])
    (records : World.ackedBy p a ++ (Deed.called a p).next.recorded?.toList = a.recorded?.toList)
    (tended : Tended q time b₀ b (x.acked ++ World.ackedBy p a) (Deed.called a p).next.condemned?)
    (stands : IsAt q b (Deed.called a p).next)
    (fewer : (Deed.called a p).delivered?.toList.length + b.total q.name (left q) ≤
      x.broker.total q.name (left q)) : Sound q time b₀ t₀ (x.after a p b t) := by
  have booked := h.booked
  rw [busy] at booked
  refine ⟨?_, stands, ?_, ?_, ?_⟩
  · rw [acked_after]
    exact tended
  · rw [produced_after, acked_after, still, List.append_nil, List.append_assoc]
    show _ = _ ++ (_ ++ (Deed.called a p).next.recorded?.toList)
    rw [records]
    exact booked
  · rw [produced_after, still, List.append_nil]
    exact events.trans h.rows
  · have spent := h.spent
    rw [delivered_after, List.length_append]
    show _ + b.total q.name (left q) ≤ _
    omega

/-- A call that leaves the queue alone and records nothing. -/
theorem keep (h : Sound q time b₀ t₀ x) (busy : x.worker = .attempting a)
    (events : t.events = x.store.events) (still : World.producedBy p = [])
    (before : a.recorded? = none) (quiet : World.ackedBy p a = [])
    (records : (Deed.called a p).next.recorded? = none) (free : a.condemned? = none)
    (condemned : (Deed.called a p).next.condemned? = none)
    (nothing : (Deed.called a p).delivered? = none)
    (stands : IsAt q x.broker (Deed.called a p).next) :
    Sound q time b₀ t₀ (x.after a p x.broker t) := by
  have tended := h.toTended
  rw [busy] at tended
  refine h.move busy events still ?_ ?_ stands ?_
  · rw [quiet, records, before]
    rfl
  · rw [quiet, List.append_nil, condemned, ← free]
    exact tended
  · rw [nothing]
    exact Nat.le_of_eq (Nat.zero_add _)

/-- A message is recorded. -/
theorem record {d : Delivery} {f : Found} {o : Outcome} (h : Sound q time b₀ t₀ x)
    (busy : x.worker = .attempting (.recording d f))
    (events : t.events = x.store.events ++ [o.event]) :
    Sound q time b₀ t₀ (x.after (.recording d f) (.more (.acking d o)) x.broker t) := by
  obtain ⟨tended, stands, booked, rows, spent⟩ := h
  rw [busy] at tended stands booked
  have adds : World.producedBy (.more (.acking d o)) = [(d.id, o.event)] := rfl
  have booked : x.produced.map Prod.fst = x.acked := booked.trans (List.append_nil _)
  refine ⟨?_, stands, ?_, ?_, ?_⟩
  · rw [acked_after]
    exact (List.append_nil x.acked).symm ▸ tended
  · rw [produced_after, acked_after, adds, List.map_append, booked]
    exact congrArg (· ++ [d.id]) (List.append_nil x.acked).symm
  · rw [produced_after, adds, List.map_append, ← List.append_assoc, ← rows]
    exact events
  · rw [delivered_after]
    exact (List.append_nil x.delivered).symm ▸ spent

/-- Nothing waits on the queue if nothing is available, since nothing is hidden. -/
theorem depth_of_idle (h : Sound q time b₀ t₀ x) (late : time ≤ now.steady)
    (nothing : ∀ id s, x.broker.slot? id = some s → ¬ s.isAvailable q.name now.steady) :
    x.broker.depth q.name = 0 := by
  refine Broker.depth_eq_zero fun id s found on => nothing id s found ?_
  exact Slot.isAvailable_iff.2 ⟨on, (h.visible id s found on).trans late⟩

/-- A call of the attempt keeps the drain sound and costs something.  Of the attempts that a claim
    uses up, only one within the limit is a delivery. -/
theorem call (h : Sound q now.steady b₀ t₀ x) (limit : q.maxAttempts.toNat < 2 ^ 32 - 1)
    (unhidden : q.timeoutSecs = 0) (busy : x.worker = .attempting a) {t : Unreliable Memory}
    (led : (a.step q hooks now x.broker (faulty fault? x.store)).1 = p)
    (made : Attempt.Call q now x.broker (faulty fault? x.store) a p b t) :
    Sound q now.steady b₀ t₀ (x.after a p b t.inner) ∧
      (x.after a p b t.inner).cost q < x.cost q := by
  obtain ⟨onq, holds⟩ : a.IsOn q ∧
      ∀ id, a.claimed? = some id → ∃ s, x.broker.slot? id = some s ∧ s.queue = q.name := by
    have stands := h.stands
    rw [busy] at stands
    exact stands
  have tended := h.toTended
  rw [busy] at tended
  have brief := q.timeout_eq_zero unhidden
  have instant : now.steady + q.timeout = now.steady := by rw [brief, Nat.add_zero]
  cases made with
  | idle nothing =>
    have empty := h.depth_of_idle (Nat.le_refl _) nothing
    exact ⟨h.keep busy rfl rfl rfl rfl rfl rfl rfl rfl empty,
      cost_keep busy (by show 0 < 1; decide)⟩
  | overflow beyond =>
    rw [brief] at beyond
    exact absurd now.reaches_zero beyond
  | skip id s found available m hm =>
    subst hm
    have on := (Slot.isAvailable_iff.1 available).1
    have allowed := (tended.counted _ s found on).resolve_right (by rintro ⟨⟩)
    obtain ⟨claims, lefts⟩ := total_claimed limit found on allowed (now.steady + q.timeout)
    have claimed : Tended q now.steady b₀ _ x.acked (some m.id) :=
      tended.claim found on (Nat.le_of_eq instant) (.inr rfl)
    refine ⟨h.move busy rfl rfl rfl ?_ ⟨trivial, ?_⟩ ?_, ?_⟩
    · exact (List.append_nil x.acked).symm ▸ claimed
    · rintro _ ⟨⟩
      exact ⟨_, (Broker.slot?_change_of_found found (Slot.claimed _) (fun _ => rfl) _).trans
        (if_pos rfl), on⟩
    · show 0 + _ ≤ _
      omega
    · exact cost_less (Nat.le_of_eq claims)
  | take id s found available d hd ond =>
    subst hd
    have on := (Slot.isAvailable_iff.1 available).1
    have allowed := (tended.counted _ s found on).resolve_right (by rintro ⟨⟩)
    have again := Attempt.allowed_of_delivers led found
    obtain ⟨claims, lefts⟩ := total_claimed limit found on allowed (now.steady + q.timeout)
    rw [if_pos again] at lefts
    have claimed : Tended q now.steady b₀ _ x.acked none :=
      tended.claim found on (Nat.le_of_eq instant) (.inl again)
    refine ⟨h.move busy rfl rfl rfl ?_ ⟨ond, ?_⟩ ?_, ?_⟩
    · exact (List.append_nil x.acked).symm ▸ claimed
    · rintro _ ⟨⟩
      exact ⟨_, (Broker.slot?_change_of_found found (Slot.claimed _) (fun _ => rfl) _).trans
        (if_pos rfl), on⟩
    · show 1 + _ ≤ _
      omega
    · exact cost_less (Nat.le_of_eq claims)
  | park m s found on =>
    have away : ¬ (s.moved q.deadName now.steady).queue = q.name := Ne.symm q.name_ne_deadName
    obtain ⟨claims, lefts⟩ := total_gone (q := q) (s := s) fun f => by
      have sum := Broker.total_change q.name found (Slot.moved q.deadName now.steady)
        (fun _ => rfl) f
      rw [if_pos on, if_neg away] at sum
      exact sum
    have parked := tended.park (fun other is => (Option.some.inj is).symm) found on now.steady
    refine ⟨h.move busy rfl rfl rfl ?_ ⟨trivial, ?_⟩ ?_, ?_⟩
    · exact (List.append_nil x.acked).symm ▸ parked
    · rintro _ ⟨⟩
    · show 0 + _ ≤ _
      omega
    · exact cost_less claims
  | misplaced m off e =>
    obtain ⟨s, found, on⟩ := holds m.id rfl
    exact absurd on (off s found)
  | ungrouped d e t same =>
    exact ⟨h.keep busy (by rw [same]; rfl) rfl rfl rfl rfl rfl rfl rfl trivial,
      cost_keep busy (by show 2 < 5; decide)⟩
  | group d f t g made =>
    have events : t.inner.events = x.store.events := by
      rw [made]
      rcases x.store.getOrCreateGroup_cases g with ⟨_, _, known⟩ | ⟨_, new⟩
      · exact congrArg (fun called => called.2.events) known
      · exact congrArg (fun called => called.2.events) new
    exact ⟨h.keep busy events rfl rfl rfl rfl rfl rfl rfl ⟨onq, holds⟩,
      cost_keep busy (by show 4 < 5; decide)⟩
  | unrecorded d f e t same =>
    exact ⟨h.keep busy (by rw [same]; rfl) rfl rfl rfl rfl rfl rfl rfl trivial,
      cost_keep busy (by show 2 < 4; decide)⟩
  | record d f o t e made rows =>
    exact ⟨h.record busy rows, cost_keep busy (by show 3 < 4; decide)⟩
  | ack d o s found on =>
    obtain ⟨claims, lefts⟩ := total_gone (q := q) (s := s) fun f => by
      have sum := Broker.total_remove q.name found f
      rw [if_pos (on.trans onq)] at sum
      exact sum
    have acked := tended.ack found (on.trans onq)
    refine ⟨h.move busy rfl rfl rfl acked trivial ?_, ?_⟩
    · show 0 + _ ≤ _
      omega
    · exact cost_less claims
  | unacked d o off e =>
    obtain ⟨s, found, on⟩ := holds d.id rfl
    exact absurd (on.trans (Eq.symm onq)) (off s found)

/-- Every step before the end keeps the drain sound and costs something. -/
theorem step (h : Sound q now.steady b₀ t₀ x) (hooks : List Hook) (fault? : Option StoreError)
    (limit : q.maxAttempts.toNat < 2 ^ 32 - 1) (unhidden : q.timeoutSecs = 0)
    (drains : x.worker ≠ .resting) :
    Sound q now.steady b₀ t₀ (x.step q hooks now fault?) ∧
      (x.step q hooks now fault?).cost q < x.cost q := by
  cases stands : x.worker with
  | asking =>
    obtain ⟨tended, -, booked, rows, spent⟩ := h
    rw [stands] at tended booked
    rw [step_asking stands]
    refine ⟨⟨?_, ⟨trivial, by rintro _ ⟨⟩⟩, ?_, ?_, ?_⟩, ?_⟩
    · rw [acked_begin]
      exact tended
    · rw [produced_begin, acked_begin]
      exact booked
    · rw [produced_begin]
      exact rows
    · rw [delivered_begin]
      exact spent
    · show 6 * x.broker.total q.name (claimsLeft q) + 1 <
        6 * x.broker.total q.name (claimsLeft q) + x.worker.rank
      rw [stands]
      exact Nat.lt_succ_self _
  | attempting a =>
    obtain ⟨p, b, t, led, made, stepped⟩ := step_attempting q hooks now fault? stands
    rw [stepped]
    exact h.call limit unhidden stands led made
  | resting => exact absurd stands drains
  | stopped =>
    have never := h.stands
    rw [stands] at never
    exact never.elim

end Sound

/-! ## The end of the drain -/

/-- What became of the message of a slot: it is acknowledged, and one row came of it; or it is
    parked, as it was published, and no row came of it. -/
inductive Settled (q : EventQueue) (x : Drain) (s : Slot) : Prop
  | acked (gone : x.broker.slot? s.id = none) (once : x.acked.count s.id = 1)
      (row : x.rowsOf s.id = 1)
  | parked (time : Nat) (found : x.broker.slot? s.id = some (s.moved q.deadName time))
      (pending : s.id ∉ x.acked) (none : x.rowsOf s.id = 0)

/-- A drain that has not come to its end is sound, and has paid for its steps. -/
theorem sound_run {clock : Nat → Reading} {faults : Nat → Option StoreError}
    (limit : q.maxAttempts.toNat < 2 ^ 32 - 1) (unhidden : q.timeoutSecs = 0)
    (steady : Monotone fun n => (clock n).steady) (begun : Sound q (clock 0).steady b₀ t₀ x)
    (n : Nat) (drains : ∀ k < n, (x.run q hooks clock faults k).worker ≠ .resting) :
    Sound q (clock n).steady b₀ t₀ (x.run q hooks clock faults n) ∧
      (x.run q hooks clock faults n).cost q + n ≤ x.cost q := by
  induction n with
  | zero => exact ⟨begun, Nat.le_refl _⟩
  | succ n ih =>
    obtain ⟨sound, paid⟩ := ih fun k lt => drains k (Nat.lt_succ_of_lt lt)
    obtain ⟨next, less⟩ := sound.step hooks (faults n) limit unhidden
      (drains n (Nat.lt_succ_self n))
    refine ⟨{ next with toTended := next.toTended.wait (steady (Nat.le_succ n)) }, ?_⟩
    show ((x.run q hooks clock faults n).step q hooks (clock n) (faults n)).cost q + (n + 1) ≤ _
    omega

/-- At the end of a drain every message of the queue is settled. -/
theorem Sound.settled {time : Nat} (h : Sound q time b₀ t₀ x) (rests : x.worker = .resting)
    (begun : b₀.slot? s.id = some s) (on : s.queue = q.name) : Settled q x s := by
  have empty := h.stands
  have booked := h.booked
  rw [rests] at empty booked
  have rows : x.rowsOf s.id = x.acked.count s.id :=
    congrArg (List.count s.id) (booked.trans (List.append_nil _))
  cases h.own _ s begun on with
  | waiting s' found on' _ _ =>
    have member := (Broker.slot?_eq_some_iff.1 found).1
    exact absurd (by simpa using on') (List.countP_eq_zero.1 empty s' member)
  | parked time found pending =>
    exact .parked time found pending (rows.trans (List.count_eq_zero.2 pending))
  | acked gone done =>
    have once := List.count_eq_one_of_mem h.ackedOnce done
    exact .acked gone once (rows.trans once)

/-- A drain ends, whatever its store does.  Each message is delivered at most as often as it has
    attempts left, and in the end the queue is empty: every message of it is acknowledged, and one
    row came of it, or is parked, and none did.  Other messages and older rows are left alone.  One
    more attempt than allowed has to fit into the 32 bits that attempts are counted in. -/
theorem drain_ends (q : EventQueue) (hooks : List Hook) (clock : Nat → Reading)
    (faults : Nat → Option StoreError) (b : Broker) (t : Memory) (unhidden : q.timeoutSecs = 0)
    (limit : q.maxAttempts.toNat < 2 ^ 32 - 1) (steady : Monotone fun n => (clock n).steady)
    (due : ∀ s ∈ b.slots, s.queue = q.name →
      s.attempt ≤ q.maxAttempts ∧ s.visibleAt ≤ (clock 0).steady) :
    ∃ n, n ≤ (start b t).cost q ∧
      (∀ k < n, ((start b t).run q hooks clock faults k).worker ≠ .resting) ∧
      let x := (start b t).run q hooks clock faults n
      x.worker = .resting ∧
      x.delivered.length ≤ b.total q.name (left q) ∧
      x.broker.depth q.name = 0 ∧
      (∀ s ∈ b.slots, s.queue = q.name → Settled q x s) ∧
      (∀ s ∈ b.slots, s.queue ≠ q.name → x.broker.slot? s.id = some s) ∧
      (∀ id, b.slot? id = none → x.broker.slot? id = none) ∧
      x.store.events = t.events ++ x.produced.map Prod.snd ∧
      x.produced.map Prod.fst = x.acked ∧
      ∀ id ∈ x.acked, ∃ s, b.slot? id = some s ∧ s.queue = q.name := by
  have begun : Sound q (clock 0).steady b t (start b t) := by
    refine ⟨⟨fun id s found on => ?_, fun id s found on => ?_, fun _ _ found _ => found,
      fun _ none => none, fun id s found on => ?_, List.nodup_nil, fun id member => ?_⟩,
      trivial, rfl, (List.append_nil _).symm, Nat.le_of_eq (Nat.zero_add _)⟩
    · exact (due s (Broker.slot?_eq_some_iff.1 found).1 on).2
    · exact .inl (due s (Broker.slot?_eq_some_iff.1 found).1 on).1
    · obtain rfl := Broker.id_of_slot? found
      exact .waiting s found on (fun _ _ => rfl) List.not_mem_nil
    · cases member
  have ends : ∃ n, ((start b t).run q hooks clock faults n).worker = .resting := by
    by_contra never
    push Not at never
    have paid := (sound_run limit unhidden steady begun ((start b t).cost q + 1)
      fun k _ => never k).2
    omega
  obtain ⟨n, rests, first⟩ : ∃ n, ((start b t).run q hooks clock faults n).worker = .resting ∧
      ∀ k < n, ((start b t).run q hooks clock faults k).worker ≠ .resting := by
    classical
    exact ⟨Nat.find ends, Nat.find_spec ends, fun k lt => Nat.find_min ends lt⟩
  obtain ⟨sound, paid⟩ := sound_run limit unhidden steady begun n first
  have empty := sound.stands
  have booked := sound.booked
  rw [rests] at empty booked
  refine ⟨n, by omega, first, rests, ?_, empty, fun s member on => ?_, fun s member off => ?_,
    sound.fresh, sound.rows, booked.trans (List.append_nil _), sound.ackedOwn⟩
  · have spent := sound.spent
    omega
  · exact sound.settled rests (Broker.slot?_eq_some_iff.2 ⟨member, rfl⟩) on
  · exact sound.others s.id s (Broker.slot?_eq_some_iff.2 ⟨member, rfl⟩) off

/-- Each message may be delivered twice, and claims hide nothing. -/
def twice : EventQueue := .ofSettings { maxAttempts := 2, visibilityTimeoutSecs := 0 }

/-- A report and something else wait, and another message is parked. -/
def mixed : Broker where
  lastId := 3
  slots :=
    [⟨⟨1⟩, twice.deadName, [], 0, .epoch, 0⟩,
      ⟨⟨2⟩, twice.name, twice.payload .plain, 1, .epoch, 0⟩,
      ⟨⟨3⟩, twice.name, [], 0, .epoch, 0⟩]
  ordered := by decide
  published := by decide

/-- All calls of the store fail.  One delivery is left of the report, and two would be of the other
    message. -/
theorem drain_ends_mixed :
    twice.timeoutSecs = 0 ∧ twice.maxAttempts.toNat < 2 ^ 32 - 1 ∧
    ∃ n, n ≤ 56 ∧
      let x := (start mixed .empty).run twice [] (fun _ => .atEpoch 0) (fun _ => some .database) n
      x.worker = .resting ∧ x.delivered.length ≤ 3 ∧ x.broker.depth twice.name = 0 ∧
      Settled twice x ⟨⟨2⟩, twice.name, twice.payload .plain, 1, .epoch, 0⟩ := by
  have limit : twice.maxAttempts.toNat < 2 ^ 32 - 1 := by decide
  obtain ⟨n, few, -, rests, delivered, empty, settled, -⟩ :=
    drain_ends twice [] (fun _ => .atEpoch 0) (fun _ => some .database) mixed .empty rfl limit
      (fun _ _ _ => Nat.le_refl _) (by decide)
  refine ⟨rfl, limit, n, few.trans ?_, rests, delivered.trans ?_, empty, settled _ ?_ rfl⟩
  · decide
  · decide
  · exact List.mem_cons_of_mem _ List.mem_cons_self

/-! ## The limit that is none -/

/-- The only message holds a report, and the worker takes it again and again. -/
structure Spinning (q : EventQueue) (time : Nat) (x : Drain) : Prop where
  alone : ∃ s, x.broker.slots = [s] ∧ s.queue = q.name ∧ s.visibleAt ≤ time ∧
    (EventQueue.decode? s.payload).isSome
  stands : x.worker = .asking ∨ x.worker = .attempting .start ∨
    ∃ d, x.worker = .attempting (.grouping d)

/-- A store that fails does not find a group. -/
theorem resolve_faulty (fails : fault?.isSome) (r : Report) (now : Calendar.Instant) (t : Memory) :
    ∃ e t', resolve r now (faulty fault? t) = (.error e, t') := by
  unfold resolve
  cases r.project with
  | none => exact ⟨_, _, rfl⟩
  | some project =>
    have once : (faulty fault? t).outages .group = 0 + 1 := if_pos fails
    simp only [Ledger.EventStore.getOrCreateGroup, Unreliable.calling, once]
    exact ⟨_, _, rfl⟩

namespace Spinning

/-- No attempt that the counter can count is beyond the greatest limit. -/
theorem judge (limitless : q.maxAttempts.toNat = 2 ^ 32 - 1) {m : Queue.Message}
    (holds : (EventQueue.decode? m.payload).isSome) : ∃ event, q.judge m = .deliver event := by
  rcases q.judge_cases m with ⟨-, -, exceeds | garbled⟩ | ⟨event, judged, -⟩
  · have least := m.attempt.toNat_lt
    rw [UInt32.lt_iff_toNat_lt, limitless] at exceeds
    exact absurd least (by omega)
  · rw [garbled] at holds
    cases holds
  · exact ⟨event, judged⟩

theorem step (h : Spinning q now.steady x) (hooks : List Hook)
    (limitless : q.maxAttempts.toNat = 2 ^ 32 - 1) (unhidden : q.timeoutSecs = 0)
    (fails : fault?.isSome) : Spinning q now.steady (x.step q hooks now fault?) := by
  obtain ⟨s, alone, on, visible, holds⟩ := h.alone
  rcases h.stands with stands | stands | ⟨d, stands⟩
  · rw [step_asking stands]
    exact ⟨h.alone, .inr (.inl rfl)⟩
  · have brief := q.timeout_eq_zero unhidden
    have reaches : now.Reaches q.timeout := brief ▸ now.reaches_zero
    have available : s.isAvailable q.name now.steady = true := Slot.isAvailable_iff.2 ⟨on, visible⟩
    have first : x.broker.slots.find? (Slot.isAvailable q.name now.steady) = some s := by
      rw [alone, List.find?_cons_of_pos available]
    obtain ⟨event, judged⟩ :=
      judge limitless (m := (s.claimed (now.steady + q.timeout)).message) holds
    simp only [Drain.step, stands, Attempt.start, Shift.step, Attempt.step, Pop.step,
      QueueBackend.receive, Broker.receive_of_first first reaches, judged]
    refine ⟨⟨s.claimed (now.steady + q.timeout), ?_, on, ?_, holds⟩, .inr (.inr ⟨_, rfl⟩)⟩
    · show x.broker.slots.map _ = _
      rw [alone, List.map_singleton, if_pos rfl]
    · show now.steady + q.timeout ≤ now.steady
      rw [brief, Nat.add_zero]
  · obtain ⟨e, t, made⟩ := resolve_faulty fails d.event now.wall x.store
    simp only [Drain.step, stands, Shift.step, Attempt.step, made]
    exact ⟨h.alone, .inl rfl⟩

theorem run {clock : Nat → Reading} {faults : Nat → Option StoreError}
    (limitless : q.maxAttempts.toNat = 2 ^ 32 - 1) (unhidden : q.timeoutSecs = 0)
    (steady : Monotone fun n => (clock n).steady) (fails : ∀ n, (faults n).isSome)
    (begun : Spinning q (clock 0).steady x) (n : Nat) :
    Spinning q (clock n).steady (x.run q hooks clock faults n) := by
  induction n with
  | zero => exact begun
  | succ n ih =>
    obtain ⟨⟨s, alone, on, visible, holds⟩, stands⟩ :=
      ih.step hooks limitless unhidden (fails n)
    exact ⟨⟨s, alone, on, visible.trans (steady (Nat.le_succ n)), holds⟩, stands⟩

theorem not_resting {time : Nat} (h : Spinning q time x) : x.worker ≠ .resting := by
  intro rests
  rcases h.stands with stands | stands | ⟨d, stands⟩ <;> rw [stands] at rests <;> cases rests

end Spinning

/-- The greatest limit that there is, and claims that hide nothing. -/
def limitless : QueueSettings := { maxAttempts := 4294967295, visibilityTimeoutSecs := 0 }

/-- A report waits. -/
def lone : Broker where
  lastId := 1
  slots :=
    [⟨⟨1⟩, limitless.name, (EventQueue.ofSettings limitless).payload .plain, 0, .epoch, 0⟩]
  ordered := by decide
  published := by decide

/-- A report that nobody has claimed waits on a queue whose settings are valid, and all calls of the
    store fail.  The worker never comes to the end of its drain. -/
theorem drain_spins :
    Settings.validate { queue := limitless } = .ok { queue := limitless } ∧
    (EventQueue.ofSettings limitless).timeoutSecs = 0 ∧
    (∀ s ∈ lone.slots, s.queue = limitless.name →
      s.attempt ≤ (EventQueue.ofSettings limitless).maxAttempts ∧ s.visibleAt ≤ 0) ∧
    ∀ n, ((start lone .empty).run (.ofSettings limitless) [] (fun _ => .atEpoch 0)
      (fun _ => some .database) n).worker ≠ .resting := by
  have holds : EventQueue.decode? ((EventQueue.ofSettings limitless).payload .plain) =
      some .plain := by
    have canonical : Report.plain.IsCanonical := by
      refine ⟨fun m member => ?_, fun p named => ?_, fun ms told => ?_⟩
      · cases member
      · cases named
        decide
      · cases told
    have reads : Report.plain.ReadsBack := by decide +kernel
    exact (EventQueue.decode?_encode canonical reads .stored 6).2 (by decide +kernel)
  have begun : Spinning (.ofSettings limitless) 0 (start lone .empty) :=
    ⟨⟨_, rfl, rfl, Nat.le_refl 0, by rw [holds]; rfl⟩, .inl rfl⟩
  refine ⟨rfl, rfl, by decide, fun n => ?_⟩
  exact (begun.run rfl rfl (fun _ _ _ => Nat.le_refl _) (fun _ => rfl) n).not_resting

end Drain

end Worker

end ErrorIntake
