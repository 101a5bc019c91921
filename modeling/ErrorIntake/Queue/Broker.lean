import ErrorIntake.Queue.Backend

/-!
# The broker in memory

All queues of a broker stand in one list of slots in the order of their ids, which is the order of
publication, so moving a message between queues changes one field of its slot.  A message is
visible once the steady hand of the clock has reached its slot's time.  A claim that the clock
cannot reach the end of is not made: it panics before it changes anything.

`slot?` is the view of a broker: what stands under an id.  The lemmas say what each operation does
to it.
-/

namespace ErrorIntake.Queue

open Calendar (Instant Reading)

/-- A message and where it stands. -/
structure Slot where
  id : MessageId
  queue : String
  payload : Bytes
  /-- How often it was claimed since it came to its queue. -/
  attempt : UInt32
  enqueuedAt : Instant
  /-- When it is visible, on the steady hand of the clock. -/
  visibleAt : Nat
  deriving DecidableEq, Repr

/-- Queues in memory. -/
structure Broker where
  /-- The id of the latest publication.  It counts without a limit: a counter of 64 bits would be
      exhausted by the publication of number `2 ^ 63`, so ids are exact up to there. -/
  lastId : Nat
  slots : List Slot
  ordered : slots.Pairwise fun a b => a.id.value < b.id.value
  published : ∀ s ∈ slots, 1 ≤ s.id.value ∧ s.id.value ≤ lastId

namespace Slot

/-- A consumer of the queue can claim the slot's message at this time. -/
def isAvailable (queue : String) (time : Nat) (s : Slot) : Bool :=
  s.queue == queue && s.visibleAt ≤ time

/-- The queue holds the message of this id in the slot. -/
def isHeld (queue : String) (id : MessageId) (s : Slot) : Bool := s.id == id && s.queue == queue

/-- The slot once its message is claimed. -/
def claimed (time : Nat) (s : Slot) : Slot :=
  { s with visibleAt := time, attempt := s.attempt + 1 }

/-- The slot once its message is given back. -/
def released (time : Nat) (s : Slot) : Slot := { s with visibleAt := time }

/-- The slot once its message is moved. -/
def moved (dead : String) (time : Nat) (s : Slot) : Slot :=
  { s with queue := dead, attempt := 0, visibleAt := time }

/-- The slot's message as a consumer sees it. -/
def message (s : Slot) : Message := ⟨s.id, s.payload, s.attempt, s.enqueuedAt⟩

end Slot

namespace Broker

/-- A broker without messages. -/
def empty : Broker := ⟨0, [], .nil, by simp⟩

instance : Inhabited Broker := ⟨empty⟩

@[ext] theorem ext {a b : Broker} (hid : a.lastId = b.lastId) (hslots : a.slots = b.slots) :
    a = b := by
  cases a; cases b; cases hid; cases hslots; rfl

/-- The slot under an id. -/
def slot? (b : Broker) (id : MessageId) : Option Slot := b.slots.find? fun s => s.id == id

/-- The slot under an id, if it is on this queue. -/
def held? (b : Broker) (queue : String) (id : MessageId) : Option Slot :=
  b.slots.find? fun s => s.isHeld queue id

/-- The broker with one slot changed, which keeps its id. -/
def change (b : Broker) (id : MessageId) (f : Slot → Slot) (keeps : ∀ s, (f s).id = s.id) :
    Broker where
  lastId := b.lastId
  slots := b.slots.map fun s => if s.id = id then f s else s
  ordered := by
    refine List.pairwise_map.2 (b.ordered.imp fun {x y} h => ?_)
    have hx : (if x.id = id then f x else x).id = x.id := by split <;> simp [keeps]
    have hy : (if y.id = id then f y else y).id = y.id := by split <;> simp [keeps]
    rw [hx, hy]; exact h
  published := by
    intro s hs
    obtain ⟨x, hx, rfl⟩ := List.mem_map.1 hs
    have h : (if x.id = id then f x else x).id = x.id := by split <;> simp [keeps]
    rw [h]; exact b.published x hx

/-- The broker without a slot. -/
def remove (b : Broker) (id : MessageId) : Broker where
  lastId := b.lastId
  slots := b.slots.filter fun s => s.id != id
  ordered := b.ordered.filter _
  published s hs := b.published s (List.mem_filter.1 hs).1

/-- The id of the next publication. -/
def nextId (b : Broker) : MessageId := ⟨(b.lastId + 1 : Nat)⟩

/-- Adds a message at the end of a queue. -/
def publish (b : Broker) (now : Reading) (queue : String) (payload : Bytes) :
    MessageId × Broker :=
  (b.nextId,
    { lastId := b.lastId + 1
      slots := b.slots ++ [⟨b.nextId, queue, payload, 0, now.wall, now.steady⟩]
      ordered := by
        refine List.pairwise_append.2 ⟨b.ordered, by simp, fun s hs t ht => ?_⟩
        obtain rfl := List.mem_singleton.1 ht
        have h := (b.published s hs).2
        show s.id.value < ((b.lastId + 1 : Nat) : Int)
        omega
      published := by
        intro s hs
        rcases List.mem_append.1 hs with hs | hs
        · have h := b.published s hs
          omega
        · obtain rfl := List.mem_singleton.1 hs
          show 1 ≤ ((b.lastId + 1 : Nat) : Int) ∧ ((b.lastId + 1 : Nat) : Int) ≤ _
          omega })

/-- Claims the oldest message that is available on a queue, and hides it for so long. -/
def receive (b : Broker) (now : Reading) (queue : String) (timeout : Nat) :
    Called Broker (Option Message) :=
  match b.slots.find? (Slot.isAvailable queue now.steady) with
  | none => (.ok none, b)
  | some s =>
    if now.Reaches timeout then
      let claim := Slot.claimed (now.steady + timeout)
      (.ok (some (claim s).message), b.change s.id claim fun _ => rfl)
    else (.error .overflow, b)

/-- Does something to a message if the queue holds it. -/
def ifHeld (b : Broker) (queue : String) (id : MessageId) (after : Broker) : Called Broker Unit :=
  match b.held? queue id with
  | some _ => (.ok (), after)
  | none => (.error (.unknownMessage queue id), b)

/-- Removes a message for good. -/
def ack (b : Broker) (queue : String) (id : MessageId) : Called Broker Unit :=
  b.ifHeld queue id (b.remove id)

/-- Makes a claimed message visible again at once. -/
def nack (b : Broker) (now : Reading) (queue : String) (id : MessageId) : Called Broker Unit :=
  b.ifHeld queue id (b.change id (Slot.released now.steady) fun _ => rfl)

/-- Moves a message to another queue, where it is visible at once and counts no attempts. -/
def deadLetter (b : Broker) (now : Reading) (queue : String) (id : MessageId) (dead : String) :
    Called Broker Unit :=
  b.ifHeld queue id (b.change id (Slot.moved dead now.steady) fun _ => rfl)

/-- How many messages a queue holds. -/
def depth (b : Broker) (queue : String) : Nat := b.slots.countP fun s => s.queue == queue

theorem depth_change_eq (b : Broker) (id : MessageId) (f : Slot → Slot)
    (keeps : ∀ s, (f s).id = s.id) (queue : String) (same : ∀ s, (f s).queue = s.queue) :
    (b.change id f keeps).depth queue = b.depth queue := by
  simp only [depth, change, List.countP_map]
  congr 1
  funext s
  simp only [Function.comp]
  split <;> simp [same]

theorem depth_receive (b : Broker) (now : Reading) (queue : String) (timeout : Nat)
    (other : String) : (b.receive now queue timeout).2.depth other = b.depth other := by
  simp only [receive]
  split
  · rfl
  · split
    · exact b.depth_change_eq _ (Slot.claimed _) (fun _ => rfl) _ fun _ => rfl
    · rfl

theorem depth_change_lt (b : Broker) {id : MessageId} (f : Slot → Slot)
    (keeps : ∀ s, (f s).id = s.id) {queue : String} {s : Slot} (held : b.held? queue id = some s)
    (away : ∀ s, (f s).queue ≠ queue) : (b.change id f keeps).depth queue < b.depth queue := by
  have hs := List.find?_some held
  have hmem := List.mem_of_find?_eq_some held
  simp only [Slot.isHeld, Bool.and_eq_true, beq_iff_eq] at hs
  obtain ⟨before, after, h⟩ := List.append_of_mem hmem
  have le : ∀ l : List Slot,
      (l.map fun s => if s.id = id then f s else s).countP (fun s => s.queue == queue) ≤
        l.countP fun s => s.queue == queue := by
    intro l
    rw [List.countP_map]
    refine List.countP_mono_left fun t _ ht => ?_
    simp only [Function.comp] at ht
    split at ht
    · simp [away] at ht
    · exact ht
  have lb := le before
  have la := le after
  have hf : ((f s).queue == queue) = false := by simpa using away s
  simp only [depth, change, h, List.map_append, List.map_cons, List.countP_append, hs.1, if_true,
    List.countP_cons, hs.2, beq_self_eq_true, hf]
  simp only [Bool.false_eq_true, if_false]
  omega

@[simp] theorem slot?_change (b : Broker) (id : MessageId) (f : Slot → Slot)
    (keeps : ∀ s, (f s).id = s.id) (other : MessageId) :
    (b.change id f keeps).slot? other =
      (b.slot? other).map fun s => if other = id then f s else s := by
  simp only [slot?, change, List.find?_map]
  have same : ((fun s : Slot => s.id == other) ∘ fun s => if s.id = id then f s else s) =
      fun s => s.id == other := by
    funext s
    simp only [Function.comp]
    split <;> simp [keeps]
  rw [same]
  cases h : b.slots.find? fun s => s.id == other with
  | none => rfl
  | some s =>
    have hs : s.id = other := by simpa using List.find?_some h
    simp [hs]

@[simp] theorem slot?_remove (b : Broker) (id other : MessageId) :
    (b.remove id).slot? other = if other = id then none else b.slot? other := by
  simp only [slot?, remove, List.find?_filter]
  split
  · next h => 
    subst h
    simp
  · next h =>
    congr 1
    funext s
    by_cases hs : s.id = other
    · simp [hs, h]
    · simp [hs]

theorem slot?_eq_none_of_lt (b : Broker) {id : MessageId} (h : (b.lastId : Int) < id.value) :
    b.slot? id = none := by
  refine List.find?_eq_none.2 fun s hs same => ?_
  have same : s.id = id := by simpa using same
  have le := (b.published s hs).2
  rw [same] at le
  omega

theorem slot?_nextId (b : Broker) : b.slot? b.nextId = none :=
  b.slot?_eq_none_of_lt (by simp only [nextId]; omega)

@[simp] theorem slot?_publish (b : Broker) (now : Reading) (queue : String) (payload : Bytes)
    (other : MessageId) :
    (b.publish now queue payload).2.slot? other =
      if other = b.nextId then some ⟨other, queue, payload, 0, now.wall, now.steady⟩
      else b.slot? other := by
  have fresh := b.slot?_nextId
  simp only [slot?, publish, List.find?_append] at fresh ⊢
  by_cases h : other = b.nextId
  · subst h
    simp [fresh]
  · cases b.slots.find? fun s => s.id == other with
    | some s => simp [h]
    | none => simp [h, Ne.symm h]

end Broker

instance : QueueBackend Broker where
  publish now queue payload b :=
    let (id, b) := b.publish now queue payload
    (.ok id, b)
  receive now queue timeout b := b.receive now queue timeout
  ack queue id b := b.ack queue id
  nack now queue id b := b.nack now queue id
  deadLetter now queue id dead b := b.deadLetter now queue id dead
  depth queue b := (.ok (b.depth queue), b)
  backlog queue b := b.depth queue
  backlog_receive now queue timeout b := Nat.le_of_eq (b.depth_receive now queue timeout queue)
  backlog_deadLetter now queue id dead b different accepted := by
    simp only [Broker.deadLetter, Broker.ifHeld] at accepted ⊢
    split at accepted
    · next s held =>
      exact b.depth_change_lt (Slot.moved dead now.steady) (fun _ => rfl) held fun _ => Ne.symm different
    · cases accepted

end ErrorIntake.Queue
