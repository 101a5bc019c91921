import ErrorIntake.Proofs.Queue.Slots
import Mathlib

/-!
# Histories of a broker

The calls that can change a broker are data here, so that a run is a list.  A history notes every
call with its time and its answer, and the story of a message is what a history tells about it.
`Effect` has one constructor for each ending of each call.  `Recorded` says that a slot is what the
story of its message tells, and that only published messages have slots, until they are
acknowledged; every call keeps it.
-/

namespace ErrorIntake.Queue

open Calendar (Reading)

/-- A call that can change a broker. -/
inductive Command
  | publish (queue : String) (payload : Bytes)
  | receive (queue : String) (timeout : Nat)
  | ack (queue : String) (id : MessageId)
  | nack (queue : String) (id : MessageId)
  | deadLetter (queue : String) (id : MessageId) (dead : String)
  deriving DecidableEq, Repr

/-- What a broker answers to a command. -/
inductive Answer
  | published (id : MessageId)
  /-- The message that was claimed, if one was available. -/
  | received (m : Option Message)
  | done
  deriving DecidableEq, Repr

namespace Command

/-- The command publishes a message. -/
def isPublication : Command → Bool
  | publish .. => true
  | _ => false

/-- The queue and the message that a command names, if it names a message. -/
def target? : Command → Option (String × MessageId)
  | publish .. => none
  | receive .. => none
  | ack queue id => some (queue, id)
  | nack queue id => some (queue, id)
  | deadLetter queue id _ => some (queue, id)

end Command

/-- A call that was made, and its answer. -/
structure Entry where
  now : Reading
  command : Command
  answer : Except QueueError Answer

namespace Entry

/-- The message that a call was about: the one that it published or claimed, or that it named and
    found. -/
def subject? : Entry → Option MessageId
  | ⟨_, .publish .., .ok (.published id)⟩ => some id
  | ⟨_, .receive .., .ok (.received (some m))⟩ => some m.id
  | ⟨_, .ack _ id, .ok _⟩ => some id
  | ⟨_, .nack _ id, .ok _⟩ => some id
  | ⟨_, .deadLetter _ id _, .ok _⟩ => some id
  | _ => none

/-- The message that a call published. -/
def published? : Entry → Option MessageId
  | ⟨_, .publish .., .ok (.published id)⟩ => some id
  | _ => none

/-- The payload that a call published. -/
def payload? : Entry → Option Bytes
  | ⟨_, .publish _ payload, .ok _⟩ => some payload
  | _ => none

/-- The message that a call claimed. -/
def claimed? : Entry → Option MessageId
  | ⟨_, .receive .., .ok (.received (some m))⟩ => some m.id
  | _ => none

/-- The message that a call removed for good. -/
def acked? : Entry → Option MessageId
  | ⟨_, .ack _ id, .ok _⟩ => some id
  | _ => none

/-- The message that a call gave back or moved. -/
def freed? : Entry → Option MessageId
  | ⟨_, .nack _ id, .ok _⟩ => some id
  | ⟨_, .deadLetter _ id _, .ok _⟩ => some id
  | _ => none

/-- The queue that a call put its message on, by publishing or by moving it. -/
def home? : Entry → Option String
  | ⟨_, .publish queue _, .ok _⟩ => some queue
  | ⟨_, .deadLetter _ _ dead, .ok _⟩ => some dead
  | _ => none

/-- When the message of a call is visible after it: at once, unless the call claimed it. -/
def release : Entry → Nat
  | ⟨now, .receive _ timeout, _⟩ => now.steady + timeout
  | ⟨now, _, _⟩ => now.steady

end Entry

/-- Calls that were made, the oldest first. -/
abbrev History := List Entry

namespace History

/-- The messages that were published, the oldest first. -/
def published (h : History) : List MessageId := h.filterMap Entry.published?

/-- The messages that were removed for good. -/
def acked (h : History) : List MessageId := h.filterMap Entry.acked?

/-- What was done to a message. -/
def story (h : History) (id : MessageId) : History := h.filter fun e => e.subject? = some id

/-- The queue that the message of a story was put on for the last time. -/
def lastHome? (story : History) : Option String := (story.filterMap Entry.home?).getLast?

/-- When the last call of a story made its message visible, or will. -/
def lastRelease? (story : History) : Option Nat := story.getLast?.map Entry.release

/-- How often the message of a story was claimed since it was put on a queue for the last time. -/
def lastClaims (story : History) : Nat :=
  (story.reverse.takeWhile fun e => e.home?.isNone).countP fun e => e.claimed?.isSome

/-- The queue that a message was put on for the last time. -/
def home? (h : History) (id : MessageId) : Option String := (h.story id).lastHome?

/-- When the last call about a message made it visible, or will. -/
def release? (h : History) (id : MessageId) : Option Nat := (h.story id).lastRelease?

/-- How often a message was claimed since it was put on a queue for the last time. -/
def claims (h : History) (id : MessageId) : Nat := (h.story id).lastClaims

end History

namespace Broker

/-- Makes the call of a command. -/
def perform (b : Broker) (now : Reading) : Command → Called Broker Answer
  | .publish queue payload =>
    let (id, b) := QueueBackend.publish now queue payload b
    (id.map .published, b)
  | .receive queue timeout =>
    let (m, b) := QueueBackend.receive now queue timeout b
    (m.map .received, b)
  | .ack queue id =>
    let (answer, b) := QueueBackend.ack queue id b
    (answer.map fun _ => .done, b)
  | .nack queue id =>
    let (answer, b) := QueueBackend.nack now queue id b
    (answer.map fun _ => .done, b)
  | .deadLetter queue id dead =>
    let (answer, b) := QueueBackend.deadLetter now queue id dead b
    (answer.map fun _ => .done, b)

/-- The broker after some calls. -/
def after (b : Broker) (calls : List (Reading × Command)) : Broker :=
  calls.foldl (fun b c => (b.perform c.1 c.2).2) b

/-- What is noted of some calls in turn. -/
def history (b : Broker) : List (Reading × Command) → History
  | [] => []
  | (now, c) :: rest => ⟨now, c, (b.perform now c).1⟩ :: (b.perform now c).2.history rest

/-- The queue holds the message. -/
def Holds (b : Broker) (queue : String) (id : MessageId) : Prop := (b.held? queue id).isSome

instance (b : Broker) (queue : String) (id : MessageId) : Decidable (b.Holds queue id) :=
  inferInstanceAs (Decidable (_ = true))

variable {b : Broker} {id : MessageId} {s : Slot} {h : History} {e : Entry} {now : Reading}

theorem holds_iff {queue : String} :
    b.Holds queue id ↔ ∃ s, b.slot? id = some s ∧ s.queue = queue := by
  rw [Holds, Option.isSome_iff_exists]
  exact exists_congr fun s => held?_eq_some_iff

theorem after_append (b : Broker) (first rest : List (Reading × Command)) :
    b.after (first ++ rest) = (b.after first).after rest := List.foldl_append

theorem history_append (b : Broker) (first rest : List (Reading × Command)) :
    b.history (first ++ rest) = b.history first ++ (b.after first).history rest := by
  induction first generalizing b with
  | nil => rfl
  | cons c first ih =>
    rw [List.cons_append, history, history, ih]
    rfl

/-! ## What a call can do -/

/-- One call, its answer, and the broker after it. -/
inductive Effect (b : Broker) (now : Reading) : Command → Except QueueError Answer → Broker → Prop
  | publish (queue : String) (payload : Bytes) :
      Effect b now (.publish queue payload) (.ok (.published b.nextId))
        (b.publish now queue payload).2
  | idle (queue : String) (timeout : Nat)
      (nothing : ∀ id s, b.slot? id = some s → ¬ s.isAvailable queue now.steady) :
      Effect b now (.receive queue timeout) (.ok (.received none)) b
  /-- A message is available, but the clock does not reach the end of the claim. -/
  | overflow (queue : String) (timeout : Nat) (s : Slot) (found : b.slot? s.id = some s)
      (available : s.isAvailable queue now.steady) (beyond : ¬ now.Reaches timeout) :
      Effect b now (.receive queue timeout) (.error .overflow) b
  /-- The available message of the least id is claimed. -/
  | claim (queue : String) (timeout : Nat) (s : Slot) (found : b.slot? s.id = some s)
      (available : s.isAvailable queue now.steady)
      (least : ∀ id' s', b.slot? id' = some s' → s'.isAvailable queue now.steady →
        s.id.value ≤ id'.value)
      (reaches : now.Reaches timeout) :
      Effect b now (.receive queue timeout)
        (.ok (.received (some (s.claimed (now.steady + timeout)).message)))
        (b.change s.id (Slot.claimed (now.steady + timeout)) fun _ => rfl)
  | ack (s : Slot) (found : b.slot? s.id = some s) :
      Effect b now (.ack s.queue s.id) (.ok .done) (b.remove s.id)
  | nack (s : Slot) (found : b.slot? s.id = some s) :
      Effect b now (.nack s.queue s.id) (.ok .done)
        (b.change s.id (Slot.released now.steady) fun _ => rfl)
  | deadLetter (s : Slot) (found : b.slot? s.id = some s) (dead : String) :
      Effect b now (.deadLetter s.queue s.id dead) (.ok .done)
        (b.change s.id (Slot.moved dead now.steady) fun _ => rfl)
  /-- The queue does not hold the message that the command names. -/
  | refuse (c : Command) (queue : String) (id : MessageId) (names : c.target? = some (queue, id))
      (off : ¬ b.Holds queue id) : Effect b now c (.error (.unknownMessage queue id)) b

/-- What is done to a message is done if the queue holds it, and refused otherwise. -/
theorem ifHeld_holds (b : Broker) (queue : String) (id : MessageId) (after : Broker) :
    (∃ s, b.slot? id = some s ∧ s.id = id ∧ s.queue = queue ∧
      b.ifHeld queue id after = (.ok (), after)) ∨
    (¬ b.Holds queue id ∧
      b.ifHeld queue id after = (.error (.unknownMessage queue id), b)) := by
  rcases b.ifHeld_cases queue id after with ⟨s, found, on, made⟩ | ⟨off, made⟩
  · exact .inl ⟨s, found, id_of_slot? found, on, made⟩
  · refine .inr ⟨fun held => ?_, made⟩
    obtain ⟨s, found, on⟩ := holds_iff.1 held
    exact off s found on

/-- A call does one of these things. -/
theorem perform_effect (b : Broker) (now : Reading) (c : Command) :
    Effect b now c (b.perform now c).1 (b.perform now c).2 := by
  cases c with
  | publish queue payload => exact .publish queue payload
  | receive queue timeout =>
    simp only [perform, QueueBackend.receive]
    rcases b.receive_cases now queue timeout with
      ⟨nothing, made⟩ | ⟨id, s, found, available, beyond, made⟩ |
      ⟨id, s, found, available, reaches, least, made⟩
    · rw [made]
      exact .idle queue timeout nothing
    · obtain rfl := id_of_slot? found
      rw [made]
      exact .overflow queue timeout s found available beyond
    · obtain rfl := id_of_slot? found
      rw [made]
      exact .claim queue timeout s found available least reaches
  | ack queue id =>
    simp only [perform, QueueBackend.ack, Broker.ack]
    rcases b.ifHeld_holds queue id (b.remove id) with ⟨s, found, rfl, rfl, made⟩ | ⟨off, made⟩
    · rw [made]
      exact .ack s found
    · rw [made]
      exact .refuse _ queue id rfl off
  | nack queue id =>
    simp only [perform, QueueBackend.nack, Broker.nack]
    rcases b.ifHeld_holds queue id (b.change id (Slot.released now.steady) fun _ => rfl) with
      ⟨s, found, rfl, rfl, made⟩ | ⟨off, made⟩
    · rw [made]
      exact .nack s found
    · rw [made]
      exact .refuse _ queue id rfl off
  | deadLetter queue id dead =>
    simp only [perform, QueueBackend.deadLetter, Broker.deadLetter]
    rcases b.ifHeld_holds queue id (b.change id (Slot.moved dead now.steady) fun _ => rfl) with
      ⟨s, found, rfl, rfl, made⟩ | ⟨off, made⟩
    · rw [made]
      exact .deadLetter s found dead
    · rw [made]
      exact .refuse _ queue id rfl off

/-- The payloads of the messages that a broker holds. -/
def payloads (b : Broker) : List Bytes := b.slots.map Slot.payload

theorem payloads_publish (b : Broker) (now : Reading) (queue : String) (payload : Bytes) :
    (b.publish now queue payload).2.payloads = b.payloads ++ [payload] := by
  simp [payloads, publish]

theorem payloads_change_subset (b : Broker) (id : MessageId) (f : Slot → Slot)
    (keeps : ∀ s, (f s).id = s.id) (same : ∀ s, (f s).payload = s.payload) :
    (b.change id f keeps).payloads ⊆ b.payloads := by
  intro payload member
  obtain ⟨s', inside, rfl⟩ := List.mem_map.1 member
  obtain ⟨s, stood, rfl⟩ := List.mem_map.1 inside
  refine List.mem_map.2 ⟨s, stood, ?_⟩
  split
  · exact (same s).symm
  · rfl

theorem payloads_remove_subset (b : Broker) (id : MessageId) :
    (b.remove id).payloads ⊆ b.payloads := by
  intro payload member
  obtain ⟨s, inside, rfl⟩ := List.mem_map.1 member
  exact List.mem_map_of_mem (List.mem_filter.1 inside).1

/-- Only a publication brings a payload. -/
theorem Effect.payloads_subset {b' : Broker} {c : Command} {answer : Except QueueError Answer}
    (made : Effect b now c answer b') (quiet : c.isPublication = false) :
    b'.payloads ⊆ b.payloads := by
  cases made with
  | publish => cases quiet
  | idle => exact List.Subset.refl _
  | overflow => exact List.Subset.refl _
  | claim queue timeout s found available least =>
    exact b.payloads_change_subset s.id (Slot.claimed _) _ fun _ => rfl
  | ack s found => exact b.payloads_remove_subset s.id
  | nack s found => exact b.payloads_change_subset s.id (Slot.released _) _ fun _ => rfl
  | deadLetter s found dead =>
    exact b.payloads_change_subset s.id (Slot.moved dead _) _ fun _ => rfl
  | refuse => exact List.Subset.refl _

end Broker

/-! ## Stories that grow -/

namespace History

variable {h : History} {e : Entry} {id : MessageId}

theorem published_append (h : History) (e : Entry) :
    (h ++ [e] : History).published = h.published ++ e.published?.toList := by
  rw [published, List.filterMap_append]
  cases given : e.published? with
  | none => simp [published, given]
  | some id => simp [published, given]

theorem acked_append (h : History) (e : Entry) :
    (h ++ [e] : History).acked = h.acked ++ e.acked?.toList := by
  rw [acked, List.filterMap_append]
  cases removed : e.acked? with
  | none => simp [acked, removed]
  | some id => simp [acked, removed]

theorem published_append_of_none (h : History) (noId : e.published? = none) :
    (h ++ [e] : History).published = h.published := by
  rw [published_append, noId, Option.toList_none, List.append_nil]

theorem acked_append_of_none (h : History) (noAck : e.acked? = none) :
    (h ++ [e] : History).acked = h.acked := by
  rw [acked_append, noAck, Option.toList_none, List.append_nil]

theorem story_append (h : History) (about : e.subject? = some id) :
    (h ++ [e] : History).story id = h.story id ++ [e] := by
  simp [story, about]

theorem story_append_of_ne (h : History) (apart : e.subject? ≠ some id) :
    (h ++ [e] : History).story id = h.story id := by
  simp [story, apart]

theorem lastHome?_append (story : History) (e : Entry) :
    (story ++ [e] : History).lastHome? = e.home?.or story.lastHome? := by
  rw [lastHome?, List.filterMap_append, List.getLast?_append]
  cases home : e.home? with
  | none => simp [home, lastHome?]
  | some queue => simp [home]

@[simp] theorem lastRelease?_append (story : History) (e : Entry) :
    (story ++ [e] : History).lastRelease? = some e.release := by
  simp [lastRelease?]

theorem lastClaims_append_home (story : History) {queue : String} (home : e.home? = some queue) :
    (story ++ [e] : History).lastClaims = 0 := by
  simp [lastClaims, home]

theorem lastClaims_append (story : History) (away : e.home? = none) :
    (story ++ [e] : History).lastClaims =
      story.lastClaims + if e.claimed?.isSome then 1 else 0 := by
  simp [lastClaims, away, List.countP_cons]

end History

namespace Entry

variable {e : Entry} {id : MessageId}

/-- A call that published, removed or gave back a message was about that message. -/
theorem subject?_of_published? (h : e.published? = some id) : e.subject? = some id := by
  unfold published? at h
  split at h
  · exact h
  · cases h

theorem subject?_of_acked? (h : e.acked? = some id) : e.subject? = some id := by
  unfold acked? at h
  split at h
  · exact h
  · cases h

end Entry

/-- A slot is what the story of its message tells. -/
structure Slot.Follows (s : Slot) (story : History) : Prop where
  home : story.lastHome? = some s.queue
  release : story.lastRelease? = some s.visibleAt
  attempt : s.attempt = UInt32.ofNat story.lastClaims
  origin : ∃ e ∈ story, e.published? = some s.id ∧ e.payload? = some s.payload ∧
    e.now.wall = s.enqueuedAt

namespace Slot.Follows

variable {s : Slot} {story : History} {now : Reading}

/-- A published message has a slot that follows from its publication. -/
theorem publish (story : History) (now : Reading) (queue : String) (payload : Bytes)
    (id : MessageId) :
    (⟨id, queue, payload, 0, now.wall, now.steady⟩ : Slot).Follows
      (story ++ [⟨now, .publish queue payload, .ok (.published id)⟩]) := by
  have home : (⟨now, .publish queue payload, .ok (.published id)⟩ : Entry).home? = some queue := rfl
  refine ⟨?_, by simp [Entry.release], ?_, _, List.mem_append_right _ List.mem_cons_self, rfl, rfl,
    rfl⟩
  · rw [History.lastHome?_append, home]
    rfl
  · rw [History.lastClaims_append_home story home]
    rfl

theorem claim (h : s.Follows story) (queue : String) (timeout : Nat) :
    (s.claimed (now.steady + timeout)).Follows (story ++ [⟨now, .receive queue timeout,
      .ok (.received (some (s.claimed (now.steady + timeout)).message))⟩]) := by
  obtain ⟨e, member, published⟩ := h.origin
  refine ⟨?_, by simp [Entry.release, Slot.claimed], ?_, e, List.mem_append_left _ member,
    published⟩
  · rw [History.lastHome?_append]
    exact h.home
  · rw [History.lastClaims_append story (by rfl)]
    show s.attempt + 1 = UInt32.ofNat (story.lastClaims + 1)
    rw [h.attempt, UInt32.ofNat_add]
    rfl

theorem nack (h : s.Follows story) :
    (s.released now.steady).Follows (story ++ [⟨now, .nack s.queue s.id, .ok .done⟩]) := by
  obtain ⟨e, member, published⟩ := h.origin
  refine ⟨?_, by simp [Entry.release, Slot.released], ?_, e, List.mem_append_left _ member,
    published⟩
  · rw [History.lastHome?_append]
    exact h.home
  · rw [History.lastClaims_append story (by rfl)]
    exact h.attempt

theorem deadLetter (h : s.Follows story) (dead : String) :
    (s.moved dead now.steady).Follows
      (story ++ [⟨now, .deadLetter s.queue s.id dead, .ok .done⟩]) := by
  obtain ⟨e, member, published⟩ := h.origin
  have home : (⟨now, .deadLetter s.queue s.id dead, .ok .done⟩ : Entry).home? = some dead := rfl
  refine ⟨?_, by simp [Entry.release, Slot.moved], ?_, e, List.mem_append_left _ member, published⟩
  · rw [History.lastHome?_append, home]
    rfl
  · rw [History.lastClaims_append_home story home]
    rfl

end Slot.Follows

/-! ## What a history tells of a broker -/

namespace Broker

/-- The first ids, as many as were given away. -/
def idsUpTo (n : Nat) : List MessageId :=
  (List.range n).map fun (k : Nat) => ⟨(k : Int) + 1⟩

theorem mem_idsUpTo {n : Nat} {id : MessageId} :
    id ∈ idsUpTo n ↔ 1 ≤ id.value ∧ id.value ≤ n := by
  rw [idsUpTo, List.mem_map]
  constructor
  · rintro ⟨k, member, rfl⟩
    have lt := List.mem_range.1 member
    show (1 : Int) ≤ k + 1 ∧ (k : Int) + 1 ≤ n
    omega
  · rintro ⟨low, high⟩
    refine ⟨(id.value - 1).toNat, List.mem_range.2 (by omega), ?_⟩
    cases id with
    | mk value =>
      simp only [MessageId.mk.injEq]
      change (1 : Int) ≤ value at low
      omega

theorem nodup_idsUpTo (n : Nat) : (idsUpTo n).Nodup := by
  refine List.Nodup.map (fun a b same => ?_) List.nodup_range
  have values : (a : Int) + 1 = b + 1 := congrArg MessageId.value same
  omega

/-- The history is that of the broker. -/
structure Recorded (b : Broker) (h : History) : Prop where
  published : h.published = idsUpTo b.lastId
  subjects : ∀ e ∈ h, ∀ id, e.subject? = some id → id ∈ h.published
  stands : ∀ id, (∃ s, b.slot? id = some s) ↔ id ∈ h.published ∧ id ∉ h.acked
  ackedOnce : h.acked.Nodup
  follows : ∀ id s, b.slot? id = some s → s.Follows (h.story id)

namespace Recorded

variable {b : Broker} {h : History} {e : Entry} {id : MessageId} {s : Slot} {now : Reading}

theorem empty : Recorded Broker.empty [] where
  published := rfl
  subjects e member := by cases member
  stands id := by
    constructor
    · rintro ⟨s, found⟩
      cases found
    · rintro ⟨member, _⟩
      cases member
  ackedOnce := List.nodup_nil
  follows id s found := by cases found

/-- Calls are about published messages only. -/
theorem subjects_append (r : Recorded b h)
    (known : ∀ id, e.subject? = some id → id ∈ (h ++ [e] : History).published) :
    ∀ x ∈ h ++ [e], ∀ id, x.subject? = some id → id ∈ (h ++ [e] : History).published := by
  intro x member id subject
  rcases List.mem_append.1 member with old | new
  · rw [History.published_append]
    exact List.mem_append_left _ (r.subjects x old id subject)
  · obtain rfl := List.mem_singleton.1 new
    exact known id subject

/-- A message that has a slot was published and is not acknowledged. -/
theorem of_slot? (r : Recorded b h) (found : b.slot? id = some s) :
    id ∈ h.published ∧ id ∉ h.acked :=
  (r.stands id).1 ⟨s, found⟩

/-- A call that is about no message. -/
theorem quiet (r : Recorded b h) (about : e.subject? = none) : Recorded b (h ++ [e]) := by
  have noId : e.published? = none := by
    cases given : e.published? with
    | none => rfl
    | some id =>
      rw [Entry.subject?_of_published? given] at about
      cases about
  have noAck : e.acked? = none := by
    cases removed : e.acked? with
    | none => rfl
    | some id =>
      rw [Entry.subject?_of_acked? removed] at about
      cases about
  constructor
  case published => exact (h.published_append_of_none noId).trans r.published
  case subjects =>
    apply r.subjects_append
    intro id subject
    rw [about] at subject
    cases subject
  case stands =>
    intro id
    rw [h.published_append_of_none noId, h.acked_append_of_none noAck]
    exact r.stands id
  case ackedOnce =>
    rw [h.acked_append_of_none noAck]
    exact r.ackedOnce
  case follows =>
    intro id s found
    have apart : e.subject? ≠ some id := by simp [about]
    rw [h.story_append_of_ne apart]
    exact r.follows id s found

/-- A call that changes the slot of a message. -/
theorem change (r : Recorded b h) (found : b.slot? id = some s) (about : e.subject? = some id)
    (noId : e.published? = none) (noAck : e.acked? = none) (f : Slot → Slot)
    (keeps : ∀ s, (f s).id = s.id) (tells : (f s).Follows (h.story id ++ [e])) :
    Recorded (b.change id f keeps) (h ++ [e]) := by
  constructor
  case published => exact (h.published_append_of_none noId).trans r.published
  case subjects =>
    apply r.subjects_append
    intro other subject
    rw [about] at subject
    cases subject
    rw [h.published_append_of_none noId]
    exact (r.of_slot? found).1
  case stands =>
    intro other
    rw [h.published_append_of_none noId, h.acked_append_of_none noAck, ← r.stands other,
      slot?_change_of_found found]
    by_cases same : other = id
    · simp [same, found]
    · simp [same]
  case ackedOnce =>
    rw [h.acked_append_of_none noAck]
    exact r.ackedOnce
  case follows =>
    intro other s' found'
    rw [slot?_change_of_found found] at found'
    by_cases same : other = id
    · subst same
      rw [if_pos rfl] at found'
      cases found'
      rw [h.story_append about]
      exact tells
    · rw [if_neg same] at found'
      have apart : e.subject? ≠ some other := by simpa [about] using Ne.symm same
      rw [h.story_append_of_ne apart]
      exact r.follows other s' found'

/-- A call that removes the slot of a message. -/
theorem remove (r : Recorded b h) (found : b.slot? id = some s) (about : e.subject? = some id)
    (noId : e.published? = none) (acks : e.acked? = some id) :
    Recorded (b.remove id) (h ++ [e]) := by
  obtain ⟨stood, pending⟩ := r.of_slot? found
  have acked : (h ++ [e] : History).acked = h.acked ++ [id] := by
    rw [History.acked_append, acks]
    rfl
  constructor
  case published => exact (h.published_append_of_none noId).trans r.published
  case subjects =>
    apply r.subjects_append
    intro other subject
    rw [about] at subject
    cases subject
    rw [h.published_append_of_none noId]
    exact stood
  case stands =>
    intro other
    rw [h.published_append_of_none noId, acked, slot?_remove, List.mem_append, List.mem_singleton,
      not_or]
    by_cases same : other = id
    · simp [same]
    · rw [if_neg same, r.stands other]
      simp [same]
  case ackedOnce =>
    rw [acked]
    refine List.nodup_append.2 ⟨r.ackedOnce, List.nodup_singleton _, ?_⟩
    intro other member id' single same
    rw [same, List.mem_singleton.1 single] at member
    exact pending member
  case follows =>
    intro other s' found'
    rw [slot?_remove] at found'
    by_cases same : other = id
    · rw [if_pos same] at found'
      cases found'
    · rw [if_neg same] at found'
      have apart : e.subject? ≠ some other := by simpa [about] using Ne.symm same
      rw [h.story_append_of_ne apart]
      exact r.follows other s' found'

/-- A publication. -/
theorem publish (r : Recorded b h) (now : Reading) (queue : String) (payload : Bytes) :
    Recorded (b.publish now queue payload).2
      (h ++ [⟨now, .publish queue payload, .ok (.published b.nextId)⟩]) := by
  have fresh : b.nextId ∉ h.published := by
    rw [r.published, mem_idsUpTo]
    rintro ⟨_, high⟩
    change ((b.lastId + 1 : Nat) : Int) ≤ b.lastId at high
    omega
  have neverAcked : b.nextId ∉ h.acked := by
    intro member
    obtain ⟨e, inside, acks⟩ := List.mem_filterMap.1 member
    exact fresh (r.subjects e inside _ (Entry.subject?_of_acked? acks))
  have published : (h ++ [⟨now, .publish queue payload, .ok (.published b.nextId)⟩] :
      History).published = h.published ++ [b.nextId] := h.published_append _
  constructor
  case published =>
    rw [published, r.published, lastId_publish, idsUpTo, idsUpTo, List.range_succ, List.map_append]
    rfl
  case subjects =>
    apply r.subjects_append
    intro id subject
    cases subject
    rw [published]
    exact List.mem_append_right _ List.mem_cons_self
  case stands =>
    intro id
    rw [published, h.acked_append_of_none rfl, slot?_publish, List.mem_append, List.mem_singleton]
    by_cases new : id = b.nextId
    · simp [new, neverAcked]
    · rw [if_neg new, r.stands id]
      simp [new]
  case ackedOnce =>
    rw [h.acked_append_of_none rfl]
    exact r.ackedOnce
  case follows =>
    intro id s found
    rw [slot?_publish] at found
    by_cases new : id = b.nextId
    · subst new
      rw [if_pos rfl] at found
      cases found
      rw [h.story_append rfl]
      exact .publish _ now queue payload _
    · rw [if_neg new] at found
      have apart : (⟨now, .publish queue payload, .ok (.published b.nextId)⟩ : Entry).subject? ≠
          some id := fun same => new (Option.some.inj same).symm
      rw [h.story_append_of_ne apart]
      exact r.follows id s found

theorem effect (r : Recorded b h) {c : Command} {answer : Except QueueError Answer} {b' : Broker}
    (made : Effect b now c answer b') : Recorded b' (h ++ [⟨now, c, answer⟩]) := by
  cases made with
  | publish queue payload => exact r.publish now queue payload
  | idle queue timeout nothing => exact r.quiet rfl
  | overflow => exact r.quiet rfl
  | claim queue timeout s found available least =>
    exact r.change found rfl rfl rfl _ _ ((r.follows _ s found).claim queue timeout)
  | ack s found => exact r.remove found rfl rfl rfl
  | nack s found => exact r.change found rfl rfl rfl _ _ (r.follows _ s found).nack
  | deadLetter s found dead =>
    exact r.change found rfl rfl rfl _ _ ((r.follows _ s found).deadLetter dead)
  | refuse c queue id names off =>
    refine r.quiet ?_
    cases c <;> rfl

end Recorded

/-- The history of a run is that of the broker after it. -/
theorem recorded_after (calls : List (Reading × Command)) :
    Recorded (empty.after calls) (empty.history calls) := by
  induction calls using List.reverseRecOn with
  | nil => exact .empty
  | append_singleton calls c ih =>
    rw [after_append, history_append]
    exact ih.effect (perform_effect _ c.1 c.2)

end Broker

end ErrorIntake.Queue
