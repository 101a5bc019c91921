import ErrorIntake.Queue.Broker
import Mathlib.Data.List.Nodup

/-!
# Slots under their ids

A broker has each id once, so `slot?` tells all there is to know about a message.  Every call of the
broker is said here through that view: what it answers, and which slot stands under each id then.
-/

namespace ErrorIntake.Queue

open Calendar (Reading)

theorem Slot.isAvailable_iff {s : Slot} {queue : String} {time : Nat} :
    s.isAvailable queue time ↔ s.queue = queue ∧ s.visibleAt ≤ time := by
  simp [isAvailable]

namespace Broker

variable {b : Broker} {id : MessageId} {s : Slot}

theorem nodup_ids (b : Broker) : (b.slots.map Slot.id).Nodup := by
  refine List.pairwise_map.2 (b.ordered.imp fun {x y} lt same => ?_)
  rw [same] at lt
  omega

theorem slot?_eq_some_iff : b.slot? id = some s ↔ s ∈ b.slots ∧ s.id = id := by
  constructor
  · intro h
    exact ⟨List.mem_of_find?_eq_some h, by simpa using List.find?_some h⟩
  · rintro ⟨hs, rfl⟩
    cases found : b.slot? s.id with
    | none =>
      have apart : ¬ (s.id == s.id) = true := List.find?_eq_none.1 found s hs
      simp at apart
    | some other =>
      have hother : other.id = s.id := by simpa using List.find?_some found
      rw [List.inj_on_of_nodup_map b.nodup_ids (List.mem_of_find?_eq_some found) hs hother]

/-- An id stands once in the list of slots. -/
theorem eq_of_slot? (found : b.slot? id = some s) {t : Slot} (member : t ∈ b.slots)
    (same : t.id = id) : s = t :=
  Option.some.inj (found.symm.trans (slot?_eq_some_iff.2 ⟨member, same⟩))

theorem id_of_slot? (h : b.slot? id = some s) : s.id = id := (slot?_eq_some_iff.1 h).2

theorem slot?_eq_none_iff : b.slot? id = none ↔ ∀ s ∈ b.slots, s.id ≠ id := by
  simp [slot?, List.find?_eq_none]

/-- Only ids that were given away have slots. -/
theorem bounds_of_slot? (h : b.slot? id = some s) : 1 ≤ id.value ∧ id.value ≤ b.lastId := by
  obtain ⟨hs, rfl⟩ := slot?_eq_some_iff.1 h
  exact b.published s hs

/-- A queue holds an id if the slot under the id is on it. -/
theorem held?_eq_filter (b : Broker) (queue : String) (id : MessageId) :
    b.held? queue id = (b.slot? id).filter fun s => s.queue == queue := by
  cases found : b.slot? id with
  | none =>
    refine List.find?_eq_none.2 fun s hs held => ?_
    simp only [Slot.isHeld, Bool.and_eq_true, beq_iff_eq] at held
    exact slot?_eq_none_iff.1 found s hs held.1
  | some s =>
    obtain ⟨hs, rfl⟩ := slot?_eq_some_iff.1 found
    have same : ∀ x ∈ b.slots, x.isHeld queue s.id → x = s := by
      intro x hx held
      simp only [Slot.isHeld, Bool.and_eq_true, beq_iff_eq] at held
      exact List.inj_on_of_nodup_map b.nodup_ids hx hs held.1
    by_cases on : s.queue = queue
    · rw [Option.filter_some, if_pos (by simpa using on)]
      have held : s.isHeld queue s.id := by simp [Slot.isHeld, on]
      cases here : b.held? queue s.id with
      | none => exact absurd held (List.find?_eq_none.1 here s hs)
      | some x => rw [same x (List.mem_of_find?_eq_some here) (List.find?_some here)]
    · rw [Option.filter_some, if_neg (by simpa using on)]
      refine List.find?_eq_none.2 fun x hx held => on ?_
      have hxs := same x hx held
      simp only [Slot.isHeld, Bool.and_eq_true, beq_iff_eq] at held
      rw [← hxs, held.2]

theorem held?_eq_some_iff {queue : String} :
    b.held? queue id = some s ↔ b.slot? id = some s ∧ s.queue = queue := by
  simp [held?_eq_filter, Option.filter_eq_some_iff]

/-- What is done to a message is done if the queue holds it, and refused otherwise. -/
theorem ifHeld_cases (b : Broker) (queue : String) (id : MessageId) (after : Broker) :
    (∃ s, b.slot? id = some s ∧ s.queue = queue ∧ b.ifHeld queue id after = (.ok (), after)) ∨
    ((∀ s, b.slot? id = some s → s.queue ≠ queue) ∧
      b.ifHeld queue id after = (.error (.unknownMessage queue id), b)) := by
  unfold ifHeld
  cases here : b.held? queue id with
  | some s =>
    obtain ⟨found, on⟩ := held?_eq_some_iff.1 here
    exact .inl ⟨s, found, on, rfl⟩
  | none =>
    refine .inr ⟨fun s found on => ?_, rfl⟩
    rw [held?_eq_some_iff.2 ⟨found, on⟩] at here
    cases here

/-- A claim takes the first slot that is available if the clock reaches its end. -/
theorem receive_of_first {now : Reading} {queue : String} {timeout : Nat}
    (first : b.slots.find? (Slot.isAvailable queue now.steady) = some s)
    (reaches : now.Reaches timeout) :
    b.receive now queue timeout = (.ok (some (s.claimed (now.steady + timeout)).message),
      b.change s.id (Slot.claimed (now.steady + timeout)) fun _ => rfl) := by
  rw [receive, first]
  exact if_pos reaches

/-- A claim finds nothing available, or takes the slot of the least id that is available, or panics
    because the clock does not reach so far. -/
theorem receive_cases (b : Broker) (now : Reading) (queue : String) (timeout : Nat) :
    ((∀ id s, b.slot? id = some s → ¬ s.isAvailable queue now.steady) ∧
      b.receive now queue timeout = (.ok none, b)) ∨
    (∃ id s, b.slot? id = some s ∧ s.isAvailable queue now.steady ∧ ¬ now.Reaches timeout ∧
      b.receive now queue timeout = (.error .overflow, b)) ∨
    (∃ id s, b.slot? id = some s ∧ s.isAvailable queue now.steady ∧ now.Reaches timeout ∧
      (∀ id' s', b.slot? id' = some s' → s'.isAvailable queue now.steady → id.value ≤ id'.value) ∧
      b.receive now queue timeout =
        (.ok (some (s.claimed (now.steady + timeout)).message),
          b.change id (Slot.claimed (now.steady + timeout)) fun _ => rfl)) := by
  unfold receive
  cases found : b.slots.find? (Slot.isAvailable queue now.steady) with
  | none =>
    refine .inl ⟨fun id s hs => ?_, rfl⟩
    exact List.find?_eq_none.1 found s (slot?_eq_some_iff.1 hs).1
  | some s =>
    obtain ⟨available, before, after, split, earlier⟩ := List.find?_eq_some_iff_append.1 found
    have hs : s ∈ b.slots := List.mem_of_find?_eq_some found
    have stands : b.slot? s.id = some s := slot?_eq_some_iff.2 ⟨hs, rfl⟩
    by_cases reaches : now.Reaches timeout
    case neg => exact .inr (.inl ⟨s.id, s, stands, available, reaches, if_neg reaches⟩)
    refine .inr (.inr ⟨s.id, s, stands, available, reaches, fun id' s' found' other => ?_,
      if_pos reaches⟩)
    obtain ⟨hs', rfl⟩ := slot?_eq_some_iff.1 found'
    have order := b.ordered
    rw [split] at hs' order
    rcases List.mem_append.1 hs' with hs' | hs'
    · exact absurd other (by simpa using earlier s' hs')
    · rcases List.mem_cons.1 hs' with rfl | hs'
      · exact Int.le_refl _
      · have later := (List.pairwise_cons.1 (List.pairwise_append.1 order).2.1).1 s' hs'
        omega

@[simp] theorem lastId_change (f : Slot → Slot) (keeps : ∀ s, (f s).id = s.id) :
    (b.change id f keeps).lastId = b.lastId := rfl

@[simp] theorem lastId_remove : (b.remove id).lastId = b.lastId := rfl

@[simp] theorem lastId_publish (now : Reading) (queue : String) (payload : Bytes) :
    (b.publish now queue payload).2.lastId = b.lastId + 1 := rfl

/-- A changed slot is found under its id, and all others as before. -/
theorem slot?_change_of_found (found : b.slot? id = some s) (f : Slot → Slot)
    (keeps : ∀ s, (f s).id = s.id) (other : MessageId) :
    (b.change id f keeps).slot? other = if other = id then some (f s) else b.slot? other := by
  rw [slot?_change]
  by_cases same : other = id
  · subst same
    simp [found]
  · cases b.slot? other <;> simp [same]

/-- How many messages a queue holds is how many slots are on it. -/
theorem length_slots_eq_depths {queue dead : String} (apart : queue ≠ dead)
    (placed : ∀ s ∈ b.slots, s.queue = queue ∨ s.queue = dead) :
    b.slots.length = b.depth queue + b.depth dead := by
  unfold depth
  generalize b.slots = slots at placed
  induction slots with
  | nil => rfl
  | cons s rest ih =>
    have more := ih fun s hs => placed s (List.mem_cons_of_mem _ hs)
    rw [List.length_cons, more, List.countP_cons, List.countP_cons]
    rcases placed s List.mem_cons_self with on | on
    · have off : ¬ queue = dead := apart
      simp only [on, beq_self_eq_true, if_true, beq_iff_eq, off, if_false]
      omega
    · have off : ¬ dead = queue := Ne.symm apart
      simp only [on, beq_self_eq_true, if_true, beq_iff_eq, off, if_false]
      omega

end Broker

end ErrorIntake.Queue
