import ErrorIntake.Proofs.Queue.History

/-!
# Who holds a message

A published message stands in one slot until it is acknowledged, so one queue holds it until then,
and the queues together hold what was published and not yet acknowledged.  All of it is read off
`Recorded`.
-/

namespace ErrorIntake.Queue

open Calendar (Reading)

namespace Broker

namespace Recorded

variable {b : Broker} {h : History} {queue : String} {id : MessageId}

/-- A queue holds the messages that were put on it last and are not acknowledged. -/
theorem holds_iff_home (r : Recorded b h) :
    b.Holds queue id ↔ id ∈ h.published ∧ id ∉ h.acked ∧ h.home? id = some queue := by
  rw [holds_iff]
  constructor
  · rintro ⟨s, found, rfl⟩
    obtain ⟨published, pending⟩ := r.of_slot? found
    exact ⟨published, pending, (r.follows id s found).home⟩
  · rintro ⟨published, pending, home⟩
    obtain ⟨s, found⟩ := (r.stands id).2 ⟨published, pending⟩
    refine ⟨s, found, ?_⟩
    have here : h.home? id = some s.queue := (r.follows id s found).home
    rw [here] at home
    exact Option.some.inj home

theorem exists_unique_holder (r : Recorded b h) (published : id ∈ h.published)
    (pending : id ∉ h.acked) : ∃! queue, b.Holds queue id := by
  obtain ⟨s, found⟩ := (r.stands id).2 ⟨published, pending⟩
  refine ⟨s.queue, holds_iff.2 ⟨s, found, rfl⟩, fun other held => ?_⟩
  obtain ⟨s', found', on⟩ := holds_iff.1 held
  rw [found] at found'
  cases found'
  exact on.symm

/-- What is claimed was published like that. -/
theorem received_published (r : Recorded b h) {now : Reading} {timeout : Nat} {m : Message}
    (made : (b.perform now (.receive queue timeout)).1 = .ok (.received (some m))) :
    ∃ e ∈ h, e.published? = some m.id ∧ e.payload? = some m.payload ∧
      e.now.wall = m.enqueuedAt := by
  have effect := b.perform_effect now (.receive queue timeout)
  generalize b.perform now (.receive queue timeout) = called at made effect
  obtain ⟨answer, b'⟩ := called
  cases made
  cases effect with
  | claim _ _ s found available least =>
    obtain ⟨e, member, published, payload, time⟩ := (r.follows s.id s found).origin
    exact ⟨e, (List.mem_filter.1 member).1, published, payload, time⟩

/-- The published messages are those that have slots and those that are acknowledged. -/
theorem published_perm (r : Recorded b h) :
    h.published.Perm (b.slots.map Slot.id ++ h.acked) := by
  have standing (id : MessageId) : id ∈ b.slots.map Slot.id ↔ ∃ s, b.slot? id = some s := by
    simp only [List.mem_map, slot?_eq_some_iff]
  have given : ∀ id ∈ h.acked, id ∈ h.published := by
    intro id member
    obtain ⟨e, inside, acks⟩ := List.mem_filterMap.1 member
    exact r.subjects e inside id (Entry.subject?_of_acked? acks)
  have published : h.published.Nodup := r.published ▸ nodup_idsUpTo _
  have apart : (b.slots.map Slot.id ++ h.acked).Nodup := by
    refine List.nodup_append.2 ⟨b.nodup_ids, r.ackedOnce, fun id slot id' done same => ?_⟩
    subst same
    obtain ⟨s, found⟩ := (standing id).1 slot
    exact (r.of_slot? found).2 done
  refine (List.perm_ext_iff_of_nodup published apart).2 fun id => ?_
  rw [List.mem_append, standing, r.stands]
  constructor
  · intro member
    by_cases done : id ∈ h.acked
    · exact .inr done
    · exact .inl ⟨member, done⟩
  · rintro (⟨member, _⟩ | done)
    · exact member
    · exact given id done

/-- The depth of a queue is how many messages it holds. -/
theorem depth_eq (r : Recorded b h) (queue : String) :
    b.depth queue = h.published.countP fun id => b.Holds queue id := by
  have slots : ∀ s ∈ b.slots, (s.queue == queue) = true ↔
      ((fun id => decide (b.Holds queue id)) ∘ Slot.id) s = true := by
    intro s member
    have found : b.slot? s.id = some s := slot?_eq_some_iff.2 ⟨member, rfl⟩
    simp only [Function.comp_apply, decide_eq_true_eq, holds_iff, found, beq_iff_eq]
    constructor
    · intro on
      exact ⟨s, rfl, on⟩
    · rintro ⟨s', same, on⟩
      cases same
      exact on
  have gone : h.acked.countP (fun id => b.Holds queue id) = 0 := by
    refine List.countP_eq_zero.2 fun id done held => ?_
    exact (r.holds_iff_home.1 (of_decide_eq_true held)).2.1 done
  rw [r.published_perm.countP_eq, List.countP_append, gone, List.countP_map, Nat.add_zero, depth]
  exact List.countP_congr slots

end Recorded

/-- Every slot is on one queue. -/
theorem finsum_depth (b : Broker) : ∑ᶠ queue, b.depth queue = b.slots.length := by
  have counts (queue : String) : b.depth queue = (b.slots.map Slot.queue).count queue := by
    rw [depth, List.count, List.countP_map]
    rfl
  have inside : Function.support b.depth ⊆ ((b.slots.map Slot.queue).toFinset : Set String) := by
    intro queue some
    rw [Function.mem_support, counts, ← Nat.pos_iff_ne_zero, List.count_pos_iff] at some
    exact List.mem_toFinset.2 some
  rw [finsum_eq_sum_of_support_subset _ inside, Finset.sum_congr rfl fun queue _ => counts queue,
    List.sum_toFinset_count_eq_length, List.length_map]

/-- What is done to a message is done if the named queue holds it, and else changes nothing. -/
theorem perform_target (b : Broker) (now : Reading) {c : Command} {queue : String} {id : MessageId}
    (names : c.target? = some (queue, id)) :
    (b.Holds queue id → (b.perform now c).1 = .ok .done) ∧
    (¬ b.Holds queue id → b.perform now c = (.error (.unknownMessage queue id), b)) := by
  have effect := b.perform_effect now c
  have held : ∀ s : Slot, b.slot? s.id = some s → b.Holds s.queue s.id := fun s found =>
    holds_iff.2 ⟨s, found, rfl⟩
  generalize b.perform now c = called at effect ⊢
  obtain ⟨answer, b'⟩ := called
  cases effect with
  | publish => cases names
  | idle => cases names
  | overflow => cases names
  | claim => cases names
  | ack s found =>
    cases names
    exact ⟨fun _ => rfl, fun off => absurd (held s found) off⟩
  | nack s found =>
    cases names
    exact ⟨fun _ => rfl, fun off => absurd (held s found) off⟩
  | deadLetter s found dead =>
    cases names
    exact ⟨fun _ => rfl, fun off => absurd (held s found) off⟩
  | refuse _ queue' id' names' off =>
    rw [names] at names'
    cases names'
    exact ⟨fun on => absurd on off, fun _ => rfl⟩

/-- A call counts the id that it gives away. -/
theorem Effect.lastId_eq {b b' : Broker} {now : Reading} {c : Command}
    {answer : Except QueueError Answer} (made : Effect b now c answer b') :
    b'.lastId = b.lastId + if c.isPublication then 1 else 0 := by
  cases made with
  | publish => rfl
  | refuse c queue id names off =>
    cases c with
    | publish => cases names
    | _ => rfl
  | _ => rfl

theorem lastId_after (b : Broker) (calls : List (Reading × Command)) :
    (b.after calls).lastId = b.lastId + calls.countP fun c => c.2.isPublication := by
  induction calls generalizing b with
  | nil => rfl
  | cons c rest ih =>
    have one := (b.perform_effect c.1 c.2).lastId_eq
    have more := ih (b.perform c.1 c.2).2
    rw [one] at more
    rw [List.countP_cons]
    exact more.trans (by omega)

/-- A broker neither loses, duplicates nor alters messages, whatever it is asked to do.  The
    messages get the ids 1, 2, 3 and so on.  Until it is acknowledged, a message is held by one
    queue, on which it was put last; after that by none.  It is received as it was published.
    What is done to it is refused, and changes nothing, unless the named queue holds it. -/
theorem messages_kept (calls : List (Reading × Command)) :
    let b := empty.after calls
    let h := empty.history calls
    h.published = idsUpTo (calls.countP fun c => c.2.isPublication) ∧
    (∀ id ∈ h.published, id ∉ h.acked → ∃! queue, b.Holds queue id) ∧
    (∀ queue id, b.Holds queue id →
      id ∈ h.published ∧ id ∉ h.acked ∧ h.home? id = some queue) ∧
    (∀ now queue timeout m,
      (b.perform now (.receive queue timeout)).1 = .ok (.received (some m)) →
      ∃ e ∈ h, e.published? = some m.id ∧ e.payload? = some m.payload ∧
        e.now.wall = m.enqueuedAt) ∧
    (∀ now c queue id, c.target? = some (queue, id) →
      (b.Holds queue id → (b.perform now c).1 = .ok .done) ∧
      (¬ b.Holds queue id → b.perform now c = (.error (.unknownMessage queue id), b))) ∧
    (∀ queue, QueueBackend.depth queue b =
      (.ok (h.published.countP fun id => b.Holds queue id), b)) ∧
    ∑ᶠ queue, b.depth queue + h.acked.length = h.published.length := by
  intro b h
  have r : Recorded b h := recorded_after calls
  have numbered : b.lastId = calls.countP fun c => c.2.isPublication :=
    (lastId_after empty calls).trans (Nat.zero_add _)
  refine ⟨numbered ▸ r.published, fun id => r.exists_unique_holder,
    fun queue id held => r.holds_iff_home.1 held,
    fun now queue timeout m => r.received_published,
    fun now c queue id => b.perform_target now, fun queue => ?_, ?_⟩
  · rw [← r.depth_eq]
    rfl
  · rw [finsum_depth, r.published_perm.length_eq, List.length_append, List.length_map]

/-- The first of two messages is claimed and moved, and the second is acknowledged. -/
def errand : List (Reading × Command) :=
  [(.atEpoch 0, .publish "work" [1]),
    (.atEpoch 1, .publish "work" [2]),
    (.atEpoch 2, .receive "work" 10),
    (.atEpoch 3, .deadLetter "work" ⟨1⟩ "dead"),
    (.atEpoch 4, .ack "work" ⟨2⟩)]

/-- The handle of the claim is stale: its message is elsewhere and is not acknowledged by it. -/
theorem messages_kept_errand :
    (∃! queue, (empty.after errand).Holds queue ⟨1⟩) ∧
    (empty.history errand).home? ⟨1⟩ = some "dead" ∧
    (empty.after errand).perform (.atEpoch 5) (.ack "work" ⟨1⟩) =
      (.error (.unknownMessage "work" ⟨1⟩), empty.after errand) := by
  obtain ⟨-, one, home, -, target, -⟩ := messages_kept errand
  have published : ⟨1⟩ ∈ (empty.history errand).published := by decide +kernel
  have pending : ⟨1⟩ ∉ (empty.history errand).acked := by decide +kernel
  have here : (empty.after errand).Holds "dead" ⟨1⟩ := by decide +kernel
  have off : ¬ (empty.after errand).Holds "work" ⟨1⟩ := by decide +kernel
  exact ⟨one ⟨1⟩ published pending, (home "dead" ⟨1⟩ here).2.2,
    (target (.atEpoch 5) (.ack "work" ⟨1⟩) "work" ⟨1⟩ rfl).2 off⟩

end Broker

end ErrorIntake.Queue
