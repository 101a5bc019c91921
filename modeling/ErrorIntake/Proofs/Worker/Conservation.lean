import ErrorIntake.Proofs.Worker.World

/-!
# No event is lost, and none is counted twice

Three invariants hold of every reachable world.  `Filed`: a published message has a slot until it is
acknowledged.  `Guarded`: what a worker holds is on the queue, and no other worker holds it.
`Booked`: a message has a row from when it is recorded on.  Each says what a call may do to its own
part, so a call is proved by naming what it does to each of the three.
-/

namespace ErrorIntake.Worker

open Calendar (Reading)
open Ledger (Event Memory Unreliable)
open Queue (Broker Slot)

namespace World

variable {q : EventQueue} {hooks : List Hook} {w : World} {i : Nat} {a : Attempt}
  {p : Progress Attempt Attempted} {t : Unreliable Memory} {id : MessageId} {s : Slot}

/-! ## Messages and their slots -/

/-- Published messages stand on the queue or are parked until they are acknowledged. -/
structure Filed (q : EventQueue) (w : World) : Prop where
  published : ∀ id, id ∈ w.published ↔ 1 ≤ id.value ∧ id.value ≤ w.broker.lastId
  publishedOnce : w.published.Nodup
  placed : ∀ id s, w.broker.slot? id = some s → s.queue = q.name ∨ s.queue = q.deadName
  acked : ∀ id, id ∈ w.acked ↔ id ∈ w.published ∧ w.broker.slot? id = none
  ackedOnce : w.acked.Nodup

namespace Filed

theorem start : World.start.Filed q where
  published id := by
    constructor
    · intro member
      cases member
    · rintro ⟨low, high⟩
      have none : (World.start.broker.lastId : Int) = 0 := rfl
      omega
  publishedOnce := List.nodup_nil
  placed id s found := by cases found
  acked id := by
    constructor
    · intro member
      cases member
    · rintro ⟨member, _⟩
      cases member
  ackedOnce := List.nodup_nil

theorem slot_of_not_acked (h : w.Filed q) (member : id ∈ w.published) (pending : id ∉ w.acked) :
    ∃ s, w.broker.slot? id = some s := by
  cases found : w.broker.slot? id with
  | some s => exact ⟨s, rfl⟩
  | none => exact absurd ((h.acked id).2 ⟨member, found⟩) pending

theorem not_acked_of_slot (h : w.Filed q) (found : w.broker.slot? id = some s) :
    id ∉ w.acked := by
  intro member
  rw [((h.acked id).1 member).2] at found
  cases found

theorem mem_published_of_slot (h : w.Filed q) (found : w.broker.slot? id = some s) :
    id ∈ w.published :=
  (h.published id).2 (Broker.bounds_of_slot? found)

theorem push (h : w.Filed q) (now : Reading) (r : Report) : (w.push q now r).Filed q := by
  have fresh : w.broker.nextId ∉ w.published := by
    intro member
    have high := ((h.published _).1 member).2
    have next : w.broker.nextId.value = (w.broker.lastId : Int) + 1 := rfl
    omega
  have broker : (w.push q now r).broker =
    (w.broker.publish now q.name (q.payload r)).2 := rfl
  have grown : (w.push q now r).published = w.published ++ [w.broker.nextId] := rfl
  refine ⟨fun id => ?_, ?_, fun id s found => ?_, fun id => ?_, h.ackedOnce⟩
  · rw [grown, broker, List.mem_append, List.mem_singleton, h.published, Broker.lastId_publish]
    have next : id = w.broker.nextId ↔ id.value = (w.broker.lastId : Int) + 1 := by
      cases id
      simp [Broker.nextId]
    rw [next]
    omega
  · rw [grown]
    refine List.nodup_append.2 ⟨h.publishedOnce, List.nodup_singleton _, ?_⟩
    intro id member other single same
    rw [same, List.mem_singleton.1 single] at member
    exact fresh member
  · rw [broker, Broker.slot?_publish] at found
    split at found
    · cases found
      exact .inl rfl
    · exact h.placed id s found
  · rw [grown, broker, Broker.slot?_publish, List.mem_append, List.mem_singleton]
    show id ∈ w.acked ↔ _
    rw [h.acked]
    by_cases new : id = w.broker.nextId
    · subst new
      simp [fresh]
    · simp [new]

/-- A call that leaves the slots alone. -/
theorem keep (h : w.Filed q) (quiet : ackedBy p a = []) : (w.after i a p w.broker t).Filed q := by
  refine ⟨h.published, h.publishedOnce, h.placed, fun id => ?_, ?_⟩
  · show id ∈ w.acked ++ ackedBy p a ↔ _
    rw [quiet, List.append_nil]
    exact h.acked id
  · show (w.acked ++ ackedBy p a).Nodup
    rw [quiet, List.append_nil]
    exact h.ackedOnce

/-- A call that claims or parks a message. -/
theorem change (h : w.Filed q) (quiet : ackedBy p a = []) (f : Slot → Slot)
    (keeps : ∀ s, (f s).id = s.id)
    (stays : ∀ s, (f s).queue = s.queue ∨ (f s).queue = q.deadName) :
    (w.after i a p (w.broker.change id f keeps) t).Filed q := by
  refine ⟨h.published, h.publishedOnce, fun id' s' found => ?_, fun id' => ?_, ?_⟩
  · change (w.broker.change id f keeps).slot? id' = some s' at found
    rw [Broker.slot?_change] at found
    obtain ⟨s, before, rfl⟩ := Option.map_eq_some_iff.1 found
    split
    · rcases stays s with same | parked
      · rw [same]
        exact h.placed id' s before
      · exact .inr parked
    · exact h.placed id' s before
  · show id' ∈ w.acked ++ ackedBy p a ↔ id' ∈ w.published ∧
      (w.broker.change id f keeps).slot? id' = none
    rw [quiet, List.append_nil, Broker.slot?_change, Option.map_eq_none_iff]
    exact h.acked id'
  · show (w.acked ++ ackedBy p a).Nodup
    rw [quiet, List.append_nil]
    exact h.ackedOnce

/-- A call that acknowledges a message. -/
theorem remove (h : w.Filed q) (found : w.broker.slot? id = some s) (acks : ackedBy p a = [id]) :
    (w.after i a p (w.broker.remove id) t).Filed q := by
  have pending := h.not_acked_of_slot found
  refine ⟨h.published, h.publishedOnce, fun id' s' found' => ?_, fun id' => ?_, ?_⟩
  · change (w.broker.remove id).slot? id' = some s' at found'
    rw [Broker.slot?_remove] at found'
    split at found'
    · cases found'
    · exact h.placed id' s' found'
  · show id' ∈ w.acked ++ ackedBy p a ↔ id' ∈ w.published ∧ (w.broker.remove id).slot? id' = none
    rw [acks, List.mem_append, List.mem_singleton, h.acked, Broker.slot?_remove]
    by_cases same : id' = id
    · subst same
      simp [h.mem_published_of_slot found]
    · simp [same]
  · show (w.acked ++ ackedBy p a).Nodup
    rw [acks]
    refine List.nodup_append.2 ⟨h.ackedOnce, List.nodup_singleton _, ?_⟩
    intro other member id' single same
    rw [same, List.mem_singleton.1 single] at member
    exact pending member

/-- Every published message is at exactly one place. -/
theorem place (h : w.Filed q) (member : id ∈ w.published) : ∃! place, w.At q id place := by
  have apart := q.name_ne_deadName
  by_cases done : id ∈ w.acked
  · have gone := ((h.acked id).1 done).2
    refine ⟨.acked, done, fun place there => ?_⟩
    cases place with
    | acked => rfl
    | queued =>
      obtain ⟨s, found, _⟩ := there
      rw [gone] at found
      cases found
    | parked =>
      obtain ⟨s, found, _⟩ := there
      rw [gone] at found
      cases found
  · obtain ⟨s, found⟩ := h.slot_of_not_acked member done
    have only : ∀ s', w.broker.slot? id = some s' → s' = s := by
      intro s' found'
      rw [found] at found'
      exact (Option.some.inj found').symm
    rcases h.placed id s found with on | on
    · refine ⟨.queued, ⟨s, found, on⟩, fun place there => ?_⟩
      cases place with
      | queued => rfl
      | acked => exact absurd there done
      | parked =>
        obtain ⟨s', found', parked⟩ := there
        rw [only s' found', on] at parked
        exact absurd parked apart
    · refine ⟨.parked, ⟨s, found, on⟩, fun place there => ?_⟩
      cases place with
      | parked => rfl
      | acked => exact absurd there done
      | queued =>
        obtain ⟨s', found', queued⟩ := there
        rw [only s' found', on] at queued
        exact absurd queued.symm apart

end Filed

/-! ## Workers and what they hold -/

/-- What a worker holds is on the queue, and it is the only one to hold it. -/
structure Guarded (q : EventQueue) (w : World) : Prop where
  on : ∀ i a, w.workers i = some a → a.IsOn q
  queued : ∀ i a id, w.workers i = some a → a.claimed? = some id → w.At q id .queued
  exclusive : ∀ i j a c id, w.workers i = some a → w.workers j = some c → a.claimed? = some id →
    c.claimed? = some id → i = j

theorem workers_after (b : Broker) (j : Nat) :
    (w.after i a p b t).workers j = if j = i then nextOf p else w.workers j :=
  Function.update_apply ..

/-- A message is on the queue after a call if its slot was left alone. -/
theorem queued_of_slot_eq {w' : World} (same : w'.broker.slot? id = w.broker.slot? id)
    (there : w.At q id .queued) : w'.At q id .queued := by
  obtain ⟨s, found, on⟩ := there
  exact ⟨s, same.trans found, on⟩

namespace Guarded

theorem start : World.start.Guarded q where
  on i a busy := by cases busy
  queued i a id busy := by cases busy
  exclusive i j a c id busy := by cases busy

/-- A call keeps the guard if what its worker holds then is on the queue and held by no other, and
    if it leaves on the queue what the others hold. -/
theorem after (h : w.Guarded q) {b : Broker} (on : ∀ c, nextOf p = some c → c.IsOn q)
    (mine : ∀ c id, nextOf p = some c → c.claimed? = some id →
      (w.after i a p b t).At q id .queued ∧
        ∀ j d, j ≠ i → w.workers j = some d → d.claimed? ≠ some id)
    (others : ∀ j d id, j ≠ i → w.workers j = some d → d.claimed? = some id →
      (w.after i a p b t).At q id .queued) :
    (w.after i a p b t).Guarded q := by
  refine ⟨fun j c busy => ?_, fun j c id busy held => ?_, fun j k c d id busy busy' held held' => ?_⟩
  · rw [workers_after] at busy
    split at busy
    · exact on c busy
    · exact h.on j c busy
  · rw [workers_after] at busy
    split at busy
    · exact (mine c id busy held).1
    · next other => exact others j c id other busy held
  · rw [workers_after] at busy busy'
    by_cases hj : j = i
    · by_cases hk : k = i
      · rw [hj, hk]
      · rw [if_pos hj] at busy
        rw [if_neg hk] at busy'
        exact absurd held' ((mine c id busy held).2 k d hk busy')
    · rw [if_neg hj] at busy
      by_cases hk : k = i
      · rw [if_pos hk] at busy'
        exact absurd held ((mine d id busy' held').2 j c hj busy)
      · rw [if_neg hk] at busy'
        exact h.exclusive j k c d id busy busy' held held'

/-- What a worker holds is held by no other. -/
theorem alone (h : w.Guarded q) (busy : w.workers i = some a) (held : a.claimed? = some id) :
    ∀ j d, j ≠ i → w.workers j = some d → d.claimed? ≠ some id := by
  intro j d other busy' held'
  exact other (h.exclusive j i d a id busy' busy held' held)

/-- A call after which the worker holds nothing that it did not hold before. -/
theorem keep (h : w.Guarded q) (busy : w.workers i = some a)
    (next : ∀ c, nextOf p = some c → c.IsOn q ∧ c.claimed? = a.claimed?) :
    (w.after i a p w.broker t).Guarded q := by
  refine h.after (fun c led => (next c led).1) (fun c id led held => ?_)
    fun j d id _ busy' held => h.queued j d id busy' held
  rw [(next c led).2] at held
  exact ⟨h.queued i a id busy held, h.alone busy held⟩

/-- A call that claims a message which nobody holds. -/
theorem claim (h : w.Guarded q) (free : ¬ w.Claims id) (found : w.broker.slot? id = some s)
    (on : s.queue = q.name) (time : Nat) {c : Attempt} (next : nextOf p = some c) (onq : c.IsOn q)
    (held : c.claimed? = some id) :
    (w.after i a p (w.broker.change id (Slot.claimed time) fun _ => rfl) t).Guarded q := by
  have there : ∀ other, w.At q other .queued →
      (w.after i a p (w.broker.change id (Slot.claimed time) fun _ => rfl) t).At q other .queued := by
    rintro other ⟨s', found', on'⟩
    refine ⟨if other = id then s'.claimed time else s', ?_, ?_⟩
    · have moved := Broker.slot?_change w.broker id (Slot.claimed time) (fun _ => rfl) other
      rw [found'] at moved
      exact moved
    · split
      · exact on'
      · exact on'
  refine h.after (fun c' led => ?_) (fun c' id' led held' => ?_)
    fun j d id' _ busy held' => there id' (h.queued j d id' busy held')
  · rw [next] at led
    cases led
    exact onq
  · rw [next] at led
    cases led
    rw [held] at held'
    cases held'
    exact ⟨there id ⟨s, found, on⟩, fun j d _ busy mine => free ⟨j, d, busy, mine⟩⟩

/-- A call after which the worker holds nothing, and which leaves all other messages alone. -/
theorem release (h : w.Guarded q) (busy : w.workers i = some a) (held : a.claimed? = some id)
    {b : Broker} (frame : ∀ other, other ≠ id → b.slot? other = w.broker.slot? other)
    (next : ∀ c, nextOf p = some c → c.IsOn q ∧ c.claimed? = none) :
    (w.after i a p b t).Guarded q := by
  refine h.after (fun c led => (next c led).1) (fun c id' led mine => ?_)
    fun j d id' other busy' held' => ?_
  · rw [(next c led).2] at mine
    cases mine
  · have apart : id' ≠ id := by
      intro same
      rw [same] at held'
      exact h.alone busy held j d other busy' held'
    exact queued_of_slot_eq (frame id' apart) (h.queued j d id' busy' held')

theorem push (h : w.Guarded q) (now : Reading) (r : Report) : (w.push q now r).Guarded q := by
  refine ⟨h.on, fun i a id busy held => ?_, h.exclusive⟩
  have there := h.queued i a id busy held
  refine queued_of_slot_eq ?_ there
  show (w.broker.publish now q.name (q.payload r)).2.slot? id = _
  rw [Broker.slot?_publish, if_neg]
  rintro rfl
  obtain ⟨s, found, _⟩ := there
  rw [Broker.slot?_nextId] at found
  cases found

theorem begin (h : w.Guarded q) (i : Nat) : (w.begin i).Guarded q := by
  have begun : ∀ j c, (w.begin i).workers j = some c → c = .start ∨ w.workers j = some c := by
    intro j c busy
    change Function.update w.workers i (some .start) j = some c at busy
    rw [Function.update_apply] at busy
    split at busy
    · cases busy
      exact .inl rfl
    · exact .inr busy
  refine ⟨fun j c busy => ?_, fun j c id busy held => ?_, fun j k c d id busy busy' held held' => ?_⟩
  · rcases begun j c busy with rfl | before
    · trivial
    · exact h.on j c before
  · rcases begun j c busy with rfl | before
    · cases held
    · exact h.queued j c id before held
  · rcases begun j c busy with rfl | before
    · cases held
    · rcases begun k d busy' with rfl | before'
      · cases held'
      · exact h.exclusive j k c d id before before' held held'

end Guarded

/-! ## Rows and the messages that they came of -/

/-- A message has been recorded: it is acknowledged, or a worker is about to acknowledge it. -/
def Booking (w : World) (id : MessageId) : Prop := id ∈ w.acked ∨ w.Records id

/-- Recorded messages have one row each, and no other message has one. -/
structure Booked (w : World) : Prop where
  rows : w.store.inner.events = w.produced.map Prod.snd
  consistent : w.store.inner.Consistent
  one : ∀ id, w.Booking id → w.rowsOf id = 1
  none : ∀ id, ¬ w.Booking id → w.rowsOf id = 0

/-- A worker other than this one has recorded a message and not acknowledged it yet. -/
def OthersRecord (w : World) (i : Nat) (id : MessageId) : Prop :=
  ∃ j c, j ≠ i ∧ w.workers j = some c ∧ c.recorded? = some id

theorem records_iff (busy : w.workers i = some a) :
    w.Records id ↔ a.recorded? = some id ∨ w.OthersRecord i id := by
  constructor
  · rintro ⟨j, c, busy', done⟩
    by_cases same : j = i
    · subst same
      rw [busy] at busy'
      cases busy'
      exact .inl done
    · exact .inr ⟨j, c, same, busy', done⟩
  · rintro (done | ⟨j, c, _, busy', done⟩)
    · exact ⟨i, a, busy, done⟩
    · exact ⟨j, c, busy', done⟩

theorem records_after (b : Broker) :
    (w.after i a p b t).Records id ↔ (nextOf p).bind Attempt.recorded? = some id ∨
      w.OthersRecord i id := by
  constructor
  · rintro ⟨j, c, busy, done⟩
    rw [workers_after] at busy
    split at busy
    · rw [busy]
      exact .inl done
    · next other => exact .inr ⟨j, c, other, busy, done⟩
  · rintro (done | ⟨j, c, other, busy, done⟩)
    · obtain ⟨c, led, done⟩ := Option.bind_eq_some_iff.1 done
      exact ⟨i, c, by rw [workers_after, if_pos rfl, led], done⟩
    · exact ⟨j, c, by rw [workers_after, if_neg other, busy], done⟩

namespace Booked

theorem start : World.start.Booked where
  rows := rfl
  consistent := Ledger.Memory.Consistent.empty
  one id done := by
    rcases done with member | ⟨i, a, busy, _⟩
    · cases member
    · cases busy
  none id _ := rfl

/-- A call that records nothing, after which the same messages have been recorded. -/
theorem keep (h : w.Booked) {b : Broker} (events : t.inner.events = w.store.inner.events)
    (consistent : t.inner.Consistent) (still : producedBy p = [])
    (same : ∀ id, (w.after i a p b t).Booking id ↔ w.Booking id) : (w.after i a p b t).Booked := by
  have produced : (w.after i a p b t).produced = w.produced := by
    show w.produced ++ producedBy p = w.produced
    rw [still, List.append_nil]
  refine ⟨?_, consistent, fun id done => ?_, fun id pending => ?_⟩
  · rw [produced, ← h.rows]
    exact events
  · rw [rowsOf, produced]
    exact h.one id ((same id).1 done)
  · rw [rowsOf, produced]
    exact h.none id fun done => pending ((same id).2 done)

/-- A call that records a message which was not recorded before. -/
theorem record (h : w.Booked) {b : Broker} {e : Event} (events : t.inner.events =
      w.store.inner.events ++ [e]) (consistent : t.inner.Consistent)
    (adds : producedBy p = [(id, e)]) (fresh : ¬ w.Booking id)
    (more : ∀ other, (w.after i a p b t).Booking other ↔ other = id ∨ w.Booking other) :
    (w.after i a p b t).Booked := by
  have produced : (w.after i a p b t).produced = w.produced ++ [(id, e)] := by
    show w.produced ++ producedBy p = _
    rw [adds]
  have rowsOf_after : ∀ other, (w.after i a p b t).rowsOf other =
      w.rowsOf other + if other = id then 1 else 0 := by
    intro other
    rw [rowsOf, produced, List.map_append, List.count_append]
    by_cases same : other = id
    · simp [rowsOf, same]
    · simp [rowsOf, same, Ne.symm same]
  refine ⟨?_, consistent, fun other done => ?_, fun other pending => ?_⟩
  · rw [produced, List.map_append, ← h.rows]
    exact events
  · rw [rowsOf_after]
    by_cases same : other = id
    · rw [if_pos same, same, h.none id fresh]
    · rw [if_neg same, h.one other (((more other).1 done).resolve_left same)]
  · rw [more, not_or] at pending
    rw [rowsOf_after, if_neg pending.1, h.none other pending.2]

end Booked

/-! ## Every step keeps the three -/

/-- What holds of every reachable world. -/
structure Conserved (q : EventQueue) (w : World) : Prop extends Filed q w, Guarded q w, Booked w

namespace Conserved

theorem start : World.start.Conserved q := ⟨Filed.start, Guarded.start, Booked.start⟩

/-- A message that a worker holds and is about to record has not been recorded. -/
theorem not_booking (h : w.Conserved q) (busy : w.workers i = some a) (held : a.claimed? = some id)
    (before : a.recorded? = none) : ¬ w.Booking id := by
  rintro (member | ⟨j, c, busy', done⟩)
  · obtain ⟨s, found, _⟩ := h.queued i a id busy held
    exact h.toFiled.not_acked_of_slot found member
  · have same := h.exclusive i j a c id busy busy' held (Attempt.claimed?_of_recorded? done)
    subst same
    rw [busy] at busy'
    cases busy'
    rw [before] at done
    cases done

/-- A call that neither records nor acknowledges keeps the rows booked. -/
theorem booked_keep (h : w.Conserved q) (busy : w.workers i = some a) {b : Broker}
    (events : t.inner.events = w.store.inner.events) (consistent : t.inner.Consistent)
    (before : a.recorded? = none) (next : ∀ c, nextOf p = some c → c.recorded? = none)
    (still : producedBy p = []) (quiet : ackedBy p a = []) : (w.after i a p b t).Booked := by
  refine h.toBooked.keep events consistent still fun id => ?_
  have acked : (w.after i a p b t).acked = w.acked := by
    show w.acked ++ ackedBy p a = w.acked
    rw [quiet, List.append_nil]
  rw [Booking, Booking, acked, records_after, records_iff busy, before]
  cases led : nextOf p with
  | none => simp
  | some c => simp [next c led]

/-- A message that a worker holds is not the one that a claim takes. -/
theorem free_of_hides {now : Reading} (hidden : w.Hides q now) (found : w.broker.slot? id = some s)
    (available : s.isAvailable q.name now.steady) : ¬ w.Claims id :=
  fun held => hidden id s held found available

/-- Every call of every worker keeps what holds. -/
theorem call (h : w.Conserved q) (busy : w.workers i = some a) {now : Reading}
    (hidden : a = .start → w.Hides q now) {b : Broker}
    (made : Attempt.Call q now w.broker w.store a p b t) : (w.after i a p b t).Conserved q := by
  have on := h.on i a busy
  cases made with
  | idle | overflow =>
    refine ⟨h.toFiled.keep rfl, h.toGuarded.keep busy ?_, ?_⟩
    · intro c led
      cases led
    · exact h.booked_keep busy rfl h.consistent rfl (fun c led => by cases led) rfl rfl
  | skip id s found available m hm =>
    have on' : s.queue = q.name := by
      simp only [Slot.isAvailable, Bool.and_eq_true, beq_iff_eq] at available
      exact available.1
    refine ⟨h.toFiled.change rfl _ _ fun _ => .inl rfl, ?_, ?_⟩
    · exact h.toGuarded.claim (free_of_hides (hidden rfl) found available) found on' _ rfl trivial
        (congrArg some hm)
    · exact h.booked_keep busy rfl h.consistent rfl (fun c led => by cases led; rfl) rfl rfl
  | take id s found available d hd onq =>
    have on' : s.queue = q.name := by
      simp only [Slot.isAvailable, Bool.and_eq_true, beq_iff_eq] at available
      exact available.1
    refine ⟨h.toFiled.change rfl _ _ fun _ => .inl rfl, ?_, ?_⟩
    · exact h.toGuarded.claim (free_of_hides (hidden rfl) found available) found on' _ rfl onq
        (congrArg some hd)
    · exact h.booked_keep busy rfl h.consistent rfl (fun c led => by cases led; rfl) rfl rfl
  | park m s found _ =>
    refine ⟨h.toFiled.change rfl _ _ fun _ => .inr rfl, ?_, ?_⟩
    · refine h.toGuarded.release busy rfl (fun other apart => ?_) fun c led => ?_
      · exact (Broker.slot?_change_of_found found _ _ other).trans (if_neg apart)
      · cases led
        exact ⟨trivial, rfl⟩
    · exact h.booked_keep busy rfl h.consistent rfl (fun c led => by cases led; rfl) rfl rfl
  | misplaced m off e =>
    obtain ⟨s, found, queued⟩ := h.queued i _ m.id busy rfl
    exact absurd queued (off s found)
  | ungrouped d e t same =>
    refine ⟨h.toFiled.keep rfl, h.toGuarded.keep busy ?_, ?_⟩
    · intro c led
      cases led
    · exact h.booked_keep busy (by rw [same]) (by rw [same]; exact h.consistent) rfl
        (fun c led => by cases led) rfl rfl
  | group d f t g made =>
    have kept : t.inner.Consistent := by
      rw [made]
      exact h.consistent.perform (.create g)
    have events : t.inner.events = w.store.inner.events := by
      rw [made]
      rcases w.store.inner.getOrCreateGroup_cases g with ⟨_, _, known⟩ | ⟨_, new⟩
      · rw [known]
      · rw [new]
        rfl
    refine ⟨h.toFiled.keep rfl, h.toGuarded.keep busy ?_, ?_⟩
    · intro c led
      cases led
      exact ⟨on, rfl⟩
    · exact h.booked_keep busy events kept rfl (fun c led => by cases led; rfl) rfl rfl
  | unrecorded d f e t same =>
    refine ⟨h.toFiled.keep rfl, h.toGuarded.keep busy ?_, ?_⟩
    · intro c led
      cases led
    · exact h.booked_keep busy (by rw [same]) (by rw [same]; exact h.consistent) rfl
        (fun c led => by cases led) rfl rfl
  | record d f o t e made rows =>
    have kept : t.inner.Consistent := by
      rw [made]
      exact h.consistent.perform (.record e f.now)
    refine ⟨h.toFiled.keep rfl, h.toGuarded.keep busy ?_, ?_⟩
    · intro c led
      cases led
      exact ⟨on, rfl⟩
    · refine h.toBooked.record rows kept rfl (h.not_booking busy rfl rfl) fun other => ?_
      rw [Booking, Booking, records_after, records_iff busy]
      show other ∈ w.acked ++ [] ∨ some d.id = some other ∨ _ ↔ _
      simp only [List.append_nil, Attempt.recorded?, Option.some.injEq, reduceCtorEq, false_or]
      rw [eq_comm (a := d.id)]
      tauto
  | ack d o s found _ =>
    refine ⟨h.toFiled.remove found rfl, ?_, ?_⟩
    · refine h.toGuarded.release busy rfl (fun other apart => ?_) fun c led => ?_
      · rw [Broker.slot?_remove, if_neg apart]
      · cases led
    · refine h.toBooked.keep rfl h.consistent rfl fun other => ?_
      rw [Booking, Booking, records_after, records_iff busy]
      show other ∈ w.acked ++ [d.id] ∨ none = some other ∨ _ ↔ _
      rw [List.mem_append, List.mem_singleton]
      simp only [Attempt.recorded?, Option.some.injEq, reduceCtorEq, false_or]
      rw [eq_comm (a := d.id)]
      tauto
  | unacked d o off e =>
    obtain ⟨s, found, queued⟩ := h.queued i _ d.id busy rfl
    exact absurd (queued.trans (Eq.symm on)) (off s found)

theorem step {w' : World} (h : w.Conserved q) (made : Step q hooks w w') : w'.Conserved q := by
  cases made with
  | push now r =>
    exact ⟨h.toFiled.push now r, h.toGuarded.push now r, ⟨h.rows, h.consistent, h.one, h.none⟩⟩
  | suffer outages failure =>
    refine ⟨⟨h.published, h.publishedOnce, h.placed, h.acked, h.ackedOnce⟩,
      ⟨h.on, h.queued, h.exclusive⟩, ⟨h.rows, h.consistent, h.one, h.none⟩⟩
  | begin i idle =>
    have same : ∀ id, (w.begin i).Booking id ↔ w.Booking id := by
      intro id
      refine or_congr Iff.rfl ⟨?_, ?_⟩
      · rintro ⟨j, c, busy, done⟩
        change Function.update w.workers i (some .start) j = some c at busy
        rw [Function.update_apply] at busy
        split at busy
        · cases busy
          cases done
        · exact ⟨j, c, busy, done⟩
      · rintro ⟨j, c, busy, done⟩
        refine ⟨j, c, ?_, done⟩
        show Function.update w.workers i (some .start) j = some c
        rw [Function.update_of_ne ?_, busy]
        rintro rfl
        rw [idle] at busy
        cases busy
    exact ⟨⟨h.published, h.publishedOnce, h.placed, h.acked, h.ackedOnce⟩, h.toGuarded.begin i,
      ⟨h.rows, h.consistent, fun id done => h.one id ((same id).1 done),
        fun id pending => h.none id fun done => pending ((same id).2 done)⟩⟩
  | act i a now busy hidden =>
    exact h.call busy hidden (Attempt.step_call q hooks now a w.broker w.store)

end Conserved

/-- What holds of every reachable world, by induction on the steps to it. -/
theorem conserved_of_reachable (reach : w.Reachable q hooks) : w.Conserved q := by
  induction reach with
  | refl => exact .start
  | tail _ made ih => exact ih.step made

/-! ## What follows -/

/-- The published messages are those that stand somewhere and those that were acknowledged. -/
theorem Filed.length_published (h : w.Filed q) :
    w.published.length =
      w.broker.depth q.name + w.broker.depth q.deadName + w.acked.length := by
  have standing : ∀ id, id ∈ w.broker.slots.map Slot.id ↔ ∃ s, w.broker.slot? id = some s := by
    intro id
    rw [List.mem_map]
    exact exists_congr fun s => Broker.slot?_eq_some_iff.symm
  have distinct : (w.broker.slots.map Slot.id ++ w.acked).Nodup := by
    refine List.nodup_append.2 ⟨w.broker.nodup_ids, h.ackedOnce, ?_⟩
    intro id stands other member same
    obtain ⟨s, found⟩ := (standing id).1 stands
    rw [← same] at member
    exact h.not_acked_of_slot found member
  have same : w.published.Perm (w.broker.slots.map Slot.id ++ w.acked) := by
    refine (List.perm_ext_iff_of_nodup h.publishedOnce distinct).2 fun id => ?_
    rw [List.mem_append, standing]
    constructor
    · intro member
      by_cases done : id ∈ w.acked
      · exact .inr done
      · exact .inl (h.slot_of_not_acked member done)
    · rintro (⟨s, found⟩ | done)
      · exact h.mem_published_of_slot found
      · exact ((h.acked id).1 done).1
  have placed : ∀ s ∈ w.broker.slots, s.queue = q.name ∨ s.queue = q.deadName := by
    intro s hs
    exact h.placed s.id s (Broker.slot?_eq_some_iff.2 ⟨hs, rfl⟩)
  rw [same.length_eq, List.length_append, List.length_map,
    Broker.length_slots_eq_depths q.name_ne_deadName placed]

/-- If nothing is left to be acknowledged, there is one row for each acknowledged message. -/
theorem Conserved.length_events (h : w.Conserved q) (settled : ∀ id, ¬ w.Records id) :
    w.store.inner.events.length = w.acked.length := by
  have same : (w.produced.map Prod.fst).Perm w.acked := by
    refine List.perm_iff_count.2 fun id => ?_
    show w.rowsOf id = _
    by_cases done : id ∈ w.acked
    · rw [h.one id (.inl done), List.count_eq_one_of_mem h.ackedOnce done]
    · rw [List.count_eq_zero_of_not_mem done]
      exact h.none id fun booked => booked.elim done (settled id)
  rw [h.rows, List.length_map, ← same.length_eq, List.length_map]

/-- Whatever workers, producers and outages do, every published message is at exactly one place.  An
    acknowledged message has one row, a parked message has none, and a queued message has none
    unless a worker is about to acknowledge it.  There are no other rows, and the groups count all of
    them. -/
theorem each_message_counted_once (q : EventQueue) (hooks : List Hook) (w : World)
    (reach : w.Reachable q hooks) :
    (∀ id, id ∈ w.published → ∃! place, w.At q id place) ∧
    (∀ id place, w.At q id place → id ∈ w.published) ∧
    (∀ id, w.At q id .acked → w.rowsOf id = 1) ∧
    (∀ id, w.At q id .parked → w.rowsOf id = 0) ∧
    (∀ id, w.At q id .queued → w.rowsOf id ≤ 1 ∧ (w.rowsOf id = 1 → w.Records id)) ∧
    w.store.inner.events = w.produced.map Prod.snd ∧
    w.published.length =
      w.broker.depth q.name + w.broker.depth q.deadName + w.acked.length ∧
    ((∀ id, ¬ w.Records id) →
      w.store.inner.events.length = w.acked.length ∧
      (w.store.inner.groups.map Ledger.Group.timesSeen).sum = w.acked.length) := by
  have h := conserved_of_reachable reach
  refine ⟨fun id member => h.toFiled.place member, fun id place there => ?_,
    fun id done => h.one id (.inl done), fun id parked => ?_, fun id queued => ?_, h.rows,
    h.toFiled.length_published, fun settled => ⟨h.length_events settled, ?_⟩⟩
  · cases place with
    | queued =>
      obtain ⟨s, found, _⟩ := there
      exact h.toFiled.mem_published_of_slot found
    | parked =>
      obtain ⟨s, found, _⟩ := there
      exact h.toFiled.mem_published_of_slot found
    | acked => exact ((h.acked id).1 there).1
  · obtain ⟨s, found, on⟩ := parked
    refine h.none id ?_
    rintro (done | ⟨i, a, busy, recorded⟩)
    · exact h.toFiled.not_acked_of_slot found done
    · obtain ⟨s', found', queued⟩ := h.queued i a id busy (Attempt.claimed?_of_recorded? recorded)
      rw [found] at found'
      cases found'
      exact q.name_ne_deadName (queued.symm.trans on)
  · obtain ⟨s, found, _⟩ := queued
    have pending := h.toFiled.not_acked_of_slot found
    by_cases recorded : w.Records id
    · exact ⟨Nat.le_of_eq (h.one id (.inr recorded)), fun _ => recorded⟩
    · have none := h.none id fun booked => booked.elim pending recorded
      exact ⟨by omega, fun one => by omega⟩
  · rw [h.consistent.sum_timesSeen, h.length_events settled]

/-- Worker 0 makes so many calls of its attempt, at one time. -/
def turns (q : EventQueue) (hooks : List Hook) (now : Reading) : Nat → World → World
  | 0, w => w
  | n + 1, w =>
    match w.workers 0 with
    | some a => turns q hooks now n (w.act q hooks 0 a now)
    | none => w

/-- Worker 0 needs to wait for nobody while no other worker is at work. -/
theorem Reachable.turns (reach : w.Reachable q hooks) (alone : ∀ i, i ≠ 0 → w.workers i = none)
    (now : Reading) (n : Nat) : (w.turns q hooks now n).Reachable q hooks := by
  induction n generalizing w with
  | zero => exact reach
  | succ n ih =>
    rw [World.turns]
    cases busy : w.workers 0 with
    | none => exact reach
    | some a =>
      have hidden : a = .start → w.Hides q now := by
        rintro rfl id s ⟨i, b, holds, claims⟩
        by_cases first : i = 0
        · rw [first, busy] at holds
          cases holds
          cases claims
        · rw [alone i first] at holds
          cases holds
      refine ih (reach.tail (.act w 0 a now busy hidden)) fun i other => ?_
      show Function.update w.workers 0 _ i = none
      rw [Function.update_of_ne other, alone i other]

/-- A report is published, and worker 0 makes its four calls for it. -/
def oneReport : World :=
  turns (.ofSettings {}) [] (.atEpoch 0) 4 ((start.push (.ofSettings {}) (.atEpoch 0) .plain).begin 0)

theorem each_message_counted_once_oneReport :
    oneReport.Reachable (.ofSettings {}) [] ∧ oneReport.At (.ofSettings {}) ⟨1⟩ .acked ∧
    ⟨1⟩ ∈ oneReport.published ∧ oneReport.rowsOf ⟨1⟩ = 1 := by
  have pushed : (start.push (.ofSettings {}) (.atEpoch 0) .plain).Reachable (.ofSettings {}) [] :=
    .single (.push start _ _)
  have begun := pushed.tail (.begin _ 0 rfl)
  have reach : oneReport.Reachable (.ofSettings {}) [] := by
    refine Reachable.turns begun (fun i other => ?_) _ 4
    exact Function.update_of_ne other _ _
  have done : (⟨1⟩ : MessageId) ∈ oneReport.acked := by decide +kernel
  have counted := each_message_counted_once (.ofSettings {}) [] oneReport reach
  exact ⟨reach, done, counted.2.1 ⟨1⟩ .acked done, counted.2.2.1 ⟨1⟩ done⟩

end World

end ErrorIntake.Worker
