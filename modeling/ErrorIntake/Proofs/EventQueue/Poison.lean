import ErrorIntake.Proofs.EventQueue.Traffic
import ErrorIntake.Proofs.Report.RoundTrip

/-!
# Messages that cannot be processed

`Counted` is what every call keeps: the deliveries of a message carry the attempts 1, 2, 3 and so on,
the slot of a message on the queue counts its deliveries, and one more while a pop is about to park
it, and a parked message is on the queue no longer.  That a pop delivers a message only up to the
limit, and parks it for good at the next claim, is read off that.
-/

namespace ErrorIntake

open Calendar (Reading)
open Queue (Broker Command Entry History Message QueueBackend Slot)

namespace Queue

/-- The message was published with this payload. -/
def History.Carries (h : History) (id : MessageId) (payload : Bytes) : Prop :=
  ∃ e ∈ h, e.published? = some id ∧ e.payload? = some payload

namespace History.Carries

variable {h : History} {id : MessageId} {payload : Bytes}

theorem append (carries : h.Carries id payload) (e : Entry) :
    History.Carries (h ++ [e]) id payload := by
  obtain ⟨origin, member, told⟩ := carries
  exact ⟨origin, List.mem_append_left _ member, told⟩

theorem mem_published (carries : h.Carries id payload) : id ∈ h.published := by
  obtain ⟨e, member, published, -⟩ := carries
  exact List.mem_filterMap.2 ⟨e, member, published⟩

end History.Carries

namespace Broker.Recorded

variable {b : Broker} {h : History} {id : MessageId} {s : Slot}

theorem carries_of_slot? (r : Recorded b h) (found : b.slot? id = some s) :
    h.Carries id s.payload := by
  obtain ⟨e, member, published, payload, -⟩ := (r.follows id s found).origin
  rw [id_of_slot? found] at published
  exact ⟨e, (List.mem_filter.1 member).1, published, payload⟩

/-- No message is published twice. -/
theorem payload_unique (r : Recorded b h) {payload payload' : Bytes}
    (one : h.Carries id payload) (other : h.Carries id payload') : payload = payload' := by
  obtain ⟨e, member, published, told⟩ := one
  obtain ⟨e', member', published', told'⟩ := other
  have once : h.published.Nodup := r.published ▸ nodup_idsUpTo _
  have same : e' = e := by
    obtain ⟨before, after, rfl⟩ := List.append_of_mem member
    rw [History.published, List.filterMap_append, List.filterMap_cons_some published,
      List.nodup_middle, List.nodup_cons, ← List.filterMap_append] at once
    by_contra apart
    apply once.1
    refine List.mem_filterMap.2 ⟨e', ?_, published'⟩
    simpa [apart] using member'
  rw [same, told] at told'
  exact Option.some.inj told'

theorem nextId_notMem (r : Recorded b h) : b.nextId ∉ h.published := by
  rw [r.published, mem_idsUpTo]
  rintro ⟨-, high⟩
  have le : ((b.lastId + 1 : Nat) : Int) ≤ b.lastId := high
  omega

end Broker.Recorded

end Queue

namespace EventQueue.Traffic

variable {q : EventQueue} {t t' : Traffic} {now : Reading} {b : Broker} {m : Message}
  {id : MessageId} {c : Command}

/-- A pop is about to park the message, which it has claimed but not delivered. -/
def condemned (t : Traffic) (id : MessageId) : Nat :=
  match t.pop with
  | some (.parking m) => if m.id = id then 1 else 0
  | _ => 0

theorem condemned_parking (runs : t.pop = some (.parking m)) (id : MessageId) :
    t.condemned id = if m.id = id then 1 else 0 := by
  rw [condemned, runs]

theorem condemned_receiving (runs : t.pop = some .receiving) (id : MessageId) :
    t.condemned id = 0 := by
  rw [condemned, runs]

theorem condemned_idle (idle : t.pop = none) (id : MessageId) : t.condemned id = 0 := by
  rw [condemned, idle]

/-- A delivery counts for its own message only. -/
theorem attempts_of_delivered (t t' : Traffic) {d : Delivery}
    (given : t'.delivered = t.delivered ++ [d]) (id : MessageId) :
    t'.attempts id = if d.id = id then t.attempts id ++ [d.attempt.toNat] else t.attempts id := by
  unfold attempts
  rw [given, List.filter_append, List.map_append]
  by_cases same : d.id = id
  · simp [same]
  · simp [same]

/-- The attempts are counted, by the slots and by the deliveries. -/
structure Counted (q : EventQueue) (t : Traffic) : Prop where
  recorded : t.broker.Recorded t.history
  numbered : ∀ id, t.attempts id = List.range' 1 (t.attempts id).length
  bounded : ∀ id, (t.attempts id).length ≤ q.maxAttempts.toNat
  queued : ∀ id s, t.broker.slot? id = some s → s.queue = q.name →
    s.attempt.toNat = (t.attempts id).length + t.condemned id
  parking : ∀ m, t.pop = some (.parking m) →
    ∃ s, t.broker.slot? m.id = some s ∧ s.queue = q.name ∧ s.message = m
  events : ∀ d ∈ t.delivered, d.queue = q.name ∧
    ∃ payload, t.history.Carries d.id payload ∧ decode? payload = some d.event
  gone : ∀ id ∈ t.parked, id ∈ t.history.published ∧
    ∀ s, t.broker.slot? id = some s → s.queue ≠ q.name

namespace Counted

theorem start : Counted q start where
  recorded := .empty
  numbered id := rfl
  bounded id := Nat.zero_le _
  queued id s found := by cases found
  parking m runs := by cases runs
  events d given := by cases given
  gone id member := by cases member

/-- What was delivered was published. -/
theorem attempts_of_notMem (inv : Counted q t) (unknown : id ∉ t.history.published) :
    t.attempts id = [] := by
  have none : (t.delivered.filter fun d => d.id = id) = [] := by
    refine List.filter_eq_nil_iff.2 fun d given same => unknown ?_
    obtain ⟨-, payload, carries, -⟩ := inv.events d given
    rw [← of_decide_eq_true same]
    exact carries.mem_published
  rw [attempts, none, List.map_nil]

theorem condemned_of_notMem (inv : Counted q t) (unknown : id ∉ t.history.published) :
    t.condemned id = 0 := by
  unfold condemned
  split
  · next m runs =>
    obtain ⟨s, found, -⟩ := inv.parking m runs
    refine if_neg fun same => unknown ?_
    rw [← same]
    exact (inv.recorded.of_slot? found).1
  · rfl

/-- What holds of the events of deliveries holds of them later. -/
theorem events_noted (inv : Counted q t) (e : Entry) :
    ∀ d ∈ t.delivered, d.queue = q.name ∧
      ∃ payload, History.Carries (t.history ++ [e]) d.id payload ∧
        decode? payload = some d.event := by
  intro d given
  obtain ⟨on, payload, carries, holds⟩ := inv.events d given
  exact ⟨on, payload, carries.append e, holds⟩

theorem mem_noted (e : Entry) (known : id ∈ t.history.published) :
    id ∈ History.published (t.history ++ [e]) := by
  rw [History.published_append]
  exact List.mem_append_left _ known

/-- A call that claims nothing from the queue, and leaves alone what the pop is about to park. -/
theorem call (inv : Counted q t) (now : Reading) (quiet : c.ClaimsNone q.name)
    (kept : ∀ m, t.pop = some (.parking m) →
      (t.call now c).broker.slot? m.id = t.broker.slot? m.id) :
    Counted q (t.call now c) := by
  have made := t.broker.perform_effect now c
  constructor
  case recorded => exact inv.recorded.effect made
  case numbered => exact inv.numbered
  case bounded => exact inv.bounded
  case queued =>
    intro id s found on
    rcases made.attempt_of_claimsNone quiet found on with ⟨s₀, old, on₀, same⟩ | ⟨rfl, zero⟩
    · rw [← same]
      exact inv.queued id s₀ old on₀
    · have unknown := inv.recorded.nextId_notMem
      have undelivered : (t.call now c).attempts t.broker.nextId = [] :=
        inv.attempts_of_notMem unknown
      have unclaimed : (t.call now c).condemned t.broker.nextId = 0 :=
        inv.condemned_of_notMem unknown
      rw [zero, undelivered, unclaimed]
      rfl
  case parking =>
    intro m runs
    rw [kept m runs]
    exact inv.parking m runs
  case events => exact inv.events_noted _
  case gone =>
    intro id member
    obtain ⟨known, off⟩ := inv.gone id member
    refine ⟨mem_noted _ known, fun s found on => ?_⟩
    rcases made.attempt_of_claimsNone quiet found on with ⟨s₀, old, on₀, -⟩ | ⟨rfl, -⟩
    · exact off s₀ old on₀
    · exact inv.recorded.nextId_notMem known

theorem begin (inv : Counted q t) (idle : t.pop = none) : Counted q t.begin where
  recorded := inv.recorded
  numbered := inv.numbered
  bounded := inv.bounded
  queued id s found on := by
    have counted := inv.queued id s found on
    rw [condemned_idle idle] at counted
    exact counted
  parking m runs := by cases runs
  events := inv.events
  gone := inv.gone

/-- A pop that is about to claim takes nothing, or claims a message and counts that. -/
theorem receive (inv : Counted q t) (limit : q.maxAttempts.toNat < 2 ^ 32 - 1)
    (runs : t.pop = some .receiving) (now : Reading) :
    (∃ claim, t.broker.receive now q.name q.timeout = (claim, t.broker) ∧
      ∀ m, claim ≠ .ok (some m)) ∨
    ∃ s, t.broker.slot? s.id = some s ∧ s.queue = q.name ∧
      (s.attempt + 1).toNat = (t.attempts s.id).length + 1 ∧
      t.broker.receive now q.name q.timeout =
        (.ok (some (s.claimed (now.steady + q.timeout)).message),
          t.broker.change s.id (Slot.claimed (now.steady + q.timeout)) fun _ => rfl) := by
  rcases t.broker.receive_cases now q.name q.timeout with
    ⟨-, made⟩ | ⟨-, -, -, -, -, made⟩ | ⟨id, s, found, available, -, -, made⟩
  · exact .inl ⟨_, made, fun m same => by cases same⟩
  · exact .inl ⟨_, made, fun m same => by cases same⟩
  · obtain rfl := Broker.id_of_slot? found
    have on := (Slot.isAvailable_iff.1 available).1
    have counted := inv.queued s.id s found on
    have bound := inv.bounded s.id
    rw [condemned_receiving runs, Nat.add_zero] at counted
    refine .inr ⟨s, found, on, ?_, made⟩
    rw [UInt32.toNat_add, counted]
    show ((t.attempts s.id).length + 1) % 2 ^ 32 = _
    omega

/-- What a pop is about to park is there to be parked. -/
theorem deadLetter (inv : Counted q t) (runs : t.pop = some (.parking m)) (now : Reading) :
    ∃ s, t.broker.slot? s.id = some s ∧ s.queue = q.name ∧ s.message = m ∧
      t.broker.deadLetter now q.name m.id q.deadName =
        (.ok (), t.broker.change s.id (Slot.moved q.deadName now.steady) fun _ => rfl) := by
  obtain ⟨s, found, on, rfl⟩ := inv.parking m runs
  refine ⟨s, found, on, rfl, ?_⟩
  rcases t.broker.ifHeld_cases q.name s.id
      (t.broker.change s.id (Slot.moved q.deadName now.steady) fun _ => rfl) with
    ⟨-, -, -, made⟩ | ⟨off, -⟩
  · exact made
  · exact absurd on (off s found)

theorem recorded_advance (inv : Counted q t) (now : Reading) (p : Pop) :
    (t.advance q now p).broker.Recorded (t.advance q now p).history := by
  rw [advance_broker]
  exact inv.recorded.effect (t.broker.perform_effect now (p.command q))

theorem after_nothing (inv : Counted q t) (runs : t.pop = some .receiving)
    {claim : Except QueueError (Option Message)}
    (made : t.broker.receive now q.name q.timeout = (claim, t.broker))
    (nothing : ∀ m, claim ≠ .ok (some m)) : Counted q (t.advance q now .receiving) := by
  have recorded := inv.recorded_advance now .receiving
  rw [advance_nothing made nothing] at recorded ⊢
  constructor
  case recorded => exact recorded
  case numbered => exact inv.numbered
  case bounded => exact inv.bounded
  case queued =>
    intro id s found on
    have counted := inv.queued id s found on
    rw [condemned_receiving runs] at counted
    exact counted
  case parking =>
    intro m stands
    cases stands
  case events => exact inv.events_noted _
  case gone =>
    intro id member
    obtain ⟨known, off⟩ := inv.gone id member
    exact ⟨mem_noted _ known, off⟩

section

variable {s : Slot} {time : Nat} (inv : Counted q t) (runs : t.pop = some .receiving)
  (found : t.broker.slot? s.id = some s) (on : s.queue = q.name)
include inv found

section

variable (claimed : t'.broker = t.broker.change s.id (Slot.claimed time) fun _ => rfl)
include claimed

/-- A claim is counted once, as a delivery or for a message that is about to be parked. -/
theorem queued_of_claim (exactly : (s.attempt + 1).toNat = (t.attempts s.id).length + 1)
    (counts : ∀ id, (t'.attempts id).length + t'.condemned id =
      (t.attempts id).length + t.condemned id + if s.id = id then 1 else 0)
    (runs : t.pop = some .receiving) (id : MessageId) (s' : Slot)
    (found' : t'.broker.slot? id = some s') (on : s'.queue = q.name) :
    s'.attempt.toNat = (t'.attempts id).length + t'.condemned id := by
  rw [claimed, Broker.slot?_change_of_found found (Slot.claimed _) fun _ => rfl] at found'
  rw [counts id]
  by_cases same : id = s.id
  · subst same
    rw [if_pos rfl] at found'
    cases found'
    rw [if_pos rfl, condemned_receiving runs]
    exact exactly
  · rw [if_neg same] at found'
    rw [if_neg (Ne.symm same)]
    exact inv.queued id s' found' on

include on in
theorem gone_of_claim (e : Entry) (same : t'.parked = t.parked)
    (noted : t'.history = t.history ++ [e]) :
    ∀ id ∈ t'.parked, id ∈ t'.history.published ∧
      ∀ s', t'.broker.slot? id = some s' → s'.queue ≠ q.name := by
  intro id member
  rw [same] at member
  obtain ⟨known, off⟩ := inv.gone id member
  rw [noted]
  refine ⟨mem_noted e known, fun s' found' => ?_⟩
  rw [claimed, Broker.slot?_change_of_found found (Slot.claimed _) fun _ => rfl] at found'
  have apart : id ≠ s.id := by
    rintro rfl
    exact off s found on
  rw [if_neg apart] at found'
  exact off s' found'

end

variable (exactly : (s.attempt + 1).toNat = (t.attempts s.id).length + 1)
  (made : t.broker.receive now q.name q.timeout = (.ok (some (s.claimed time).message),
    t.broker.change s.id (Slot.claimed time) fun _ => rfl))
include on runs exactly made

theorem after_condemning {warning : LogRecord}
    (judged : q.judge (s.claimed time).message = .park warning) :
    Counted q (t.advance q now .receiving) := by
  have recorded := inv.recorded_advance now .receiving
  rw [advance_condemns made judged] at recorded ⊢
  constructor
  case recorded => exact recorded
  case numbered => exact inv.numbered
  case bounded => exact inv.bounded
  case queued =>
    -- The claim counts for the parking that comes next, not as a delivery.
    refine inv.queued_of_claim found rfl exactly (fun id => ?_) runs
    rw [condemned_receiving runs, Nat.add_zero]
    rfl
  case parking =>
    intro m stands
    cases stands
    refine ⟨s.claimed _, ?_, on, rfl⟩
    exact (Broker.slot?_change_of_found found (Slot.claimed _) (fun _ => rfl) _).trans (if_pos rfl)
  case events => exact inv.events_noted _
  case gone => exact inv.gone_of_claim found on rfl _ rfl rfl

theorem after_delivering {event : Report}
    (judged : q.judge (s.claimed time).message = .deliver event)
    (allowed : ¬ q.maxAttempts < s.attempt + 1) (holds : decode? s.payload = some event) :
    Counted q (t.advance q now .receiving) := by
  have recorded := inv.recorded_advance now .receiving
  have given := attempts_of_delivered t (t.advance q now .receiving)
    (d := q.delivery (s.claimed time).message event) (by rw [advance_delivers made judged])
  rw [advance_delivers made judged] at recorded given ⊢
  have within : (s.attempt + 1).toNat ≤ q.maxAttempts.toNat := by
    rw [UInt32.lt_iff_toNat_lt] at allowed
    exact Nat.le_of_not_lt allowed
  constructor
  case recorded => exact recorded
  case numbered =>
    intro id
    rw [given id]
    split
    · next same =>
      obtain rfl : s.id = id := same
      rw [List.length_append, List.length_singleton, List.range'_1_concat, ← inv.numbered s.id]
      show _ ++ [(s.attempt + 1).toNat] = _
      rw [exactly, Nat.add_comm 1]
    · exact inv.numbered id
  case bounded =>
    intro id
    rw [given id]
    split
    · next same =>
      obtain rfl : s.id = id := same
      rw [List.length_append, List.length_singleton, ← exactly]
      exact within
    · exact inv.bounded id
  case queued =>
    refine inv.queued_of_claim found rfl exactly (fun id => ?_) runs
    rw [given id, condemned_receiving runs, condemned_idle rfl]
    show (if s.id = id then _ else _ : List Nat).length + 0 = _
    split
    · rw [List.length_append, List.length_singleton]
    · rfl
  case parking =>
    intro m stands
    cases stands
  case events =>
    intro d member
    rcases List.mem_append.1 member with old | new
    · exact inv.events_noted _ d old
    · obtain rfl := List.mem_singleton.1 new
      exact ⟨rfl, s.payload, (inv.recorded.carries_of_slot? found).append _, holds⟩
  case gone => exact inv.gone_of_claim found on rfl _ rfl rfl

end

theorem advance_receiving (inv : Counted q t) (limit : q.maxAttempts.toNat < 2 ^ 32 - 1)
    (runs : t.pop = some .receiving) (now : Reading) : Counted q (t.advance q now .receiving) := by
  rcases inv.receive limit runs now with ⟨claim, made, nothing⟩ | ⟨s, found, on, exactly, made⟩
  · exact inv.after_nothing runs made nothing
  · rcases q.judge_cases (s.claimed (now.steady + q.timeout)).message with
      ⟨warning, judged, -⟩ | ⟨event, judged, allowed, holds⟩
    · exact inv.after_condemning runs found on exactly made judged
    · exact inv.after_delivering runs found on exactly made judged allowed holds

theorem advance_parking (inv : Counted q t) (runs : t.pop = some (.parking m)) (now : Reading) :
    Counted q (t.advance q now (.parking m)) := by
  have recorded := inv.recorded_advance now (.parking m)
  obtain ⟨s, found, on, rfl, made⟩ := inv.deadLetter runs now
  have slot (id : MessageId) := Broker.slot?_change_of_found found
    (Slot.moved q.deadName now.steady) (fun _ => rfl) id
  rw [advance_parks made] at recorded ⊢
  constructor
  case recorded => exact recorded
  case numbered => exact inv.numbered
  case bounded => exact inv.bounded
  case queued =>
    intro id s' found' on'
    rw [slot id] at found'
    by_cases same : id = s.id
    · rw [if_pos same] at found'
      cases found'
      exact absurd on'.symm q.name_ne_deadName
    · rw [if_neg same] at found'
      have counted := inv.queued id s' found' on'
      have other : ¬ s.message.id = id := Ne.symm same
      rw [condemned_parking runs, if_neg other] at counted
      exact counted
  case parking =>
    intro m stands
    cases stands
  case events => exact inv.events_noted _
  case gone =>
    intro id member
    rcases List.mem_append.1 member with old | new
    · obtain ⟨known, off⟩ := inv.gone id old
      refine ⟨mem_noted _ known, fun s' found' => ?_⟩
      have apart : id ≠ s.id := by
        rintro rfl
        exact off s found on
      rw [slot id, if_neg apart] at found'
      exact off s' found'
    · obtain rfl := List.mem_singleton.1 new
      refine ⟨mem_noted _ (inv.recorded.of_slot? found).1, fun s' found' => ?_⟩
      rw [slot s.message.id, if_pos (show s.message.id = s.id from rfl)] at found'
      cases found'
      exact q.name_ne_deadName.symm

theorem step (inv : Counted q t) (limit : q.maxAttempts.toNat < 2 ^ 32 - 1) (made : Step q t t') :
    Counted q t' := by
  have still (idle : t.pop = none) (now : Reading) (c : Command) :
      ∀ m, t.pop = some (.parking m) → (t.call now c).broker.slot? m.id = t.broker.slot? m.id := by
    intro m runs
    rw [idle] at runs
    cases runs
  cases made with
  | use made =>
    cases made with
    | push now r idle =>
      exact inv.call (c := .publish q.name (q.payload r)) now trivial (still idle _ _)
    | begin idle => exact inv.begin idle
    | advance now p runs =>
      cases p with
      | receiving => exact inv.advance_receiving limit runs now
      | parking m => exact inv.advance_parking runs now
    | ack now d given idle =>
      exact inv.call (c := .ack d.queue d.id) now trivial (still idle _ _)
    | nack now d given idle =>
      exact inv.call (c := .nack d.queue d.id) now trivial (still idle _ _)
  | other now c spares =>
    refine inv.call now spares.claimsNone fun m runs => ?_
    obtain ⟨s, found, on, -⟩ := inv.parking m runs
    apply (t.broker.perform_effect now c).slot?_of_off
    · intro new
      rw [new, Broker.slot?_nextId] at found
      cases found
    · intro s' found'
      rw [found] at found'
      cases found'
      rw [on]
      exact spares.1

theorem leads (inv : Counted q t) (limit : q.maxAttempts.toNat < 2 ^ 32 - 1) (run : Leads q t t') :
    Counted q t' := by
  induction run with
  | refl => exact inv
  | tail _ made ih => exact ih.step limit made

/-! ## Pops end well -/

/-- A call that ends a pop ends it with a delivery or with nothing, unless the clock does not reach
    the end of the claim. -/
theorem ok_of_done (inv : Counted q t) {p : Pop} {result : Popped} {logs : List LogRecord}
    (runs : t.pop = some p) (made : p.step q now t.broker = (.done result, b, logs)) :
    (∃ d?, result = .ok d?) ∨ ¬ now.Reaches q.timeout ∧ result = .error (.queue .overflow) := by
  cases p with
  | receiving =>
    simp only [Pop.step, QueueBackend.receive] at made
    rcases t.broker.receive_cases now q.name q.timeout with
      ⟨-, claim⟩ | ⟨-, -, -, -, beyond, claim⟩ | ⟨id, s, -, -, -, -, claim⟩
    · simp only [claim] at made
      cases made
      exact .inl ⟨none, rfl⟩
    · simp only [claim] at made
      cases made
      exact .inr ⟨beyond, rfl⟩
    · simp only [claim] at made
      split at made
      · cases made
        exact .inl ⟨_, rfl⟩
      · cases made
  | parking m =>
    obtain ⟨s, -, -, -, moved⟩ := inv.deadLetter runs now
    simp only [Pop.step, QueueBackend.deadLetter, moved] at made
    cases made

theorem finish_ok (inv : Counted q t) (limit : q.maxAttempts.toNat < 2 ^ 32 - 1) (now : Reading)
    {p : Pop} (here : t.broker = b) (runs : t.pop = some p) :
    (∃ d?, (p.finish q now b).1 = .ok d?) ∨
      ¬ now.Reaches q.timeout ∧ (p.finish q now b).1 = .error (.queue .overflow) := by
  fun_induction Pop.finish q now p b generalizing t with
  | case1 p b result after logs made =>
    subst here
    exact inv.ok_of_done runs made
  | case2 p b next after logs made result last more rest ih =>
    subst here
    have led : (t.advance q now p).broker = after := by simp only [advance, made]
    have runs' : (t.advance q now p).pop = some next := by simp only [advance, made, nextOf]
    have later := inv.step limit (.use (.advance t now p runs))
    have ended := ih later led runs'
    rw [rest] at ended
    exact ended

/-! ## Parked messages -/

/-- No call of the queue touches a parked message. -/
theorem slot?_of_use (inv : Counted q t) (parked : id ∈ t.parked) (made : Use q t t') :
    t'.broker.slot? id = t.broker.slot? id := by
  obtain ⟨known, off⟩ := inv.gone id parked
  have untouched (now : Reading) (c : Command)
      (within : c.source? = none ∨ c.source? = some q.name) :
      (t.broker.perform now c).2.slot? id = t.broker.slot? id := by
    apply (t.broker.perform_effect now c).slot?_of_off
    · intro new
      rw [new] at known
      exact inv.recorded.nextId_notMem known
    · intro s found on
      rcases within with none | same
      · rw [none] at on
        cases on
      · rw [same] at on
        exact off s found (Option.some.inj on).symm
  cases made with
  | push now r idle => exact untouched now (.publish q.name (q.payload r)) (.inl rfl)
  | begin idle => rfl
  | advance now p runs =>
    rw [advance_broker]
    apply untouched
    cases p <;> exact .inr rfl
  | ack now d given idle =>
    exact untouched now (.ack d.queue d.id) (.inr (congrArg some (inv.events d given).1))
  | nack now d given idle =>
    exact untouched now (.nack d.queue d.id) (.inr (congrArg some (inv.events d given).1))

/-- A parked message stays parked, and nothing more is delivered of it. -/
theorem parked_step (inv : Counted q t) (limit : q.maxAttempts.toNat < 2 ^ 32 - 1)
    (parked : id ∈ t.parked) (made : Step q t t') :
    id ∈ t'.parked ∧ t'.attempts id = t.attempts id := by
  cases made with
  | use made =>
    cases made with
    | advance now p runs =>
      refine ⟨List.mem_append_left _ parked, ?_⟩
      cases p with
      | receiving =>
        rcases inv.receive limit runs now with ⟨claim, made, nothing⟩ | ⟨s, found, on, -, made⟩
        · rw [advance_nothing made nothing]
          rfl
        · rcases q.judge_cases (s.claimed (now.steady + q.timeout)).message with
            ⟨warning, judged, -⟩ | ⟨event, judged, -⟩
          · rw [advance_condemns made judged]
            rfl
          · have apart : s.id ≠ id := by
              rintro rfl
              exact (inv.gone s.id parked).2 s found on
            have given := attempts_of_delivered t (t.advance q now .receiving)
              (d := q.delivery (s.claimed (now.steady + q.timeout)).message event)
              (by rw [advance_delivers made judged]) id
            exact given.trans (if_neg apart)
      | parking m =>
        obtain ⟨s, -, -, -, moved⟩ := inv.deadLetter runs now
        rw [advance_parks moved]
        rfl
    | _ => exact ⟨parked, rfl⟩
  | other now c spares => exact ⟨parked, rfl⟩

theorem parked_leads (inv : Counted q t) (limit : q.maxAttempts.toNat < 2 ^ 32 - 1)
    (parked : id ∈ t.parked) (run : Leads q t t') :
    id ∈ t'.parked ∧ t'.attempts id = t.attempts id := by
  induction run with
  | refl => exact ⟨parked, rfl⟩
  | tail before made ih =>
    obtain ⟨stays, same⟩ := (inv.leads limit before).parked_step limit ih.1 made
    exact ⟨stays, same.trans ih.2⟩

/-- An old delivery of a parked message does nothing. -/
theorem refused (inv : Counted q t) (parked : id ∈ t.parked) {d : Delivery}
    (given : d ∈ t.delivered) (same : d.id = id) (now : Reading) :
    d.ack t.broker = (.error (.queue (.unknownMessage d.queue id)), t.broker) ∧
      d.nack now t.broker = (.error (.queue (.unknownMessage d.queue id)), t.broker) := by
  subst same
  have refuse (after : Broker) : t.broker.ifHeld d.queue d.id after =
      (.error (.unknownMessage d.queue d.id), t.broker) := by
    rcases t.broker.ifHeld_cases d.queue d.id after with ⟨s, found, on, -⟩ | ⟨-, made⟩
    · rw [(inv.events d given).1] at on
      exact absurd on ((inv.gone d.id parked).2 s found)
    · exact made
  constructor
  · simp only [Delivery.ack, QueueBackend.ack, Broker.ack, refuse, crossing]
    rfl
  · simp only [Delivery.nack, QueueBackend.nack, Broker.nack, refuse, crossing]
    rfl

/-- What a pop makes of a message that it claims. -/
theorem claimed (inv : Counted q t) (limit : q.maxAttempts.toNat < 2 ^ 32 - 1)
    (runs : t.pop = some .receiving)
    (made : t.broker.receive now q.name q.timeout = (.ok (some m), b)) :
    t.history.Carries m.id m.payload ∧ m.attempt.toNat = (t.attempts m.id).length + 1 ∧
    (decode? m.payload = none ∨ (t.attempts m.id).length = q.maxAttempts.toNat →
      (t.advance q now .receiving).pop = some (.parking m) ∧
      (t.advance q now .receiving).delivered = t.delivered) ∧
    (∀ event, decode? m.payload = some event → (t.attempts m.id).length < q.maxAttempts.toNat →
      (t.advance q now .receiving).pop = none ∧
      (t.advance q now .receiving).delivered = t.delivered ++ [q.delivery m event]) := by
  rcases inv.receive limit runs now with ⟨_, claims, nothing⟩ | ⟨s, found, on, exactly, claims⟩
  · rw [claims] at made
    cases made
    exact absurd rfl (nothing m)
  · rw [claims] at made
    cases made
    have exhausted : q.maxAttempts < (s.claimed (now.steady + q.timeout)).message.attempt ↔
        q.maxAttempts.toNat < (t.attempts s.id).length + 1 := by
      rw [UInt32.lt_iff_toNat_lt, ← exactly]
      rfl
    have published : t.history.Carries s.id s.payload := inv.recorded.carries_of_slot? found
    refine ⟨published, exactly, ?_, ?_⟩
    · rcases q.judge_cases (s.claimed (now.steady + q.timeout)).message with
        ⟨warning, judged, -⟩ | ⟨event, judged, allowed, holds⟩
      · intro _
        rw [advance_condemns claims judged]
        exact ⟨rfl, rfl⟩
      · rintro (undecodable | spent)
        · rw [undecodable] at holds
          cases holds
        · have spent' : (t.attempts s.id).length = q.maxAttempts.toNat := spent
          exact absurd (exhausted.2 (by omega)) allowed
    · intro event holds left
      have left' : (t.attempts s.id).length < q.maxAttempts.toNat := left
      rcases q.judge_cases (s.claimed (now.steady + q.timeout)).message with
        ⟨warning, judged, exceeds | undecodable⟩ | ⟨event', judged, -, holds'⟩
      · exact absurd (exhausted.1 exceeds) (by omega)
      · rw [undecodable] at holds
        cases holds
      · rw [holds] at holds'
        cases holds'
        rw [advance_delivers claims judged]
        exact ⟨rfl, rfl⟩

/-- A message that is parked stands on the other queue as it was published. -/
theorem parks (inv : Counted q t) (runs : t.pop = some (.parking m)) (now : Reading) :
    t.history.Carries m.id m.payload ∧
    (t.advance q now (.parking m)).pop = some .receiving ∧
    (t.advance q now (.parking m)).parked = t.parked ++ [m.id] ∧
    (t.advance q now (.parking m)).broker.slot? m.id =
      some ⟨m.id, q.deadName, m.payload, 0, m.enqueuedAt, now.steady⟩ := by
  obtain ⟨s, found, on, rfl, made⟩ := inv.deadLetter runs now
  rw [advance_parks made]
  refine ⟨inv.recorded.carries_of_slot? found, rfl, rfl, ?_⟩
  exact (Broker.slot?_change_of_found found (Slot.moved _ _) (fun _ => rfl) _).trans (if_pos rfl)

end Counted

/-- A message is delivered at most as often as allowed, and then parked for good.  Its deliveries
    carry the attempts 1, 2, 3 and so on, and its attempts are never counted beyond one more than
    allowed.  A pop that claims a message parks it if it holds no report or was delivered as often as
    allowed, as it was published and with its attempts back at zero, and else delivers it.  A pop
    only fails if the clock does not reach the end of a claim; then it delivers nothing.  A parked
    message is never delivered again, and no call of the queue changes it. -/
theorem poison_parked (q : EventQueue) (t : Traffic) (limit : q.maxAttempts.toNat < 2 ^ 32 - 1)
    (reached : Reachable q t) :
    (∀ id, ∃ n ≤ q.maxAttempts.toNat, t.attempts id = List.range' 1 n) ∧
    (∀ id payload, t.history.Carries id payload → decode? payload = none → t.attempts id = []) ∧
    (∀ id s, t.broker.slot? id = some s → s.queue = q.name →
      s.attempt.toNat ≤ q.maxAttempts.toNat + 1) ∧
    (∀ now m b, t.pop = some .receiving →
      t.broker.receive now q.name q.timeout = (.ok (some m), b) →
      t.history.Carries m.id m.payload ∧ m.attempt.toNat = (t.attempts m.id).length + 1 ∧
      (decode? m.payload = none ∨ (t.attempts m.id).length = q.maxAttempts.toNat →
        (t.advance q now .receiving).pop = some (.parking m) ∧
        (t.advance q now .receiving).delivered = t.delivered) ∧
      (∀ event, decode? m.payload = some event → (t.attempts m.id).length < q.maxAttempts.toNat →
        (t.advance q now .receiving).pop = none ∧
        (t.advance q now .receiving).delivered = t.delivered ++ [q.delivery m event])) ∧
    (∀ now m, t.pop = some (.parking m) →
      t.history.Carries m.id m.payload ∧
      (t.advance q now (.parking m)).pop = some .receiving ∧
      (t.advance q now (.parking m)).parked = t.parked ++ [m.id] ∧
      (t.advance q now (.parking m)).broker.slot? m.id =
        some ⟨m.id, q.deadName, m.payload, 0, m.enqueuedAt, now.steady⟩) ∧
    (∀ now, t.pop = none → ∃ t', Leads q t t' ∧ t'.pop = none ∧
      t'.broker = (q.pop now t.broker).2.1 ∧
      ((∃ d?, (q.pop now t.broker).1 = .ok d? ∧ t'.delivered = t.delivered ++ d?.toList) ∨
        ¬ now.Reaches q.timeout ∧ (q.pop now t.broker).1 = .error (.queue .overflow) ∧
          t'.delivered = t.delivered)) ∧
    (∀ id ∈ t.parked,
      (∀ t', Leads q t t' → id ∈ t'.parked ∧ t'.attempts id = t.attempts id) ∧
      (∀ t', Use q t t' → t'.broker.slot? id = t.broker.slot? id) ∧
      (∀ d ∈ t.delivered, d.id = id → ∀ now,
        d.ack t.broker = (.error (.queue (.unknownMessage d.queue id)), t.broker) ∧
        d.nack now t.broker = (.error (.queue (.unknownMessage d.queue id)), t.broker))) := by
  have inv : Counted q t := Counted.start.leads limit reached
  refine ⟨fun id => ⟨_, inv.bounded id, inv.numbered id⟩, ?_, ?_, ?_, ?_, ?_, ?_⟩
  · intro id payload carries undecodable
    have none : (t.delivered.filter fun d => d.id = id) = [] := by
      refine List.filter_eq_nil_iff.2 fun d given same => ?_
      obtain ⟨-, payload', carries', holds⟩ := inv.events d given
      rw [of_decide_eq_true same] at carries'
      rw [inv.recorded.payload_unique carries' carries, undecodable] at holds
      cases holds
    rw [attempts, none, List.map_nil]
  · intro id s found on
    have bound := inv.bounded id
    have one : t.condemned id ≤ 1 := by
      unfold condemned
      split
      · split <;> omega
      · exact Nat.zero_le 1
    rw [inv.queued id s found on]
    omega
  · intro now m b runs made
    exact inv.claimed limit runs made
  · intro now m runs
    exact inv.parks runs now
  · intro now idle
    obtain ⟨t', run, ends, last, given⟩ := pop_leads q now t idle
    refine ⟨t', run, ends, last, ?_⟩
    rcases (inv.begin idle).finish_ok limit now rfl rfl with ⟨d?, ended⟩ | ⟨beyond, failed⟩
    · have result : (q.pop now t.broker).1 = .ok d? := ended
      refine .inl ⟨d?, result, ?_⟩
      rw [given, result]
      cases d? <;> rfl
    · have result : (q.pop now t.broker).1 = .error (.queue .overflow) := failed
      refine .inr ⟨beyond, result, ?_⟩
      rw [given, result]
      exact List.append_nil _
  · intro id parked
    exact ⟨fun t' => inv.parked_leads limit parked, fun t' => inv.slot?_of_use parked,
      fun d given same now => inv.refused parked given same now⟩

/-- A queue that delivers a message once. -/
def once : EventQueue where
  name := "errors"
  compressor := .stored
  compression := 0
  maxAttempts := 1
  timeoutSecs := 30
  compression_le := by decide
  maxAttempts_ne_zero := by decide

/-- A report that is never processed. -/
def fatal : Report where
  eventId := "e1"
  message := "out of memory"
  level := .error
  logger := ""
  serverName := ""
  culprit := ""
  platform := ""
  release := ""
  version := "2.0"
  project := none
  datetime := .epoch
  checksum := "c1"

theorem decode?_fatal : decode? (once.payload fatal) = some fatal := by
  have canonical : fatal.IsCanonical := by
    refine ⟨fun m member => ?_, fun p named => ?_, fun ms told => ?_⟩
    · cases member
    · cases named
    · cases told
  have reads : fatal.ReadsBack := by decide +kernel
  exact (decode?_encode canonical reads .stored 0).2 (by decide +kernel)

section

variable (payload : Bytes)

/-- The first message as it is claimed for the so many-th time. -/
def firstMessage (attempt : UInt32) : Message := ⟨⟨1⟩, payload, attempt, .epoch⟩

/-- A message is published and claimed. -/
def failing : Traffic :=
  ((start.call (.atEpoch 0) (.publish "errors" payload)).begin).advance once (.atEpoch 1) .receiving

/-- It is given back and claimed again. -/
def condemning : Traffic :=
  (((failing payload).call (.atEpoch 2) (.nack "errors" ⟨1⟩)).begin).advance once (.atEpoch 3)
    .receiving

/-- It is parked. -/
def spent : Traffic := (condemning payload).advance once (.atEpoch 4) (.parking (firstMessage payload 2))

variable {payload} {event : Report} (holds : decode? payload = some event)
include holds

theorem judge_first : once.judge (firstMessage payload 1) = .deliver event := by
  have allowed : ¬ once.maxAttempts < (1 : UInt32) := by decide
  rw [judge, firstMessage, if_neg allowed, holds]

omit holds in
theorem judge_second : once.judge (firstMessage payload 2) =
    .park (.attemptsExhausted "errors" ⟨1⟩ 2 1) := by
  have exhausted : once.maxAttempts < (2 : UInt32) := by decide
  rw [judge, firstMessage, if_pos exhausted]
  rfl

/-- The clock reaches the end of the first claim. -/
theorem failing_eq : failing payload = { (start.call (.atEpoch 0) (.publish "errors" payload)) with
    broker := (start.call (.atEpoch 0) (.publish "errors" payload)).broker.change ⟨1⟩
      (Slot.claimed (1 + once.timeout)) fun _ => rfl
    history := (start.call (.atEpoch 0) (.publish "errors" payload)).noted (.atEpoch 1)
      (.receive "errors" once.timeout)
    delivered := [once.delivery (firstMessage payload 1) event] } := by
  have reaches : Reading.Reaches (.atEpoch 1) once.timeout := by decide
  exact advance_delivers (m := firstMessage payload 1)
    (Broker.receive_of_first (s := ⟨⟨1⟩, "errors", payload, 0, .epoch, 0⟩) rfl reaches)
    (judge_first holds)

theorem failing_ends : (failing payload).pop = none ∧
    (failing payload).delivered = [once.delivery (firstMessage payload 1) event] := by
  rw [failing_eq holds]
  exact ⟨rfl, rfl⟩

theorem condemning_stands :
    (condemning payload).pop = some (.parking (firstMessage payload 2)) := by
  have reaches : Reading.Reaches (.atEpoch 3) once.timeout := by decide
  rw [condemning, failing_eq holds, advance_condemns (m := firstMessage payload 2)
    (Broker.receive_of_first (s := ⟨⟨1⟩, "errors", payload, 1, .epoch, 2⟩) rfl reaches) judge_second]

theorem reachable_condemning (pushed : Reachable once (start.call (.atEpoch 0)
    (.publish "errors" payload))) : Reachable once (condemning payload) := by
  have first : Reachable once (failing payload) :=
    .tail (.tail pushed (.use (.begin _ rfl))) (.use (.advance _ (.atEpoch 1) .receiving rfl))
  obtain ⟨idle, delivered⟩ := failing_ends holds
  have given : once.delivery (firstMessage payload 1) event ∈ (failing payload).delivered := by
    rw [delivered]
    exact List.mem_singleton_self _
  have freed : Step once (failing payload) ((failing payload).call (.atEpoch 2) (.nack "errors" ⟨1⟩)) :=
    .use (.nack _ (.atEpoch 2) _ given idle)
  exact .tail (.tail (.tail first freed) (.use (.begin _ idle)))
    (.use (.advance _ (.atEpoch 3) .receiving rfl))

end

/-- The message was delivered once.  It is parked as it was published, and stays parked. -/
theorem poison_parked_spent :
    once.maxAttempts.toNat < 2 ^ 32 - 1 ∧
    Reachable once (condemning (once.payload fatal)) ∧ Reachable once (spent (once.payload fatal)) ∧
    (∃ n ≤ 1, (spent (once.payload fatal)).attempts ⟨1⟩ = List.range' 1 n) ∧
    (spent (once.payload fatal)).broker.slot? ⟨1⟩ =
      some ⟨⟨1⟩, once.deadName, once.payload fatal, 0, .epoch, 4⟩ ∧
    ∀ t', Leads once (spent (once.payload fatal)) t' →
      ⟨1⟩ ∈ t'.parked ∧ t'.attempts ⟨1⟩ = (spent (once.payload fatal)).attempts ⟨1⟩ := by
  have limit : once.maxAttempts.toNat < 2 ^ 32 - 1 := by decide
  have pushed : Reachable once (start.call (.atEpoch 0) (.publish "errors" (once.payload fatal))) :=
    .single (.use (.push start (.atEpoch 0) fatal rfl))
  have before := reachable_condemning decode?_fatal pushed
  have stands := condemning_stands decode?_fatal
  have after : Reachable once (spent (once.payload fatal)) :=
    .tail before (.use (.advance _ (.atEpoch 4) _ stands))
  obtain ⟨-, -, -, -, parks, -, -⟩ := poison_parked once _ limit before
  obtain ⟨-, -, list, slot⟩ := parks (.atEpoch 4) _ stands
  obtain ⟨numbered, -, -, -, -, -, kept⟩ := poison_parked once _ limit after
  have parked : ⟨1⟩ ∈ (spent (once.payload fatal)).parked := by
    rw [spent, list]
    exact List.mem_append_right _ (List.mem_singleton_self _)
  exact ⟨limit, before, after, numbered ⟨1⟩, slot, (kept ⟨1⟩ parked).1⟩

end EventQueue.Traffic

end ErrorIntake
