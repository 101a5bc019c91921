import ErrorIntake.Proofs.EventQueue.Delivery
import ErrorIntake.Proofs.EventQueue.Poison

/-!
# What a pop skips

A pop looks for its report in the queue that it changes while it looks.  When nobody else acts it
skips the messages in front of the first one that passes for usable, and these are all it moves: a
message that it parks is on another queue then, so the search goes on with the rest of the visible
messages.  A message passes for usable if it is, and also if its attempts have used up their counter.
-/

namespace ErrorIntake

open Calendar (Reading)
open Queue (Broker Command Message QueueBackend Slot)

section

variable {σ : Type} [QueueBackend σ]

/-- The calls of the backend that a pop makes from where it stands up to its end. -/
def Pop.calls (q : EventQueue) (now : Reading) (p : Pop) (s : σ) : List Command :=
  match _h : p.step q now s with
  | (.done _, _, _) => [p.command q]
  | (.more next, after, _) => p.command q :: next.calls q now after
termination_by (QueueBackend.backlog q.name s, p.rank)
decreasing_by exact Pop.step_decreases _h

variable {q : EventQueue} {now : Reading} {p next : Pop} {s after : σ} {logs : List LogRecord}

theorem Pop.calls_done {result : Popped} (h : p.step q now s = (.done result, after, logs)) :
    p.calls q now s = [p.command q] := by
  rw [calls]
  split
  · rfl
  · next made =>
    rw [h] at made
    cases made

theorem Pop.calls_more (h : p.step q now s = (.more next, after, logs)) :
    p.calls q now s = p.command q :: next.calls q now after := by
  rw [calls]
  split
  · next made =>
    rw [h] at made
    cases made
  · next made =>
    rw [h] at made
    cases made
    rfl

end

/-- A step of a pop on a broker is the call that it names. -/
theorem Pop.step_broker (q : EventQueue) (now : Reading) (p : Pop) (b : Broker) :
    (p.step q now b).2.1 = (b.perform now (p.command q)).2 :=
  EventQueue.Traffic.advance_broker q now p ⟨b, [], none, [], []⟩

/-- What a pop leaves is the broker after its calls. -/
theorem Pop.finish_broker (q : EventQueue) (now : Reading) (p : Pop) (b : Broker) :
    (p.finish q now b).2.1 = b.after ((p.calls q now b).map fun c => (now, c)) := by
  fun_induction Pop.finish q now p b with
  | case1 p b result after logs made =>
    have called := p.step_broker q now b
    rw [made] at called
    rw [Pop.calls_done made]
    exact called
  | case2 p b next after logs made result last more rest ih =>
    have called := p.step_broker q now b
    rw [made] at called
    rw [rest] at ih
    rw [Pop.calls_more made, List.map_cons]
    show last = (b.perform now (p.command q)).2.after _
    rw [← called]
    exact ih

namespace EventQueue

/-! ## Usable messages -/

/-- The slot's message may be delivered once more, and holds a report. -/
def isUsable (q : EventQueue) (s : Slot) : Bool :=
  decide (s.attempt.toNat + 1 ≤ q.maxAttempts.toNat) && (decode? s.payload).isSome

/-- The slot's message passes for usable when it is claimed.  The counter of its attempts has 32
    bits, so the last attempt that it can count is followed by none. -/
def passes (q : EventQueue) (s : Slot) : Bool :=
  decide (s.attempt + 1 ≤ q.maxAttempts) && (decode? s.payload).isSome

/-- The messages of a queue that a consumer can claim at this time, in the order of their ids. -/
def visible (q : EventQueue) (now : Reading) (b : Broker) : List Slot :=
  b.slots.filter (Slot.isAvailable q.name now.steady)

/-- The messages in front of the first one that passes, or all if none does. -/
def skipped (q : EventQueue) (visible : List Slot) : List Slot :=
  visible.takeWhile fun s => !q.passes s

/-- The first message that passes. -/
def chosen? (q : EventQueue) (visible : List Slot) : Option Slot := visible.find? q.passes

/-- What is logged of a message that is skipped. -/
def skipRecord (q : EventQueue) (s : Slot) : LogRecord :=
  if q.maxAttempts < s.attempt + 1 then
    .attemptsExhausted q.name s.id (s.attempt + 1).toNat q.maxAttempts.toNat
  else
    .undecodable q.name s.id

/-- What is to be logged of a message that is not usable. -/
def dueRecord (q : EventQueue) (s : Slot) : LogRecord :=
  if q.maxAttempts.toNat < s.attempt.toNat + 1 then
    .attemptsExhausted q.name s.id (s.attempt.toNat + 1) q.maxAttempts.toNat
  else
    .undecodable q.name s.id

/-- The calls that skip a message. -/
def skipCalls (q : EventQueue) (s : Slot) : List Command :=
  [.receive q.name q.timeout, .deadLetter q.name s.id q.deadName]

/-- What becomes of a slot when a pop sees these messages: it parks the skipped ones, hides the
    chosen one, and leaves all others alone. -/
def fate (q : EventQueue) (now : Reading) (visible : List Slot) (s : Slot) : Slot :=
  if s ∈ q.skipped visible then s.moved q.deadName now.steady
  else if q.chosen? visible = some s then s.claimed (now.steady + q.timeout)
  else s

/-- What a pop answers when it sees these messages. -/
def Answers (q : EventQueue) (visible : List Slot) (result : Popped) : Prop :=
  match q.chosen? visible with
  | some s => ∃ event, decode? s.payload = some event ∧
      result = .ok (some ⟨event, s.id, s.attempt + 1, q.name⟩)
  | none => result = .ok none

variable {q : EventQueue} {now : Reading} {b : Broker} {s : Slot} {rest : List Slot}

theorem skipped_cons_of_passing (good : q.passes s = true) : q.skipped (s :: rest) = [] := by
  simp [skipped, good]

theorem chosen?_cons_of_passing (good : q.passes s = true) :
    q.chosen? (s :: rest) = some s := by
  simp [chosen?, good]

theorem skipped_cons_of_failing (bad : q.passes s = false) :
    q.skipped (s :: rest) = s :: q.skipped rest := by
  simp [skipped, bad]

theorem chosen?_cons_of_failing (bad : q.passes s = false) :
    q.chosen? (s :: rest) = q.chosen? rest := by
  simp [chosen?, bad]

/-- The skipped messages are all that stand in front of the chosen one. -/
theorem visible_of_chosen (q : EventQueue) (visible : List Slot) :
    match q.chosen? visible with
    | some s => ∃ later, visible = q.skipped visible ++ s :: later
    | none => visible = q.skipped visible := by
  induction visible with
  | nil => rfl
  | cons s rest ih =>
    cases good : q.passes s with
    | true =>
      rw [chosen?_cons_of_passing good, skipped_cons_of_passing good]
      exact ⟨rest, rfl⟩
    | false =>
      rw [chosen?_cons_of_failing good, skipped_cons_of_failing good]
      revert ih
      cases q.chosen? rest with
      | none => exact fun ih => congrArg (s :: ·) ih
      | some t => exact fun ⟨later, ih⟩ => ⟨later, congrArg (s :: ·) ih⟩

/-- While the counter of its attempts is not used up, a message passes if it is usable, and is logged
    as it should be. -/
theorem passes_eq_isUsable (counts : s.attempt.toNat + 1 < 2 ^ 32) :
    q.passes s = q.isUsable s ∧ q.skipRecord s = q.dueRecord s := by
  have next : (s.attempt + 1).toNat = s.attempt.toNat + 1 := by
    rw [UInt32.toNat_add]
    exact Nat.mod_eq_of_lt counts
  simp only [passes, isUsable, skipRecord, dueRecord, UInt32.le_iff_toNat_le,
    UInt32.lt_iff_toNat_lt, next, and_self]

/-- A message whose attempts have used up the counter is not usable, but passes if it holds a
    report. -/
theorem passes_of_wrapped (wraps : s.attempt.toNat + 1 = 2 ^ 32) :
    q.isUsable s = false ∧ q.passes s = (decode? s.payload).isSome ∧
      q.skipRecord s = .undecodable q.name s.id := by
  have next : s.attempt + 1 = 0 := by
    rw [← UInt32.toNat_inj, UInt32.toNat_add]
    show (s.attempt.toNat + 1) % 2 ^ 32 = 0
    rw [wraps, Nat.mod_self]
  have limit : ¬ s.attempt.toNat + 1 ≤ q.maxAttempts.toNat := by
    rw [wraps]
    exact Nat.not_le.2 q.maxAttempts.toNat_lt
  have least : (0 : UInt32) ≤ q.maxAttempts := UInt32.le_iff_toNat_le.2 (Nat.zero_le _)
  refine ⟨by simp [isUsable, limit], by simp [passes, next, least], ?_⟩
  rw [skipRecord, next, if_neg (UInt32.not_lt.2 least)]

/-- A message that passes is delivered when it is claimed. -/
theorem judge_claimed_of_passing (time : Nat) (good : q.passes s = true) :
    ∃ event, decode? s.payload = some event ∧
      q.judge (s.claimed time).message = .deliver event := by
  simp only [passes, Bool.and_eq_true, decide_eq_true_eq, Option.isSome_iff_exists] at good
  obtain ⟨allowed, event, holds⟩ := good
  have below : ¬ q.maxAttempts < (s.claimed time).message.attempt := UInt32.not_lt.2 allowed
  have stands : decode? (s.claimed time).message.payload = some event := holds
  refine ⟨event, holds, ?_⟩
  rw [judge, if_neg below, stands]

/-- Any other message is parked when it is claimed, and the limit is the cause that counts. -/
theorem judge_claimed_of_failing (time : Nat) (bad : q.passes s = false) :
    q.judge (s.claimed time).message = .park (q.skipRecord s) := by
  unfold judge skipRecord
  by_cases spent : q.maxAttempts < s.attempt + 1
  · exact (if_pos spent).trans (by rw [if_pos spent]; rfl)
  · have allowed : s.attempt + 1 ≤ q.maxAttempts := UInt32.not_lt.1 spent
    have garbled : decode? s.payload = none := by
      simpa [passes, allowed] using bad
    have stands : decode? (s.claimed time).message.payload = none := garbled
    rw [stands, if_neg spent]
    exact if_neg spent

/-! ## One message of the search -/

/-- The broker once a message is skipped. -/
def skip (q : EventQueue) (now : Reading) (b : Broker) (s : Slot) : Broker :=
  b.change s.id (Slot.moved q.deadName now.steady) fun _ => rfl

theorem first_of_visible (sees : q.visible now b = s :: rest) :
    b.slots.find? (Slot.isAvailable q.name now.steady) = some s := by
  rw [← List.head?_filter, ← visible, sees, List.head?_cons]

theorem receive_of_visible (sees : q.visible now b = s :: rest)
    (reaches : now.Reaches q.timeout) :
    b.receive now q.name q.timeout = (.ok (some (s.claimed (now.steady + q.timeout)).message),
      b.change s.id (Slot.claimed (now.steady + q.timeout)) fun _ => rfl) :=
  Broker.receive_of_first (first_of_visible sees) reaches

theorem slot?_of_visible (sees : q.visible now b = s :: rest) :
    b.slot? s.id = some s ∧ s.queue = q.name := by
  have member : s ∈ q.visible now b := sees ▸ List.mem_cons_self
  obtain ⟨stands, available⟩ := List.mem_filter.1 member
  exact ⟨Broker.slot?_eq_some_iff.2 ⟨stands, rfl⟩, (Slot.isAvailable_iff.1 available).1⟩

/-- When nothing is visible, the pop ends with nothing. -/
theorem step_nothing (sees : q.visible now b = []) :
    Pop.step q now .receiving b = (.done (.ok none), b, []) := by
  have nothing : b.receive now q.name q.timeout = (.ok none, b) := by
    have none : b.slots.find? (Slot.isAvailable q.name now.steady) = none := by
      rw [← List.head?_filter, ← visible, sees, List.head?_nil]
    rw [Broker.receive, none]
  simp only [Pop.step, QueueBackend.receive, nothing]

/-- When the clock does not reach the end of a claim, the pop fails on the first message. -/
theorem step_overflow (sees : q.visible now b = s :: rest) (beyond : ¬ now.Reaches q.timeout) :
    Pop.step q now .receiving b = (.done (.error (.queue .overflow)), b, []) := by
  simp only [Pop.step, QueueBackend.receive, Broker.receive, first_of_visible sees, if_neg beyond]

/-- When a message that passes comes first, the pop ends with its report. -/
theorem step_passing (sees : q.visible now b = s :: rest) (reaches : now.Reaches q.timeout)
    (good : q.passes s = true) :
    ∃ event, decode? s.payload = some event ∧ Pop.step q now .receiving b =
      (.done (.ok (some ⟨event, s.id, s.attempt + 1, q.name⟩)),
        b.change s.id (Slot.claimed (now.steady + q.timeout)) fun _ => rfl, []) := by
  obtain ⟨event, holds, judged⟩ := judge_claimed_of_passing (now.steady + q.timeout) good
  refine ⟨event, holds, ?_⟩
  simp only [Pop.step, QueueBackend.receive, receive_of_visible sees reaches, judged]
  rfl

/-- When a message that does not pass comes first, two calls park it, and the search begins anew. -/
theorem steps_failing (sees : q.visible now b = s :: rest) (reaches : now.Reaches q.timeout)
    (bad : q.passes s = false) :
    Pop.finish q now .receiving b =
      ((Pop.finish q now .receiving (q.skip now b s)).1,
        (Pop.finish q now .receiving (q.skip now b s)).2.1,
        q.skipRecord s :: (Pop.finish q now .receiving (q.skip now b s)).2.2) ∧
    Pop.calls q now .receiving b =
      q.skipCalls s ++ Pop.calls q now .receiving (q.skip now b s) := by
  let claimed := b.change s.id (Slot.claimed (now.steady + q.timeout)) fun _ => rfl
  let m := (s.claimed (now.steady + q.timeout)).message
  have claiming : Pop.step q now .receiving b =
      (.more (.parking m), claimed, [q.skipRecord s]) := by
    have judged := judge_claimed_of_failing (now.steady + q.timeout) bad
    simp only [Pop.step, QueueBackend.receive, receive_of_visible sees reaches, judged, claimed,
      m]
  have parking : Pop.step q now (.parking m) claimed = (.more .receiving, q.skip now b s, []) := by
    obtain ⟨found, on⟩ := slot?_of_visible sees
    have held : claimed.held? q.name m.id = some (s.claimed (now.steady + q.timeout)) := by
      refine Broker.held?_eq_some_iff.2 ⟨?_, on⟩
      exact (Broker.slot?_change_of_found found (Slot.claimed _) (fun _ => rfl) s.id).trans
        (if_pos rfl)
    have twice : claimed.change m.id (Slot.moved q.deadName now.steady) (fun _ => rfl) =
        q.skip now b s := by
      refine Broker.ext rfl ?_
      show (b.slots.map _).map _ = b.slots.map _
      rw [List.map_map]
      refine List.map_congr_left fun t _ => ?_
      by_cases same : t.id = s.id <;>
        simp [m, Slot.message, Slot.claimed, Slot.moved, same]
    simp only [Pop.step, QueueBackend.deadLetter, Broker.deadLetter, Broker.ifHeld, held, twice]
  constructor
  · rw [Pop.finish_more claiming, Pop.finish_more parking]
    rfl
  · rw [Pop.calls_more claiming, Pop.calls_more parking]
    rfl

/-- Once a message is skipped, a consumer sees the rest. -/
theorem visible_skip (sees : q.visible now b = s :: rest) :
    q.visible now (q.skip now b s) = rest := by
  have apart := q.name_ne_deadName
  have others : ∀ t ∈ rest, t.id ≠ s.id := by
    have order : (s :: rest).Pairwise fun x y => x.id.value < y.id.value :=
      sees ▸ b.ordered.filter _
    intro t member same
    have before := (List.pairwise_cons.1 order).1 t member
    rw [same] at before
    omega
  have available : (Slot.isAvailable q.name now.steady ∘ fun t =>
      if t.id = s.id then t.moved q.deadName now.steady else t) =
      fun t => t.id != s.id && t.isAvailable q.name now.steady := by
    funext t
    by_cases same : t.id = s.id <;>
      simp [Slot.isAvailable, Slot.moved, same, Ne.symm apart]
  have kept : (s :: rest).filter (fun t => t.id != s.id) = rest := by
    rw [List.filter_cons_of_neg (by simp)]
    exact List.filter_eq_self.2 fun t member => by simpa using others t member
  show (b.slots.map _).filter _ = rest
  rw [List.filter_map, available, ← List.filter_filter, ← visible, sees, kept]
  exact (List.map_congr_left fun t member => if_neg (others t member)).trans (List.map_id rest)

/-- Skipping a message and what becomes of the slots after that is what becomes of them at once. -/
theorem fate_skip (sees : q.visible now b = s :: rest) (bad : q.passes s = false) :
    (q.skip now b s).slots.map (q.fate now rest) = b.slots.map (q.fate now (s :: rest)) := by
  have found := (slot?_of_visible sees).1
  have seen : ∀ t, t ∈ q.skipped rest ∨ q.chosen? rest = some t →
      t.isAvailable q.name now.steady = true := by
    intro t either
    have member : t ∈ q.visible now (q.skip now b s) := by
      rw [visible_skip sees]
      exact either.elim (fun skipped => (List.takeWhile_sublist _).mem skipped)
        List.mem_of_find?_eq_some
    exact (List.mem_filter.1 member).2
  show (b.slots.map _).map _ = _
  rw [List.map_map]
  refine List.map_congr_left fun t member => ?_
  rw [Function.comp_apply]
  by_cases same : t.id = s.id
  · obtain rfl := Broker.eq_of_slot? found member same
    have hidden : ¬ (s.moved q.deadName now.steady).isAvailable q.name now.steady = true := by
      simp [Slot.isAvailable, Slot.moved, Ne.symm q.name_ne_deadName]
    have ignored : q.fate now rest (s.moved q.deadName now.steady) =
        s.moved q.deadName now.steady := by
      rw [fate, if_neg fun h => hidden (seen _ (.inl h)), if_neg fun h => hidden (seen _ (.inr h))]
    have parked : s ∈ q.skipped (s :: rest) := by
      rw [skipped_cons_of_failing bad]
      exact List.mem_cons_self
    rw [if_pos rfl, ignored, fate, if_pos parked]
  · have other : t ≠ s := fun eq => same (congrArg Slot.id eq)
    rw [if_neg same, fate, fate, skipped_cons_of_failing bad,
      chosen?_cons_of_failing bad]
    simp [other]

/-! ## The search -/

/-- A pop skips the messages that it sees in front of the first one that passes, whichever these
    are. -/
theorem finish_skips (q : EventQueue) (now : Reading) (b : Broker) (visible : List Slot)
    (sees : q.visible now b = visible) (safe : visible ≠ [] → now.Reaches q.timeout) :
    Pop.calls q now .receiving b =
      (q.skipped visible).flatMap q.skipCalls ++ [.receive q.name q.timeout] ∧
    q.Answers visible (Pop.finish q now .receiving b).1 ∧
    (Pop.finish q now .receiving b).2.1.lastId = b.lastId ∧
    (Pop.finish q now .receiving b).2.1.slots = b.slots.map (q.fate now visible) ∧
    (Pop.finish q now .receiving b).2.2 = (q.skipped visible).map q.skipRecord := by
  induction visible generalizing b with
  | nil =>
    have step := step_nothing sees
    rw [Pop.calls_done step, Pop.finish_done step]
    exact ⟨rfl, rfl, rfl, (List.map_id _).symm, rfl⟩
  | cons s rest ih =>
    have reaches := safe (List.cons_ne_nil s rest)
    cases good : q.passes s with
    | true =>
      obtain ⟨event, holds, step⟩ := step_passing sees reaches good
      have found := (slot?_of_visible sees).1
      rw [Pop.calls_done step, Pop.finish_done step, skipped_cons_of_passing good]
      refine ⟨rfl, ?_, rfl, List.map_congr_left fun t member => ?_, rfl⟩
      · rw [Answers, chosen?_cons_of_passing good]
        exact ⟨event, holds, rfl⟩
      · rw [fate, skipped_cons_of_passing good, chosen?_cons_of_passing good,
          if_neg List.not_mem_nil]
        by_cases same : t.id = s.id
        · obtain rfl := Broker.eq_of_slot? found member same
          rw [if_pos rfl, if_pos rfl]
        · have other : some s ≠ some t := fun eq =>
            same (congrArg Slot.id (Option.some.inj eq).symm)
          rw [if_neg same, if_neg other]
    | false =>
      obtain ⟨ended, called⟩ := steps_failing sees reaches good
      obtain ⟨calls, answer, last, slots, logs⟩ :=
        ih (q.skip now b s) (visible_skip sees) fun _ => reaches
      rw [ended, called, skipped_cons_of_failing good]
      refine ⟨?_, ?_, last, ?_, ?_⟩
      · rw [calls, List.flatMap_cons, List.append_assoc]
      · rw [Answers, chosen?_cons_of_failing good]
        exact answer
      · rw [slots, fate_skip sees good]
      · rw [logs, List.map_cons]

/-- A pop that nobody interferes with takes the visible messages of its queue in the order of their
    ids.  It parks exactly those in front of the first that passes for usable, one after the other; it
    delivers that one and hides it, or ends with nothing if there is none.  No other slot changes.  Of
    each parked message it logs the cause, in the same order; the limit comes before the payload.
    A message passes for usable if it may be delivered once more and holds a report, and also if it
    holds a report and its attempts have used up their counter.  If the clock does not reach the end
    of a claim, the pop fails on the first message and changes nothing. -/
theorem pop_skips_unusable (q : EventQueue) (now : Reading) (b : Broker) :
    let visible := q.visible now b
    let (result, after, logs) := q.pop now b
    (∀ s : Slot, s.attempt.toNat + 1 < 2 ^ 32 →
      q.passes s = q.isUsable s ∧ q.skipRecord s = q.dueRecord s) ∧
    (∀ s : Slot, s.attempt.toNat + 1 = 2 ^ 32 →
      q.isUsable s = false ∧ q.passes s = (decode? s.payload).isSome ∧
        q.skipRecord s = .undecodable q.name s.id) ∧
    (match q.chosen? visible with
      | some s => ∃ later, visible = q.skipped visible ++ s :: later
      | none => visible = q.skipped visible) ∧
    (now.Reaches q.timeout ∨ visible = [] →
      q.Answers visible result ∧
      Pop.calls q now .receiving b =
        (q.skipped visible).flatMap q.skipCalls ++ [.receive q.name q.timeout] ∧
      after = b.after ((Pop.calls q now .receiving b).map fun c => (now, c)) ∧
      after.lastId = b.lastId ∧
      after.slots = b.slots.map (q.fate now visible) ∧
      logs = (q.skipped visible).map q.skipRecord) ∧
    (¬ now.Reaches q.timeout → visible ≠ [] →
      result = .error (.queue .overflow) ∧ after = b ∧ logs = [] ∧
      Pop.calls q now .receiving b = [.receive q.name q.timeout]) := by
  refine ⟨fun s => passes_eq_isUsable, fun s => passes_of_wrapped, visible_of_chosen q _,
    fun safe => ?_, fun beyond sees => ?_⟩
  · obtain ⟨calls, answer, last, slots, logs⟩ :=
      finish_skips q now b _ rfl fun sees => safe.resolve_right sees
    exact ⟨answer, calls, Pop.finish_broker q now .receiving b, last, slots, logs⟩
  · obtain ⟨s, rest, sees⟩ := List.exists_cons_of_ne_nil sees
    have step := step_overflow sees beyond
    have popped : q.pop now b = (.error (.queue .overflow), b, []) := Pop.finish_done step
    exact ⟨congrArg (·.1) popped, congrArg (·.2.1) popped, congrArg (·.2.2) popped,
      Pop.calls_done step⟩

/-- Settings of a queue whose claims are to last for as many seconds as 64 bits can count. -/
def endless : QueueSettings := { visibilityTimeoutSecs := 18446744073709551615 }

/-- A report whose attempts have used up their counter. -/
def worn (queue : String) : Slot :=
  ⟨⟨1⟩, queue, Traffic.once.payload Traffic.fatal, 4294967295, .epoch, 0⟩

/-- The report waits on a queue. -/
def wornAt (queue : String) : Broker where
  lastId := 1
  slots := [worn queue]
  ordered := by simp
  published s member := by
    obtain rfl := List.mem_singleton.1 member
    exact ⟨Int.le_refl 1, Int.le_refl 1⟩

/-- The report is delivered again as if it had never been claimed, though one delivery is allowed.
    Where claims never end nothing is delivered at all, and the settings are valid. -/
theorem pop_skips_unusable_worn :
    Traffic.once.isUsable (worn "errors") = false ∧
    (Traffic.once.pop (.atEpoch 0) (wornAt "errors")).1 =
      .ok (some ⟨Traffic.fatal, ⟨1⟩, 0, "errors"⟩) ∧
    Settings.validate { queue := endless } = .ok { queue := endless } ∧
    ((EventQueue.ofSettings endless).pop (.atEpoch 0) (wornAt "events")).1 =
      .error (.queue .overflow) := by
  obtain ⟨-, wrapped, -, done, -⟩ :=
    pop_skips_unusable Traffic.once (.atEpoch 0) (wornAt "errors")
  obtain ⟨-, -, -, -, failed⟩ :=
    pop_skips_unusable (.ofSettings endless) (.atEpoch 0) (wornAt "events")
  obtain ⟨unusable, passes, -⟩ := wrapped (worn "errors") rfl
  have holds : decode? (worn "errors").payload = some Traffic.fatal := Traffic.decode?_fatal
  rw [holds] at passes
  have sees : Traffic.once.visible (.atEpoch 0) (wornAt "errors") = [worn "errors"] := rfl
  have reaches : Reading.Reaches (.atEpoch 0) Traffic.once.timeout := by decide
  rw [sees, Answers, chosen?_cons_of_passing passes] at done
  obtain ⟨⟨event, holds', answer⟩, -⟩ := done (.inl reaches)
  rw [holds] at holds'
  cases holds'
  exact ⟨unusable, answer, rfl, (failed (by decide) (List.cons_ne_nil _ _)).1⟩

end EventQueue

end ErrorIntake
