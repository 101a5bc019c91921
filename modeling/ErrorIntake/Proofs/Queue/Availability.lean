import ErrorIntake.Proofs.Queue.History

/-!
# What a claim returns

A claim is determined by the history and the reach of the clock.  `Available` says from the story of
a message whether it can be claimed, and a claim takes the available message of the least id, unless
the clock cannot show the end of the claim.  A claim shuts its message for as long as it says, and
only giving the message back or moving it opens it again: `Shut` is kept by every other call.
-/

namespace ErrorIntake.Queue

open Calendar (Reading)

/-- A consumer of the queue can claim the message at this time, as the history tells. -/
def History.Available (h : History) (queue : String) (time : Nat) (id : MessageId) : Prop :=
  id ∉ h.acked ∧ h.home? id = some queue ∧ ∃ release, h.release? id = some release ∧ release ≤ time

namespace Broker

variable {b b' : Broker} {h : History} {queue : String} {id : MessageId} {now : Reading}
  {c : Command} {answer : Except QueueError Answer} {time : Nat}

namespace Recorded

theorem mem_published_of_home (r : Recorded b h) (home : h.home? id = some queue) :
    id ∈ h.published := by
  have told : h.story id ≠ [] := by
    intro nothing
    rw [History.home?, nothing] at home
    cases home
  obtain ⟨e, member⟩ := List.exists_mem_of_ne_nil _ told
  obtain ⟨inside, about⟩ := List.mem_filter.1 member
  exact r.subjects e inside id (of_decide_eq_true about)

/-- A slot is available if the history says so of its message. -/
theorem available_iff (r : Recorded b h) :
    (∃ s, b.slot? id = some s ∧ s.isAvailable queue time) ↔ h.Available queue time id := by
  simp only [Slot.isAvailable_iff]
  constructor
  · rintro ⟨s, found, rfl, visible⟩
    have follows := r.follows id s found
    exact ⟨(r.of_slot? found).2, follows.home, _, follows.release, visible⟩
  · rintro ⟨pending, home, release, last, reached⟩
    obtain ⟨s, found⟩ := (r.stands id).2 ⟨r.mem_published_of_home home, pending⟩
    have follows := r.follows id s found
    refine ⟨s, found, ?_, ?_⟩
    · exact Option.some.inj (follows.home.symm.trans home)
    · rw [Option.some.inj (follows.release.symm.trans last)]
      exact reached

/-- A claim that the clock does not reach the end of fails as soon as a message is available. -/
theorem receive_overflow (r : Recorded b h) {timeout : Nat} (beyond : ¬ now.Reaches timeout)
    (waits : h.Available queue now.steady id) :
    b.perform now (.receive queue timeout) = (.error .overflow, b) := by
  have effect := b.perform_effect now (.receive queue timeout)
  generalize b.perform now (.receive queue timeout) = called at effect ⊢
  obtain ⟨answer, b'⟩ := called
  cases effect with
  | idle _ _ nothing =>
    obtain ⟨s, found, visible⟩ := r.available_iff.2 waits
    exact absurd visible (nothing id s found)
  | overflow => rfl
  | claim _ _ s found available least reaches => exact absurd reaches beyond
  | refuse _ _ _ names => cases names

/-- Any other claim takes the available message of the least id and counts the attempts. -/
theorem receive (r : Recorded b h) {now : Reading} {queue : String} {timeout : Nat}
    (safe : now.Reaches timeout ∨ ∀ id, ¬ h.Available queue now.steady id) :
    ∃ m?, (b.perform now (.receive queue timeout)).1 = .ok (.received m?) ∧
      (m? = none ↔ ∀ id, ¬ h.Available queue now.steady id) ∧
      ∀ m, m? = some m → h.Available queue now.steady m.id ∧
        (∀ id, h.Available queue now.steady id → m.id.value ≤ id.value) ∧
        m.attempt = UInt32.ofNat (h.claims m.id + 1) := by
  have effect := b.perform_effect now (.receive queue timeout)
  generalize b.perform now (.receive queue timeout) = called at effect ⊢
  obtain ⟨answer, b'⟩ := called
  cases effect with
  | idle _ _ nothing =>
    refine ⟨none, rfl, iff_of_true rfl fun id available => ?_, fun m taken => by cases taken⟩
    obtain ⟨s, found, visible⟩ := r.available_iff.2 available
    exact nothing id s found visible
  | overflow _ _ s found available beyond =>
    have first : h.Available queue now.steady s.id := r.available_iff.1 ⟨s, found, available⟩
    exact absurd first (safe.resolve_left beyond s.id)
  | claim _ _ s found available least =>
    have first : h.Available queue now.steady s.id := r.available_iff.1 ⟨s, found, available⟩
    refine ⟨_, rfl, iff_of_false (fun none => by cases none) fun nothing => nothing s.id first, ?_⟩
    rintro m taken
    cases taken
    refine ⟨first, fun id other => ?_, ?_⟩
    · obtain ⟨s', found', available'⟩ := r.available_iff.2 other
      exact least id s' found' available'
    · show s.attempt + 1 = UInt32.ofNat ((h.story s.id).lastClaims + 1)
      rw [(r.follows s.id s found).attempt, UInt32.ofNat_add]
      rfl
  | refuse _ _ _ names => cases names

end Recorded

/-! ## Claims shut their message -/

/-- Nobody can claim the message before this time unless it is given back or moved. -/
def Shut (b : Broker) (id : MessageId) (time : Nat) : Prop :=
  id.value ≤ b.lastId ∧ ∀ s, b.slot? id = some s → time ≤ s.visibleAt

/-- A message stays shut while its slot is not touched. -/
theorem Shut.keep (shut : b.Shut id time) (grows : b.lastId ≤ b'.lastId)
    (same : ∀ s, b'.slot? id = some s → b.slot? id = some s) : b'.Shut id time := by
  refine ⟨?_, fun s found => shut.2 s (same s found)⟩
  have given := shut.1
  omega

/-- A call that neither gives a message back nor moves it leaves it shut. -/
theorem Shut.effect (shut : b.Shut id time) (made : Effect b now c answer b')
    (kept : (⟨now, c, answer⟩ : Entry).freed? ≠ some id) : b'.Shut id time := by
  cases made with
  | publish queue payload =>
    refine shut.keep (Nat.le_succ _) fun s found => ?_
    have old : id ≠ b.nextId := by
      rintro rfl
      have given : ((b.lastId + 1 : Nat) : Int) ≤ b.lastId := shut.1
      omega
    rwa [slot?_publish, if_neg old] at found
  | idle => exact shut
  | overflow => exact shut
  | claim queue timeout s found available least =>
    by_cases same : id = s.id
    · subst same
      refine ⟨shut.1, fun s' found' => ?_⟩
      rw [slot?_change_of_found found (Slot.claimed _) fun _ => rfl, if_pos rfl] at found'
      cases found'
      have before : time ≤ s.visibleAt := shut.2 s found
      have visible : s.visibleAt ≤ now.steady := (Slot.isAvailable_iff.1 available).2
      show time ≤ now.steady + timeout
      omega
    · refine shut.keep (Nat.le_refl _) fun s' found' => ?_
      rwa [slot?_change_of_found found (Slot.claimed _) fun _ => rfl, if_neg same] at found'
  | ack s found =>
    refine shut.keep (Nat.le_refl _) fun s' found' => ?_
    rw [slot?_remove] at found'
    split at found'
    · cases found'
    · exact found'
  | nack s found =>
    refine shut.keep (Nat.le_refl _) fun s' found' => ?_
    have other : id ≠ s.id := fun same => kept (congrArg some same.symm)
    rwa [slot?_change_of_found found (Slot.released _) fun _ => rfl, if_neg other] at found'
  | deadLetter s found dead =>
    refine shut.keep (Nat.le_refl _) fun s' found' => ?_
    have other : id ≠ s.id := fun same => kept (congrArg some same.symm)
    rwa [slot?_change_of_found found (Slot.moved dead _) fun _ => rfl, if_neg other] at found'
  | refuse => exact shut

theorem Shut.after {calls : List (Reading × Command)} (shut : b.Shut id time)
    (kept : ∀ e ∈ b.history calls, e.freed? ≠ some id) : (b.after calls).Shut id time := by
  induction calls generalizing b with
  | nil => exact shut
  | cons c rest ih =>
    have next := shut.effect (b.perform_effect c.1 c.2) (kept _ List.mem_cons_self)
    exact ih next fun e member => kept e (List.mem_cons_of_mem _ member)

/-- A claim shuts its message until its release. -/
theorem Effect.shut (made : Effect b now c answer b')
    (claims : (⟨now, c, answer⟩ : Entry).claimed? = some id) :
    b'.Shut id (⟨now, c, answer⟩ : Entry).release := by
  cases made with
  | claim queue timeout s found available least =>
    obtain rfl : s.id = id := Option.some.inj claims
    refine ⟨(bounds_of_slot? found).2, fun s' found' => ?_⟩
    rw [slot?_change_of_found found (Slot.claimed _) fun _ => rfl, if_pos rfl] at found'
    cases found'
    exact Nat.le_refl _
  | refuse c queue id names off => cases c <;> cases claims
  | _ => cases claims

/-- Nobody claims a message that is shut. -/
theorem Shut.le_of_claimed (shut : b.Shut id time) (made : Effect b now c answer b')
    (claims : (⟨now, c, answer⟩ : Entry).claimed? = some id) : time ≤ now.steady := by
  cases made with
  | claim queue timeout s found available least =>
    cases claims
    exact Nat.le_trans (shut.2 s found) (Slot.isAvailable_iff.1 available).2
  | refuse c queue id names off => cases c <;> cases claims
  | _ => cases claims

/-- What was noted first was noted of the first calls. -/
theorem history_split {calls : List (Reading × Command)} {first rest : History}
    (split : b.history calls = first ++ rest) :
    ∃ calls₁ calls₂, calls = calls₁ ++ calls₂ ∧ b.history calls₁ = first ∧
      (b.after calls₁).history calls₂ = rest := by
  induction first generalizing b calls with
  | nil => exact ⟨[], calls, rfl, rfl, split⟩
  | cons e first ih =>
    cases calls with
    | nil => cases split
    | cons c calls =>
      obtain ⟨here, more⟩ := List.cons.inj split
      obtain ⟨calls₁, calls₂, rfl, noted, left⟩ := ih more
      exact ⟨c :: calls₁, calls₂, rfl, by rw [history, here, noted], left⟩

/-- The effect of a call at the head of a history. -/
theorem history_cons {calls : List (Reading × Command)} {e : Entry} {rest : History}
    (noted : b.history calls = e :: rest) :
    ∃ b' calls', Effect b e.now e.command e.answer b' ∧ b'.history calls' = rest := by
  cases calls with
  | nil => cases noted
  | cons c calls =>
    obtain ⟨rfl, more⟩ := List.cons.inj noted
    exact ⟨_, calls, b.perform_effect c.1 c.2, more⟩

/-- A claimed message is claimed again before its release only if it was given back or moved. -/
theorem freed_between {calls : List (Reading × Command)} {before between rest : History}
    {e e' : Entry} (noted : b.history calls = before ++ e :: (between ++ e' :: rest))
    (first : e.claimed? = some id) (again : e'.claimed? = some id)
    (early : e'.now.steady < e.release) : ∃ x ∈ between, x.freed? = some id := by
  by_contra kept
  obtain ⟨calls₁, calls₂, -, -, noted⟩ := history_split noted
  obtain ⟨b₁, calls₃, claimed, noted⟩ := history_cons noted
  obtain ⟨calls₄, calls₅, -, quiet, noted⟩ := history_split noted
  obtain ⟨b₂, -, claimed', -⟩ := history_cons noted
  have shut : (b₁.after calls₄).Shut id e.release := by
    refine (claimed.shut first).after fun x member frees => kept ⟨x, ?_, frees⟩
    rw [← quiet]
    exact member
  exact absurd early (Nat.not_lt.2 (shut.le_of_claimed claimed' again))

/-- A claim is determined by the history and the reach of the clock.  If a message is available and
    the clock cannot show the end of the claim, it panics and nothing changes.  Otherwise it returns
    the available message of the least id, and nothing only if none is available; its attempt number
    is exact.  A claimed message is claimed again before its release only if it was given back or
    moved. -/
theorem receive_of_history (calls : List (Reading × Command)) :
    let b := empty.after calls
    let h := empty.history calls
    (∀ now queue timeout,
      (¬ now.Reaches timeout → (∃ id, h.Available queue now.steady id) →
        b.perform now (.receive queue timeout) = (.error .overflow, b)) ∧
      (now.Reaches timeout ∨ (∀ id, ¬ h.Available queue now.steady id) → ∃ m?,
        (b.perform now (.receive queue timeout)).1 = .ok (.received m?) ∧
        (m? = none ↔ ∀ id, ¬ h.Available queue now.steady id) ∧
        ∀ m, m? = some m → h.Available queue now.steady m.id ∧
          (∀ id, h.Available queue now.steady id → m.id.value ≤ id.value) ∧
          (h.claims m.id + 1 < 2 ^ 32 → m.attempt.toNat = h.claims m.id + 1))) ∧
    (∀ before e between e' rest id, h = before ++ e :: (between ++ e' :: rest) →
      e.claimed? = some id → e'.claimed? = some id → e'.now.steady < e.release →
      ∃ x ∈ between, x.freed? = some id) := by
  intro b h
  have r : Recorded b h := recorded_after calls
  refine ⟨fun now queue timeout => ⟨fun beyond ⟨id, waits⟩ => r.receive_overflow beyond waits,
    fun safe => ?_⟩, fun before e between e' rest id => freed_between⟩
  obtain ⟨m?, made, nothing, taken⟩ := r.receive safe
  refine ⟨m?, made, nothing, fun m same => ?_⟩
  obtain ⟨available, least, attempt⟩ := taken m same
  refine ⟨available, least, fun small => ?_⟩
  rw [attempt, UInt32.toNat_ofNat_of_lt' small]

/-- A message is claimed, given back and claimed again before its first claim ends. -/
def secondClaim : List (Reading × Command) :=
  [(.atEpoch 0, .publish "work" [1]),
    (.atEpoch 1, .receive "work" 10),
    (.atEpoch 5, .nack "work" ⟨1⟩),
    (.atEpoch 5, .receive "work" 10)]

/-- A third claim is made by the same consumer at time 15, or fails if it is to last for as many
    seconds as 64 bits can count. -/
theorem receive_of_history_secondClaim :
    (empty.history secondClaim).Available "work" 15 ⟨1⟩ ∧
    (3 : UInt32).toNat = (empty.history secondClaim).claims ⟨1⟩ + 1 ∧
    (empty.after secondClaim).perform (.atEpoch 15)
        (.receive "work" ((2 ^ 64 - 1) * Calendar.nanosPerSecond)) =
      (.error .overflow, empty.after secondClaim) ∧
    ∃ x ∈ ((empty.history secondClaim).drop 2).take 1, x.freed? = some ⟨1⟩ := by
  obtain ⟨claims, closed⟩ := receive_of_history secondClaim
  obtain ⟨m?, made, -, taken⟩ := (claims (.atEpoch 15) "work" 10).2 (.inl (by decide))
  have third : ((empty.after secondClaim).perform (.atEpoch 15) (.receive "work" 10)).1 =
      .ok (.received (some ⟨⟨1⟩, [1], 3, .epoch⟩)) := by decide +kernel
  rw [third] at made
  cases made
  obtain ⟨available, -, attempt⟩ := taken _ rfl
  refine ⟨available, attempt (by decide +kernel),
    (claims (.atEpoch 15) "work" _).1 (by decide) ⟨⟨1⟩, available⟩, ?_⟩
  exact closed [_] _ [_] _ [] ⟨1⟩ rfl rfl rfl (by decide)

end Broker

end ErrorIntake.Queue
