import ErrorIntake.Proofs.Worker.Filing

/-!
# Reports processed at one time

Some reports are processed over one store, each in its two calls, and a schedule says who makes the
next call.  Ids of groups and rows depend on the schedule.  `Tracks` says what does not: each key
holds its occurrences from before and those of the reports that are done, in some order, and every
new group is claimed by one processing.  Each turn keeps it, so any two schedules agree in the end.
-/

namespace ErrorIntake

open Calendar (Instant)
open Ledger (Group Key Memory NewEvent)

/-- What the event of a report tells, if this is the report's key. -/
def Report.occurrence? (r : Report) (key : Key) : Option NewEvent :=
  if r.key? = some key then some (.ofReport r key.project 0) else none

namespace Worker

/-- Where the processing of a report stands. -/
inductive Processing
  /-- It is about to find or make the group. -/
  | grouping (r : Report)
  /-- It is about to record the event. -/
  | recording (r : Report) (f : Found)
  | done (r : Report) (f : Found) (o : Outcome)
  /-- A call failed; the group may have been found before. -/
  | failed (r : Report) (f? : Option Found) (e : StoreError)

namespace Processing

/-- The report that is processed. -/
def report : Processing → Report
  | grouping r => r
  | recording r _ => r
  | done r _ _ => r
  | failed r _ _ => r

/-- The group that was found. -/
def found? : Processing → Option Found
  | grouping _ => none
  | recording _ f => some f
  | done _ f _ => some f
  | failed _ f? _ => f?

/-- The outcome of a processing that ended well. -/
def outcome? : Processing → Option Outcome
  | done _ _ o => some o
  | _ => none

/-- How a processing ended. -/
def result? : Processing → Option (Except StoreError Outcome)
  | done _ _ o => some (.ok o)
  | failed _ _ e => some (.error e)
  | _ => none

/-- The next call of a processing. -/
def step {τ : Type} [Ledger.EventStore τ] (hooks : List Hook) (now : Instant) (p : Processing)
    (t : τ) : Processing × τ :=
  match p with
  | grouping r =>
    let (found, t) := resolve r now t
    match found with
    | .error e => (.failed r none e, t)
    | .ok f => (.recording r f, t)
  | recording r f =>
    let (recorded, t, _) := record hooks r f t
    match recorded with
    | .error e => (.failed r (some f) e, t)
    | .ok o => (.done r f o, t)
  | ended => (ended, t)

/-- Two calls with nothing between them process the report. -/
theorem step_step_eq_process {τ : Type} [Ledger.EventStore τ] (hooks : List Hook) (r : Report)
    (now later : Instant) (t : τ) :
    let first := (grouping r).step hooks now t
    let second := first.1.step hooks later first.2
    second.1.result? = some (process hooks r now t).1 ∧ second.2 = (process hooks r now t).2.1 := by
  simp only [step, process]
  rcases resolve r now t with ⟨e | f, t'⟩
  · exact ⟨rfl, rfl⟩
  · simp only
    rcases record hooks r f t' with ⟨e | o, t'', shown⟩
    · exact ⟨rfl, rfl⟩
    · exact ⟨rfl, rfl⟩

/-- It says, or will say if it ends well, that it made the group of this key. -/
def claims (key : Key) : Processing → Bool
  | grouping _ => false
  | recording r f => r.key? = some key && f.isNew
  | done r _ o => r.key? = some key && o.isNewGroup
  | failed r f? _ => r.key? = some key && f?.elim false Found.isNew

/-- What it recorded under a key. -/
def recorded? (key : Key) : Processing → Option NewEvent
  | done r _ _ => r.occurrence? key
  | _ => none

end Processing

/-- A store and the processings that share it. -/
structure Batch where
  store : Memory
  calls : List Processing

namespace Batch

/-- Nobody has made a call yet. -/
def start (m : Memory) (reports : List Report) : Batch := ⟨m, reports.map .grouping⟩

/-- One of the processings makes its next call at some time. -/
def turn (hooks : List Hook) (b : Batch) (who : Nat × Instant) : Batch :=
  match b.calls[who.1]? with
  | none => b
  | some p =>
    let (p, store) := p.step hooks who.2 b.store
    ⟨store, b.calls.set who.1 p⟩

/-- The turns of a schedule. -/
def run (hooks : List Hook) (b : Batch) (schedule : List (Nat × Instant)) : Batch :=
  schedule.foldl (turn hooks) b

/-- All processings ended well. -/
def Succeeded (b : Batch) : Prop := ∀ p ∈ b.calls, p.outcome?.isSome

instance (b : Batch) : Decidable b.Succeeded := inferInstanceAs (Decidable (∀ _ ∈ _, _))

theorem Succeeded.done {b : Batch} (all : b.Succeeded) :
    ∀ p ∈ b.calls, ∃ r f o, p = .done r f o := by
  intro p member
  have ended := all p member
  cases p with
  | done r f o => exact ⟨r, f, o, rfl⟩
  | _ => cases ended

/-- How many processings of reports with this key told that they made its group. -/
def newReports (b : Batch) (key : Key) : Nat :=
  b.calls.countP fun p => p.report.key? = some key && p.outcome?.elim false Outcome.isNewGroup

/-- A turn changes nothing, or is the next call of one of the processings. -/
theorem turn_cases (hooks : List Hook) (b : Batch) (who : Nat × Instant) :
    b.turn hooks who = b ∨ ∃ before p after, b.calls = before ++ p :: after ∧
      b.turn hooks who = ⟨(p.step hooks who.2 b.store).2,
        before ++ (p.step hooks who.2 b.store).1 :: after⟩ := by
  unfold turn
  cases here : b.calls[who.1]? with
  | none => exact .inl rfl
  | some p =>
    right
    obtain ⟨inside, rfl⟩ := List.getElem?_eq_some_iff.1 here
    let next := b.calls[who.1].step hooks who.2 b.store
    have placed : ∃ before after, b.calls = before ++ b.calls[who.1] :: after ∧
        before.length = who.1 ∧ b.calls.set who.1 next.1 = before ++ next.1 :: after :=
      List.exists_of_set inside
    obtain ⟨before, after, split, -, put⟩ := placed
    refine ⟨before, b.calls[who.1], after, split, ?_⟩
    simp only [next] at put
    simp only [put]

/-! ## What every schedule keeps -/

/-- What holds of a batch that began with this store and these reports. -/
structure Tracks (m : Memory) (reports : List Report) (b : Batch) : Prop where
  keyed : b.store.Keyed
  asked : b.calls.map Processing.report = reports
  filed : ∀ p ∈ b.calls, ∀ f, p.found? = some f → f.IsFiled p.report b.store
  /-- Every new group is claimed by one processing. -/
  made : ∀ key, b.calls.countP (Processing.claims key) + m.keys.count key = b.store.keys.count key
  /-- Nothing is recorded that no processing told, and nothing is lost. -/
  kept : ∀ key, (b.store.occurrences key).Perm
    (m.occurrences key ++ b.calls.filterMap (Processing.recorded? key))

namespace Tracks

variable {m t t' : Memory} {reports : List Report} {before after : List Processing}
  {p p' : Processing} {hooks : List Hook} {b : Batch}

theorem start (keyed : m.Keyed) (reports : List Report) : Tracks m reports (.start m reports) where
  keyed := keyed
  asked := by simp [Batch.start, Processing.report, Function.comp_def]
  filed := by
    intro p member f found
    obtain ⟨r, _, rfl⟩ := List.mem_map.1 member
    cases found
  made key := by simp [Batch.start, Processing.claims, List.countP_map, Function.comp_def]
  kept key := by
    simp [Batch.start, Processing.recorded?, List.filterMap_map, Function.comp_def]

/-- A processing moves on, with what it does to the store. -/
theorem advance (h : Tracks m reports ⟨t, before ++ p :: after⟩) (keyed : t'.Keyed)
    (same : p'.report = p.report) (filed : ∀ f, p'.found? = some f → f.IsFiled p.report t')
    (grows : ∀ key id, t.Files key id → t'.Files key id)
    (made : ∀ key, (if p'.claims key then 1 else 0) + t.keys.count key =
      (if p.claims key then 1 else 0) + t'.keys.count key)
    (unrecorded : ∀ key, p.recorded? key = none)
    (kept : ∀ key, t'.occurrences key = t.occurrences key ++ (p'.recorded? key).toList) :
    Tracks m reports ⟨t', before ++ p' :: after⟩ where
  keyed := keyed
  asked := by
    have asked := h.asked
    simp only [List.map_append, List.map_cons] at asked ⊢
    rw [same]
    exact asked
  filed := by
    intro q member f found
    rcases List.mem_append.1 member with member | member
    · obtain ⟨project, stands⟩ := h.filed q (List.mem_append_left _ member) f found
      exact ⟨project, grows _ _ stands⟩
    · rcases List.mem_cons.1 member with rfl | member
      · rw [same]
        exact filed f found
      · obtain ⟨project, stands⟩ :=
          h.filed q (List.mem_append_right _ (List.mem_cons_of_mem _ member)) f found
        exact ⟨project, grows _ _ stands⟩
  made key := by
    have count := h.made key
    have change := made key
    simp only [List.countP_append, List.countP_cons] at count ⊢
    omega
  kept key := by
    have rows := (h.kept key).append_right (p'.recorded? key).toList
    have middle : (before ++ p' :: after).filterMap (Processing.recorded? key) =
        before.filterMap (Processing.recorded? key) ++
          ((p'.recorded? key).toList ++ after.filterMap (Processing.recorded? key)) := by
      rw [List.filterMap_append, List.filterMap_cons]
      cases p'.recorded? key <;> rfl
    rw [List.filterMap_append, List.filterMap_cons, unrecorded key] at rows
    rw [kept, middle]
    refine rows.trans ?_
    simp only [List.append_assoc]
    exact (List.perm_append_comm.append_left _).append_left _

/-- A processing moves on and leaves the store alone. -/
theorem stay (h : Tracks m reports ⟨t, before ++ p :: after⟩) (same : p'.report = p.report)
    (filed : ∀ f, p'.found? = some f → f.IsFiled p.report t)
    (claims : ∀ key, p'.claims key = p.claims key) (unrecorded : ∀ key, p.recorded? key = none)
    (unrecorded' : ∀ key, p'.recorded? key = none) :
    Tracks m reports ⟨t, before ++ p' :: after⟩ := by
  apply h.advance h.keyed same filed
  · intro key id stands
    exact stands
  · intro key
    rw [claims key]
  · exact unrecorded
  · intro key
    rw [unrecorded' key, Option.toList_none, List.append_nil]

/-- A first call keeps the track. -/
theorem group {r : Report} (h : Tracks m reports ⟨t, before ++ .grouping r :: after⟩)
    (now : Instant) : Tracks m reports ⟨((Processing.grouping r).step hooks now t).2,
      before ++ ((Processing.grouping r).step hooks now t).1 :: after⟩ := by
  have keyed : t.Keyed := h.keyed
  rcases resolve_memory r now t with ⟨_, made⟩ | ⟨project, named, ⟨g, found, made⟩ | ⟨new, made⟩⟩
  · simp only [Processing.step, made]
    apply h.stay
    · rfl
    · intro f nothing
      cases nothing
    · intro key
      simp [Processing.claims]
    · exact fun _ => rfl
    · exact fun _ => rfl
  · obtain ⟨inside, filed⟩ := keyed.group?_eq_some_iff.1 found
    simp only [Processing.step, made]
    apply h.stay
    · rfl
    · intro f same
      cases same
      exact ⟨named, g, inside, rfl, filed⟩
    · intro key
      simp [Processing.claims]
    · exact fun _ => rfl
    · exact fun _ => rfl
  · have told : r.key? = some ⟨project, r.checksum⟩ := by
      rw [Report.key?, named]
      rfl
    simp only [Processing.step, made]
    refine h.advance (keyed.addGroup (g := .ofReport r project now) new) rfl ?_ ?_ ?_ ?_ ?_
    · intro f same
      cases same
      exact ⟨named, Memory.files_addGroup.2 (.inr ⟨rfl, rfl⟩)⟩
    · intro key id stands
      exact Memory.files_addGroup.2 (.inl stands)
    · intro key
      rw [Memory.keys_addGroup, List.count_append]
      show _ = 0 + (_ + [(⟨project, r.checksum⟩ : Key)].count key)
      by_cases same : (⟨project, r.checksum⟩ : Key) = key
      · simp [Processing.claims, told, same, Nat.add_comm]
      · simp [Processing.claims, told, same]
    · exact fun _ => rfl
    · intro key
      rw [keyed.occurrences_addGroup (g := .ofReport r project now) new]
      exact (List.append_nil _).symm

/-- A second call keeps the track. -/
theorem record {r : Report} {f : Found}
    (h : Tracks m reports ⟨t, before ++ .recording r f :: after⟩) (now : Instant) :
    Tracks m reports ⟨((Processing.recording r f).step hooks now t).2,
      before ++ ((Processing.recording r f).step hooks now t).1 :: after⟩ := by
  have keyed : t.Keyed := h.keyed
  have there : f.IsFiled r t :=
    h.filed (.recording r f) (List.mem_append_right _ List.mem_cons_self) f rfl
  rcases record_memory hooks r f t with
    ⟨e, made⟩ | ⟨g, total, count, o, _, found, sum, made, -, isNew⟩
  · simp only [Processing.step, made]
    apply h.stay
    · rfl
    · intro f' same
      cases same
      exact there
    · exact fun _ => rfl
    · exact fun _ => rfl
    · exact fun _ => rfl
  · have filed : g.key = ⟨f.project, r.checksum⟩ := keyed.key_of_files there.2 found
    have files (key : Key) (id : Int) :
        ((t.addEvent (.ofReport r f.project f.group.id)).2.replaceGroup
          (g.counted f.now total count)).Files key id ↔ t.Files key id :=
      keyed.files_recorded found f.now total count
    simp only [Processing.step, made]
    refine h.advance (keyed.recorded found sum f.now) rfl ?_ ?_ ?_ ?_ ?_
    · intro f' same
      cases same
      exact ⟨there.1, (files _ _).2 there.2⟩
    · intro key id stands
      exact (files key id).2 stands
    · intro key
      rw [keyed.keys_recorded found]
      simp [Processing.claims, isNew]
    · exact fun _ => rfl
    · intro key
      rw [keyed.occurrences_recorded found, filed]
      simp only [Processing.recorded?, Report.occurrence?, there.key?, Option.some.injEq]
      split
      · next same =>
        subst same
        rfl
      · rfl

/-- One call of a processing keeps the track. -/
theorem step (h : Tracks m reports ⟨t, before ++ p :: after⟩) (now : Instant) :
    Tracks m reports ⟨(p.step hooks now t).2, before ++ (p.step hooks now t).1 :: after⟩ := by
  cases p with
  | grouping r => exact h.group now
  | recording r f => exact h.record now
  | done r f o => exact h
  | failed r f? e => exact h

theorem turn (h : Tracks m reports b) (who : Nat × Instant) :
    Tracks m reports (b.turn hooks who) := by
  rcases b.turn_cases hooks who with same | ⟨before, p, after, split, made⟩
  · rw [same]
    exact h
  · obtain ⟨t, calls⟩ := b
    obtain rfl : calls = before ++ p :: after := split
    rw [made]
    exact h.step who.2

theorem run (h : Tracks m reports b) (schedule : List (Nat × Instant)) :
    Tracks m reports (b.run hooks schedule) := by
  induction schedule generalizing b with
  | nil => exact h
  | cons who rest ih => exact ih (h.turn who)

/-- If all goes well, whoever claims a new group tells so. -/
theorem newReports_add_count (h : Tracks m reports b) (all : b.Succeeded) (key : Key) :
    b.newReports key + m.keys.count key = b.store.keys.count key := by
  have same : b.newReports key = b.calls.countP (Processing.claims key) := by
    refine List.countP_congr fun p member => ?_
    obtain ⟨r, f, o, rfl⟩ := all.done p member
    rfl
  rw [same]
  exact h.made key

/-- If all goes well, every report is stored. -/
theorem occurrences_perm (h : Tracks m reports b) (all : b.Succeeded) (key : Key) :
    (b.store.occurrences key).Perm
      (m.occurrences key ++ reports.filterMap fun r => r.occurrence? key) := by
  have same : b.calls.filterMap (Processing.recorded? key) =
      reports.filterMap fun r => r.occurrence? key := by
    rw [← h.asked, List.filterMap_map]
    refine List.filterMap_congr fun p member => ?_
    obtain ⟨r, f, o, rfl⟩ := all.done p member
    rfl
  rw [← same]
  exact h.kept key

/-- If all goes well, the keys are those from before and those of the reports. -/
theorem mem_keys_iff (h : Tracks m reports b) (all : b.Succeeded) (key : Key) :
    key ∈ b.store.keys ↔ key ∈ m.keys ∨ ∃ r ∈ reports, r.key? = some key := by
  have made := h.made key
  constructor
  · intro member
    by_cases old : key ∈ m.keys
    · exact .inl old
    · rw [List.count_eq_zero_of_not_mem old, Nat.add_zero] at made
      have claimed : 0 < b.calls.countP (Processing.claims key) := by
        rw [made]
        exact List.count_pos_iff.2 member
      obtain ⟨p, inside, claims⟩ := List.countP_pos_iff.1 claimed
      obtain ⟨r, f, o, rfl⟩ := all.done p inside
      refine .inr ⟨r, h.asked ▸ List.mem_map_of_mem inside, ?_⟩
      simp only [Processing.claims, Bool.and_eq_true, decide_eq_true_eq] at claims
      exact claims.1
  · rintro (old | ⟨r, member, told⟩)
    · have one := List.count_pos_iff.2 old
      exact List.count_pos_iff.1 (by omega)
    · rw [← h.asked] at member
      obtain ⟨p, inside, rfl⟩ := List.mem_map.1 member
      obtain ⟨r, f, o, rfl⟩ := all.done p inside
      have there := h.filed _ inside f rfl
      rw [there.key?] at told
      cases told
      obtain ⟨g, stands, -, filed⟩ := there.2
      exact List.mem_map.2 ⟨g, stands, filed⟩

end Tracks

/-- What processing reports at one time leaves does not depend on the schedule, if all goes well.
    Every key of a report has one group then, and one processing told that it made the group, or
    none if it was there before.  For every key, any two schedules agree on the counters of its
    group and, up to their order, on its occurrences. -/
theorem schedules_agree (hooks : List Hook) (commands : List Ledger.Command)
    (reports : List Report) (schedule₁ schedule₂ : List (Nat × Instant))
    (all₁ : ((start (.after .empty commands) reports).run hooks schedule₁).Succeeded)
    (all₂ : ((start (.after .empty commands) reports).run hooks schedule₂).Succeeded) :
    let m := Memory.empty.after commands
    let b₁ := (start m reports).run hooks schedule₁
    let b₂ := (start m reports).run hooks schedule₂
    (∀ key, (∃ r ∈ reports, r.key? = some key) →
      b₁.store.keys.count key = 1 ∧ b₁.newReports key = if key ∈ m.keys then 0 else 1) ∧
    ∀ key,
      (b₁.store.group? key).map Group.counters = (b₂.store.group? key).map Group.counters ∧
      (b₁.store.occurrences key).Perm (b₂.store.occurrences key) := by
  intro m b₁ b₂
  have keyed : m.Keyed := Memory.keyed_after commands
  have h₁ : Tracks m reports b₁ := (Tracks.start keyed reports).run schedule₁
  have h₂ : Tracks m reports b₂ := (Tracks.start keyed reports).run schedule₂
  constructor
  · intro key asked
    have member : key ∈ b₁.store.keys := (h₁.mem_keys_iff all₁ key).2 (.inr asked)
    have one : b₁.store.keys.count key = 1 :=
      List.count_eq_one_of_mem h₁.keyed.nodup_keys member
    have made := h₁.newReports_add_count all₁ key
    refine ⟨one, ?_⟩
    split
    · next before =>
      rw [List.count_eq_one_of_mem keyed.nodup_keys before] at made
      omega
    · next new =>
      rw [List.count_eq_zero_of_not_mem new] at made
      omega
  · intro key
    have rows : (b₁.store.occurrences key).Perm (b₂.store.occurrences key) :=
      (h₁.occurrences_perm all₁ key).trans (h₂.occurrences_perm all₂ key).symm
    have keys : key ∈ b₁.store.keys ↔ key ∈ b₂.store.keys :=
      (h₁.mem_keys_iff all₁ key).trans (h₂.mem_keys_iff all₂ key).symm
    refine ⟨?_, rows⟩
    rw [h₁.keyed.counters_eq, h₂.keyed.counters_eq, Ledger.countersOf_perm rows]
    exact if_congr keys rfl rfl

/-- The second of two reports of one error is processed while the first one waits. -/
def overtaken : List (Nat × Instant) := [(1, .epoch), (0, .epoch), (0, .epoch), (1, .epoch)]

/-- The two reports one after the other. -/
def inTurn : List (Nat × Instant) := [(0, .epoch), (0, .epoch), (1, .epoch), (1, .epoch)]

theorem schedules_agree_overtaken :
    let b₁ := (start .empty [.plain, .plain]).run [] inTurn
    let b₂ := (start .empty [.plain, .plain]).run [] overtaken
    b₁.Succeeded ∧ b₂.Succeeded ∧ b₁.newReports ⟨⟨1⟩, "abc"⟩ = 1 ∧
      (b₁.store.occurrences ⟨⟨1⟩, "abc"⟩).Perm (b₂.store.occurrences ⟨⟨1⟩, "abc"⟩) := by
  intro b₁ b₂
  have all₁ : b₁.Succeeded := by decide +kernel
  have all₂ : b₂.Succeeded := by decide +kernel
  have agree := schedules_agree [] [] [.plain, .plain] inTurn overtaken all₁ all₂
  have asked : ∃ r ∈ [Report.plain, .plain], r.key? = some ⟨⟨1⟩, "abc"⟩ :=
    ⟨.plain, List.mem_cons_self, rfl⟩
  exact ⟨all₁, all₂, (agree.1 _ asked).2, (agree.2 _).2⟩

end Batch

end Worker

end ErrorIntake
