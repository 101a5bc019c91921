import ErrorIntake.Ledger.Unreliable
import ErrorIntake.Proofs.Worker.Filing

/-!
# Processing a report again

A processing that fails is tried again with the same report.  `run_cases` has what a trial can do to
a store in memory whose calls may fail: it fails and leaves at most the group of the report's key
there, or makes its second call.  So trials that fail, with one behind them that succeeds, leave what
that one alone leaves, but for the times of a group that one of them made.
-/

namespace ErrorIntake

open Calendar (Instant)

namespace Ledger

/-- The group if it was made at another time, and not reopened since. -/
def Group.madeAt (g : Group) (time : Instant) : Group :=
  { g with firstSeen := time, activeAt := time }

/-- The store if the group of a key was made at another time, and not reopened since. -/
def Memory.madeAt (m : Memory) (key : Key) (time : Instant) : Memory :=
  { m with groups := m.groups.map fun g => if g.key = key then g.madeAt time else g }

/-- The second store is the first with a group that was not there, and that has seen nothing. -/
structure Memory.GainsGroup (m : Memory) (g : NewGroup) (m' : Memory) : Prop where
  new : m.group? g.key = none
  gained : m' = (m.addGroup g).2
  unseen : (m.addGroup g).1.timesSeen = 0
  empty : m'.listEvents (m.addGroup g).1.id = []

namespace Memory

theorem Keyed.gainsGroup {m : Memory} (h : m.Keyed) {g : NewGroup} (new : m.group? g.key = none) :
    m.GainsGroup g (m.addGroup g).2 where
  new := new
  gained := rfl
  unseen := rfl
  empty := h.listEvents_eq_nil (Int.lt_succ _)

/-- A new group is found under its id. -/
theorem Keyed.groupById?_created {m : Memory} (h : m.Keyed) {g : NewGroup}
    (new : m.group? g.key = none) :
    (m.addGroup g).2.groupById? (m.addGroup g).1.id = some (m.addGroup g).1 :=
  (h.addGroup new).groupById?_of_mem (List.mem_append_right _ (List.mem_singleton_self _))

theorem getOrCreateGroup_of_new {m : Memory} {g : NewGroup} (new : m.group? g.key = none) :
    m.getOrCreateGroup g = (((m.addGroup g).1, true), (m.addGroup g).2) := by
  rw [getOrCreateGroup, new]

/-- A group that was just made answers the next call for its key. -/
theorem Keyed.getOrCreateGroup_created {m : Memory} (h : m.Keyed) {g later : NewGroup}
    (new : m.group? g.key = none) (same : later.key = g.key) :
    (m.addGroup g).2.getOrCreateGroup later = (((m.addGroup g).1, false), (m.addGroup g).2) := by
  have there : (m.addGroup g).2.group? later.key = some (m.addGroup g).1 := by
    rw [h.group?_addGroup new, if_pos same.symm]
  rw [getOrCreateGroup, there]

/-- Changing what is not there changes nothing. -/
theorem map_of_never {α : Type} {p : α → Prop} [DecidablePred p] (f : α → α) {l : List α}
    (never : ∀ a ∈ l, ¬ p a) : (l.map fun a => if p a then f a else a) = l :=
  (List.map_congr_left fun a inside => if_neg (never a inside)).trans l.map_id

/-- A group that was just made stands behind all others once an event is counted in it. -/
theorem Keyed.groups_counted_created {m : Memory} (h : m.Keyed) (g : NewGroup) (e : NewEvent)
    (seenAt : Instant) (total count : Int) :
    (((m.addGroup g).2.addEvent e).2.replaceGroup
      ((m.addGroup g).1.counted seenAt total count)).groups =
        m.groups ++ [(m.addGroup g).1.counted seenAt total count] := by
  have fresh (old : Group) (inside : old ∈ m.groups) : old.id ≠ (m.addGroup g).1.id :=
    (Int.lt_of_le_of_lt (h.bound old inside) (Int.lt_succ _)).ne
  show (m.groups ++ [(m.addGroup g).1]).map _ = _
  rw [Group.counted_id, List.map_append,
    map_of_never (p := fun old : Group => old.id = (m.addGroup g).1.id) _ fresh, List.map_singleton,
    if_pos rfl]

/-- Once an event is counted in a group, only the times of the group tell when it was made. -/
theorem Keyed.counted_madeAt {m : Memory} (h : m.Keyed) {g : NewGroup} (e : NewEvent)
    (new : m.group? g.key = none) (time seenAt : Instant) (total count : Int) :
    ((m.addGroup { g with seenAt := time }).2.addEvent e).2.replaceGroup
        ((m.addGroup { g with seenAt := time }).1.counted seenAt total count) =
      (((m.addGroup g).2.addEvent e).2.replaceGroup
        ((m.addGroup g).1.counted seenAt total count)).madeAt g.key time := by
  have apart := h.group?_eq_none_iff.1 new
  have filed : ((m.addGroup g).1.counted seenAt total count).key = g.key := Group.counted_key ..
  have groups : ((((m.addGroup g).2.addEvent e).2.replaceGroup
      ((m.addGroup g).1.counted seenAt total count)).madeAt g.key time).groups =
        m.groups ++ [((m.addGroup g).1.counted seenAt total count).madeAt time] := by
    rw [madeAt, h.groups_counted_created, List.map_append,
      map_of_never (p := fun old : Group => old.key = g.key) _ apart, List.map_singleton,
      if_pos filed]
  exact (Memory.mk.injEq ..).mpr
    ⟨(h.groups_counted_created ..).trans groups.symm, rfl, rfl, rfl, rfl⟩

theorem map_id_madeAt (m : Memory) (key : Key) (time : Instant) :
    (m.madeAt key time).groups.map Group.id = m.groups.map Group.id := by
  simp only [madeAt, List.map_map]
  refine List.map_congr_left fun g _ => ?_
  simp only [Function.comp_apply]
  split <;> rfl

theorem map_counters_madeAt (m : Memory) (key : Key) (time : Instant) :
    (m.madeAt key time).groups.map Group.counters = m.groups.map Group.counters := by
  simp only [madeAt, List.map_map]
  refine List.map_congr_left fun g _ => ?_
  simp only [Function.comp_apply]
  split <;> rfl

end Memory

end Ledger

namespace Worker

open Ledger (EventStore Group Key Memory NewGroup Unreliable)

/-- An attempt to process a report: when it is made, and which calls of the store fail in it, and
    how. -/
structure Trial where
  now : Instant
  outages : Ledger.Call → Nat := fun _ => 0
  failure : Ledger.Call → StoreError := fun _ => .database

namespace Trial

/-- Processes a report: the answer, the store after it, and what is seen. -/
def run (hooks : List Hook) (r : Report) (m : Memory) (a : Trial) :
    Except StoreError Outcome × Memory × Trace :=
  let (answer, t, shown) := process hooks r a.now (⟨m, a.outages, a.failure⟩ : Unreliable Memory)
  (answer, t.inner, shown)

/-- The store after some trials. -/
def after (hooks : List Hook) (r : Report) (m : Memory) (trials : List Trial) : Memory :=
  trials.foldl (fun m a => (a.run hooks r m).2.1) m

/-- Every one of these trials fails, each in the store that those before it left. -/
def AllFail (hooks : List Hook) (r : Report) : Memory → List Trial → Prop
  | _, [] => True
  | m, a :: rest => (∃ e, (a.run hooks r m).1 = .error e) ∧ AllFail hooks r (a.run hooks r m).2.1 rest

@[simp] theorem after_cons (hooks : List Hook) (r : Report) (m : Memory) (a : Trial)
    (rest : List Trial) :
    after hooks r m (a :: rest) = after hooks r (a.run hooks r m).2.1 rest := rfl

theorem allFail_append {hooks : List Hook} {r : Report} {m : Memory} {first rest : List Trial} :
    AllFail hooks r m (first ++ rest) ↔
      AllFail hooks r m first ∧ AllFail hooks r (after hooks r m first) rest := by
  induction first generalizing m with
  | nil => simp [AllFail, after]
  | cons a first ih => rw [List.cons_append, AllFail, AllFail, after_cons, ih, and_assoc]

variable {hooks : List Hook} {r : Report} {p : ProjectId} {m : Memory} {a : Trial}

theorem run_of_no_project (nobody : r.project = none) (a : Trial) :
    a.run hooks r m = (.error (noProject r), m, {}) := by
  simp only [run, process, resolve, nobody]

/-- A trial without outages makes both calls. -/
theorem run_of_calm (named : r.project = some p) (grouping : a.outages .group = 0)
    (recording : a.outages .record = 0) :
    a.run hooks r m =
      record hooks r
        ⟨p, a.now, (m.getOrCreateGroup (.ofReport r p a.now)).1.1,
          (m.getOrCreateGroup (.ofReport r p a.now)).1.2⟩
        (m.getOrCreateGroup (.ofReport r p a.now)).2 := by
  simp only [run, process, resolve, named, EventStore.getOrCreateGroup, Unreliable.calling, grouping,
    Unreliable.passing, Except.map, record, EventStore.recordEvent, recording]
  -- Both sides ask how the recording ended.
  split
  · next failed => rw [failed]
  · next recorded => rw [recorded]

/-- A trial fails before it has changed anything, or with its group there, or has no outage. -/
theorem run_cases (hooks : List Hook) (m : Memory) (named : r.project = some p) (a : Trial) :
    (∃ e, a.run hooks r m = (.error e, m, {})) ∨
    (∃ e, a.run hooks r m =
      (.error e, (m.getOrCreateGroup (.ofReport r p a.now)).2, {})) ∨
    (a.outages .group = 0 ∧ a.outages .record = 0) := by
  cases grouping : a.outages .group with
  | succ left =>
    refine .inl ⟨a.failure .group, ?_⟩
    simp only [run, process, resolve, named, EventStore.getOrCreateGroup, Unreliable.calling,
      grouping, Except.map, Unreliable.fail]
  | zero =>
    cases recording : a.outages .record with
    | succ left =>
      refine .inr (.inl ⟨a.failure .record, ?_⟩)
      simp only [run, process, resolve, named, EventStore.getOrCreateGroup, Unreliable.calling,
        grouping, Unreliable.passing, Except.map, record, EventStore.recordEvent, recording,
        Unreliable.fail]
    | zero => exact .inr (.inr ⟨rfl, rfl⟩)

/-! ## Trials that fail -/

/-- A trial that fails calls no hook, and leaves the store alone or makes the group of the report's
    key there, if there was none. -/
theorem run_of_failed (named : r.project = some p) (failed : ∃ e, (a.run hooks r m).1 = .error e) :
    (a.run hooks r m).2.2 = {} ∧
      ((a.run hooks r m).2.1 = m ∨
        m.group? ⟨p, r.checksum⟩ = none ∧
          (a.run hooks r m).2.1 = (m.addGroup (.ofReport r p a.now)).2) := by
  have grouped : (m.getOrCreateGroup (.ofReport r p a.now)).2 = m ∨
      m.group? ⟨p, r.checksum⟩ = none ∧
        (m.getOrCreateGroup (.ofReport r p a.now)).2 = (m.addGroup (.ofReport r p a.now)).2 := by
    rcases m.getOrCreateGroup_cases (.ofReport r p a.now) with ⟨_, _, made⟩ | ⟨new, made⟩
    · exact .inl (by rw [made])
    · exact .inr ⟨new, by rw [made]⟩
  rcases run_cases hooks m named a with ⟨e, made⟩ | ⟨e, made⟩ | ⟨grouping, recording⟩
  · rw [made]
    exact ⟨rfl, .inl rfl⟩
  · rw [made]
    exact ⟨rfl, grouped⟩
  · rw [run_of_calm named grouping recording] at failed ⊢
    rcases record_memory hooks r ⟨p, a.now, (m.getOrCreateGroup (.ofReport r p a.now)).1.1,
        (m.getOrCreateGroup (.ofReport r p a.now)).1.2⟩
        (m.getOrCreateGroup (.ofReport r p a.now)).2 with
      ⟨e, made⟩ | ⟨_, _, _, o, _, _, _, made, _⟩
    · rw [made]
      exact ⟨rfl, grouped⟩
    · rw [made] at failed
      obtain ⟨e, failed⟩ := failed
      cases failed

/-- Trials that fail leave the store alone, or one of them makes the group of the report's key. -/
theorem after_of_failed (keyed : m.Keyed) (named : r.project = some p) {trials : List Trial}
    (failed : AllFail hooks r m trials) :
    after hooks r m trials = m ∨
    ∃ before a rest, trials = before ++ a :: rest ∧ after hooks r m before = m ∧
      m.group? ⟨p, r.checksum⟩ = none ∧
      (a.run hooks r m).2.1 = (m.addGroup (.ofReport r p a.now)).2 ∧
      after hooks r m trials = (m.addGroup (.ofReport r p a.now)).2 := by
  induction trials generalizing m with
  | nil => exact .inl rfl
  | cons a rest ih =>
    obtain ⟨first, others⟩ := failed
    rw [after_cons]
    rcases (run_of_failed named first).2 with still | ⟨new, made⟩
    · rw [still] at others ⊢
      rcases ih keyed others with same | ⟨before, b, later, rfl, untouched, new, made, left⟩
      · exact .inl same
      · refine .inr ⟨a :: before, b, later, rfl, ?_, new, made, left⟩
        rw [after_cons, still, untouched]
    · rw [made] at others ⊢
      have keyed' := keyed.addGroup (g := .ofReport r p a.now) new
      refine .inr ⟨[], a, rest, rfl, rfl, new, made, ?_⟩
      rcases ih keyed' others with same | ⟨_, _, _, _, _, absent, _⟩
      · exact same
      · -- The group is there now.
        rw [keyed.group?_addGroup (g := .ofReport r p a.now) new] at absent
        simp [NewGroup.ofReport, NewGroup.key] at absent

/-! ## The trial behind them -/

/-- A trial that succeeds has no outage. -/
theorem calm_of_ok (named : r.project = some p) {o : Outcome} (ok : (a.run hooks r m).1 = .ok o) :
    a.outages .group = 0 ∧ a.outages .record = 0 := by
  rcases run_cases hooks m named a with ⟨e, made⟩ | ⟨e, made⟩ | calm
  · rw [made] at ok
    cases ok
  · rw [made] at ok
    cases ok
  · exact calm

/-- A trial that finds the group that an earlier one made does what it does without that one, but
    for the times of the group and for what it says of who made it. -/
theorem run_of_made (keyed : m.Keyed) (named : r.project = some p)
    (new : m.group? ⟨p, r.checksum⟩ = none) (time : Instant) {o : Outcome} {final : Memory}
    {shown : Trace}
    (ok : a.run hooks r (m.addGroup (.ofReport r p time)).2 = (.ok o, final, shown)) :
    ∃ o₀ final₀ shown₀, a.run hooks r m = (.ok o₀, final₀, shown₀) ∧
      final = final₀.madeAt ⟨p, r.checksum⟩ time ∧ o₀.isNewGroup = true ∧
      o = { o₀ with group := o₀.group.madeAt time, isNewGroup := false,
                    hookFailures := o.hookFailures } := by
  obtain ⟨grouping, recording⟩ := calm_of_ok (a := a) named (congrArg Prod.fst ok)
  have found : (m.addGroup (.ofReport r p time)).2.getOrCreateGroup (.ofReport r p a.now) =
      (((m.addGroup (.ofReport r p time)).1, false), (m.addGroup (.ofReport r p time)).2) :=
    keyed.getOrCreateGroup_created (g := .ofReport r p time) new rfl
  have made : m.getOrCreateGroup (.ofReport r p a.now) =
      (((m.addGroup (.ofReport r p a.now)).1, true), (m.addGroup (.ofReport r p a.now)).2) :=
    Memory.getOrCreateGroup_of_new (g := .ofReport r p a.now) new
  rw [run_of_calm named grouping recording, found] at ok
  rw [run_of_calm named grouping recording, made]
  have here := keyed.groupById?_created (g := .ofReport r p time) new
  have here₀ := keyed.groupById?_created (g := .ofReport r p a.now) new
  rcases record_of_found hooks (r := r)
      (f := ⟨p, a.now, (m.addGroup (.ofReport r p time)).1, false⟩) here with
    ⟨_, e, other⟩ | ⟨total, count, sum, other⟩
  · rw [other] at ok
    cases ok
  · rw [other] at ok
    cases ok
    rcases record_of_found hooks (r := r)
        (f := ⟨p, a.now, (m.addGroup (.ofReport r p a.now)).1, true⟩) here₀ with
      ⟨sum₀, _⟩ | ⟨total₀, count₀, sum₀, other₀⟩
    · cases sum.symm.trans sum₀
    · cases sum.symm.trans sum₀
      exact ⟨_, _, _, other₀, keyed.counted_madeAt (g := .ofReport r p a.now) _ new time .., rfl, rfl⟩

/-- Without a project every trial fails and leaves the store alone. -/
theorem after_of_no_project (nobody : r.project = none) (trials : List Trial) :
    after hooks r m trials = m := by
  induction trials with
  | nil => rfl
  | cons a rest ih => rw [after_cons, run_of_no_project nobody, ih]

/-- A trial that fails, of some that do, calls no hook and leaves at most the group there. -/
theorem left_of_failed (keyed : m.Keyed) {before rest : List Trial}
    (failed : AllFail hooks r m (before ++ a :: rest)) :
    (a.run hooks r (after hooks r m before)).2.2 = {} ∧
      ((a.run hooks r (after hooks r m before)).2.1 = after hooks r m before ∨
        ∃ p, r.project = some p ∧
          (after hooks r m before).GainsGroup (.ofReport r p a.now)
            (a.run hooks r (after hooks r m before)).2.1) := by
  obtain ⟨earlier, this, _⟩ := allFail_append.1 failed
  cases named : r.project with
  | none =>
    rw [run_of_no_project named]
    exact ⟨rfl, .inl rfl⟩
  | some p =>
    have keyed' : (after hooks r m before).Keyed := by
      rcases after_of_failed keyed named earlier with same | ⟨_, b, _, _, _, new, _, left⟩
      · rw [same]
        exact keyed
      · rw [left]
        exact keyed.addGroup (g := .ofReport r p b.now) new
    obtain ⟨quiet, still | ⟨new, made⟩⟩ := run_of_failed named this
    · exact ⟨quiet, .inl still⟩
    · refine ⟨quiet, .inr ⟨p, rfl, ?_⟩⟩
      rw [made]
      exact keyed'.gainsGroup (g := .ofReport r p a.now) new

/-- Trials that fail leave nothing that a later one could do twice.  Each of them calls no hook, and
    leaves the store alone or with an empty group of the report's key; without a project the store
    is never changed.  A trial behind them that succeeds would succeed alone, and leaves the rows,
    the groups and their counters that it leaves alone: if a trial that failed made the group then
    its times are that trial's, and the last one does not say that it made it. -/
theorem retried_like_once (commands : List Ledger.Command) (hooks : List Hook) (r : Report)
    (trials : List Trial) (failed : AllFail hooks r (Memory.empty.after commands) trials) :
    let m := Memory.empty.after commands
    (r.project = none → after hooks r m trials = m) ∧
    (∀ before a rest, trials = before ++ a :: rest →
      let store := after hooks r m before
      let left := a.run hooks r store
      left.2.2 = ({} : Trace) ∧
        (left.2.1 = store ∨
          ∃ p, r.project = some p ∧ store.GainsGroup (.ofReport r p a.now) left.2.1)) ∧
    ∀ (last : Trial) (o : Outcome) (final : Memory) (shown : Trace),
      last.run hooks r (after hooks r m trials) = (.ok o, final, shown) →
      ∃ o₀ final₀ shown₀, last.run hooks r m = (.ok o₀, final₀, shown₀) ∧
        final.events = final₀.events ∧
        final.groups.map Group.id = final₀.groups.map Group.id ∧
        final.groups.map Group.counters = final₀.groups.map Group.counters ∧
        (final = final₀ ∧ o = o₀ ∧ shown = shown₀ ∨
          ∃ before a rest p, trials = before ++ a :: rest ∧ r.project = some p ∧
            (after hooks r m before).GainsGroup (.ofReport r p a.now)
              (a.run hooks r (after hooks r m before)).2.1 ∧
            final = final₀.madeAt ⟨p, r.checksum⟩ a.now ∧ o₀.isNewGroup = true ∧
            o = { o₀ with group := o₀.group.madeAt a.now, isNewGroup := false,
                          hookFailures := o.hookFailures }) := by
  intro m
  have keyed : m.Keyed := Ledger.Memory.keyed_after commands
  refine ⟨fun nobody => after_of_no_project nobody trials, ?_, ?_⟩
  · rintro before a rest rfl
    exact left_of_failed keyed failed
  · intro last o final shown ok
    cases named : r.project with
    | none =>
      rw [run_of_no_project named] at ok
      cases ok
    | some p =>
      rcases after_of_failed keyed named failed with
        same | ⟨before, a, rest, parts, untouched, new, made, left⟩
      · rw [same] at ok
        exact ⟨o, final, shown, ok, rfl, rfl, rfl, .inl ⟨rfl, rfl, rfl⟩⟩
      · rw [left] at ok
        obtain ⟨o₀, final₀, shown₀, ok₀, rfl, first, told⟩ := run_of_made keyed named new a.now ok
        refine ⟨o₀, final₀, shown₀, ok₀, rfl, Ledger.Memory.map_id_madeAt ..,
          Ledger.Memory.map_counters_madeAt .., .inr ?_⟩
        refine ⟨before, a, rest, p, parts, rfl, ?_, rfl, first, told⟩
        rw [untouched, made]
        exact keyed.gainsGroup (g := .ofReport r p a.now) new

/-- Recording fails, and then finding the group fails. -/
def twoOutages : List Trial :=
  [{ now := ⟨1, 0⟩, outages := fun call => if call = .record then 1 else 0 },
    { now := ⟨2, 0⟩, outages := fun call => if call = .group then 1 else 0 }]

theorem retried_like_once_twoOutages :
    AllFail [] Report.plain .empty twoOutages ∧
    ∃ final final₀ o shown, run [] Report.plain (after [] Report.plain .empty twoOutages)
        { now := ⟨3, 0⟩ } = (.ok o, final, shown) ∧
      run [] Report.plain .empty { now := ⟨3, 0⟩ } = (.ok { o with
        isNewGroup := true
        group := { o.group with firstSeen := ⟨3, 0⟩, activeAt := ⟨3, 0⟩ } }, final₀, {}) ∧
      o.isNewGroup = false ∧ o.group.firstSeen = ⟨1, 0⟩ ∧ final.events = final₀.events ∧
      final.groups.map Group.counters = final₀.groups.map Group.counters := by
  have failed : AllFail [] Report.plain .empty twoOutages := ⟨⟨_, rfl⟩, ⟨_, rfl⟩, trivial⟩
  obtain ⟨o₀, final₀, shown₀, ok₀, rows, _, counters, _⟩ :=
    (retried_like_once [] [] Report.plain twoOutages failed).2.2 { now := ⟨3, 0⟩ } _ _ _ rfl
  cases ok₀
  exact ⟨failed, _, _, _, _, rfl, rfl, rfl, rfl, rows, counters⟩

end Trial

end Worker

end ErrorIntake
