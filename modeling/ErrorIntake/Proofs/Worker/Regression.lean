import ErrorIntake.Ledger.Memory
import ErrorIntake.Proofs.Ledger.Commands
import ErrorIntake.Worker.Processing
import Mathlib.Logic.Function.Basic

/-!
# Reports of regressions

A report is processed in two calls of the store, and others may act between them.  The flag that
hooks see is computed from the group as the first call found it and as the second call left it, so
it tells whether the second call reopened the group unless somebody changed the status in between.
Here many reports are processed in any order of their calls, while people change statuses.
-/

namespace ErrorIntake.Worker

open Calendar (Instant)
open Ledger (EventStore Group Memory)

/-- A processing that ended well: the group it found, the store before and after its second call,
    its outcome and what was seen of it. -/
structure Ending where
  found : Found
  before : Memory
  after : Memory
  outcome : Outcome
  shown : Trace

namespace Ending

/-- The status that the second call found. -/
def statusBefore (e : Ending) : Option GroupStatus :=
  (e.before.groupById? e.found.group.id).map Group.status

/-- The status that the second call left. -/
def statusAfter (e : Ending) : Option GroupStatus :=
  (e.after.groupById? e.found.group.id).map Group.status

/-- The second call changed the group from resolved to unresolved. -/
def Reopened (e : Ending) : Prop :=
  e.statusBefore = some .resolved ∧ e.statusAfter = some .unresolved

/-- The group was resolved when it was found, and somebody reopened it before the second call. -/
def Spurious (e : Ending) : Prop :=
  e.found.group.status = .resolved ∧ e.statusBefore = some .unresolved

/-- The group was not resolved when it was found, and somebody resolved it before the second
    call. -/
def Missed (e : Ending) : Prop :=
  e.found.group.status ≠ .resolved ∧ e.statusBefore = some .resolved

instance (e : Ending) : Decidable e.Reopened := inferInstanceAs (Decidable (_ ∧ _))

instance (e : Ending) : Decidable e.Spurious := inferInstanceAs (Decidable (_ ∧ _))

instance (e : Ending) : Decidable e.Missed := inferInstanceAs (Decidable (_ ∧ _))

end Ending

/-- A call of the store by one of the processings, or by someone who sets a status. -/
inductive Move
  /-- The first call of a processing. -/
  | resolve (i : Nat) (r : Report) (now : Instant)
  /-- The second call of a processing. -/
  | record (i : Nat)
  | setStatus (group : Int) (status : GroupStatus) (now : Instant)

/-- A store that many processings share. -/
structure Shared where
  store : Memory
  /-- The processings that have made their first call and not their second. -/
  waiting : Nat → Option (Report × Found)
  /-- The processings that ended well, the oldest first. -/
  ended : List Ending

namespace Shared

/-- Nothing has happened yet. -/
def start : Shared := ⟨.empty, fun _ => none, []⟩

/-- What is left of a second call that ended so. -/
def endingOf (f : Found) (before after : Memory) (shown : Trace) :
    Except StoreError Outcome → List Ending
  | .error _ => []
  | .ok o => [⟨f, before, after, o, shown⟩]

/-- One call. -/
def step (hooks : List Hook) (s : Shared) : Move → Shared
  | .resolve i r now =>
    match s.waiting i with
    | some _ => s
    | none =>
      let (found, store) := resolve r now s.store
      { s with store, waiting := Function.update s.waiting i (found.toOption.map fun f => (r, f)) }
  | .record i =>
    match s.waiting i with
    | none => s
    | some (r, f) =>
      let (recorded, store, shown) := record hooks r f s.store
      { store
        waiting := Function.update s.waiting i none
        ended := s.ended ++ endingOf f s.store store shown recorded }
  | .setStatus id status now =>
    { s with store := (EventStore.setGroupStatus id status now s.store).2 }

/-- Some calls in turn. -/
def run (hooks : List Hook) (s : Shared) (moves : List Move) : Shared := moves.foldl (step hooks) s

@[simp] theorem run_nil (hooks : List Hook) (s : Shared) : s.run hooks [] = s := rfl

@[simp] theorem run_cons (hooks : List Hook) (s : Shared) (m : Move) (rest : List Move) :
    s.run hooks (m :: rest) = (s.step hooks m).run hooks rest := rfl

/-- The status of a group. -/
def status? (s : Shared) (id : Int) : Option GroupStatus :=
  (s.store.groupById? id).map Group.status

/-- How often a call reopened a group: once if it recorded an event and the group was resolved
    before and is unresolved after it. -/
def reopening (hooks : List Hook) (id : Int) (s : Shared) : Move → Nat
  | .record i =>
    if s.status? id = some .resolved ∧ (s.step hooks (.record i)).status? id = some .unresolved
    then 1 else 0
  | _ => 0

/-- How often some calls in turn reopened a group by recording an event. -/
def reopenings (hooks : List Hook) (id : Int) : Shared → List Move → Nat
  | _, [] => 0
  | s, m :: rest => reopening hooks id s m + reopenings hooks id (s.step hooks m) rest

/-- How many processings of a group ended in some way. -/
def countEnded (s : Shared) (id : Int) (p : Ending → Bool) : Nat :=
  s.ended.countP fun e => e.found.group.id == id && p e

end Shared

/-! ## What the second call does -/

/-- What holds of every processing that ended well. -/
structure Ending.Sound (hooks : List Hook) (e : Ending) : Prop where
  present : ∃ status, e.statusBefore = some status ∧
    e.statusAfter = some (if status = .resolved then .unresolved else status)
  flag : e.outcome.isRegression = true ↔
    e.found.group.status = .resolved ∧ e.statusAfter = some .unresolved
  shown : e.shown.calls.map (fun c => (c.hook, c.seen.isRegression)) =
    hooks.map fun h => (h.name, e.outcome.isRegression)
  frame : ∀ id, id ≠ e.found.group.id → e.after.groupById? id = e.before.groupById? id

/-- A second call fails and leaves the store alone, or ends well. -/
theorem record_sound (hooks : List Hook) (r : Report) (f : Found) (t : Memory) :
    (∃ e shown, record hooks r f t = (.error e, t, shown)) ∨
    (∃ o t' shown, record hooks r f t = (.ok o, t', shown) ∧
      Ending.Sound hooks ⟨f, t, t', o, shown⟩) := by
  generalize made : Ledger.NewEvent.ofReport r f.project f.group.id = e
  have group : e.group = f.group.id := by rw [← made]; rfl
  rcases t.recordEvent_cases e f.now with ⟨_, call⟩ | ⟨_, _, _, call⟩ | ⟨g, total, count, found, _, call⟩
  · change EventStore.recordEvent e f.now t = _ at call
    exact .inl ⟨_, _, by simp only [record, made, call]; rfl⟩
  · change EventStore.recordEvent e f.now t = _ at call
    exact .inl ⟨_, _, by simp only [record, made, call]; rfl⟩
  · change EventStore.recordEvent e f.now t = _ at call
    have after := Memory.groupById?_recorded found f.now total count
    have counted := Group.counted_status g f.now total count
    rw [group] at found after
    refine .inr ⟨_, _, _, by simp only [record, made, call]; rfl, ⟨g.status, ?_, ?_⟩, ?_, ?_, ?_⟩
    · simp only [Ending.statusBefore, found, Option.map_some]
    · simp only [Ending.statusAfter, after, if_true, Option.map_some, counted]
    · simp only [Ending.statusAfter, after, if_true, Option.map_some, Option.some.injEq]
      show isRegression f.group (g.counted f.now total count) = true ↔ _
      simp only [isRegression, Bool.and_eq_true, beq_iff_eq]
    · show (fire hooks _).map _ = _
      rw [fire, List.map_map]
      rfl
    · intro id apart
      rw [after, if_neg apart]

namespace Ending.Sound

variable {hooks : List Hook} {e : Ending}

/-- The flag is set if the group was resolved when it was found and has not been muted since. -/
theorem flag_iff (h : e.Sound hooks) : e.outcome.isRegression = true ↔
    e.found.group.status = .resolved ∧ e.statusBefore ≠ some .muted := by
  obtain ⟨status, before, after⟩ := h.present
  rw [h.flag, before, after]
  cases status <;> simp

theorem reopened_iff (h : e.Sound hooks) : e.Reopened ↔ e.statusBefore = some .resolved := by
  obtain ⟨status, before, after⟩ := h.present
  rw [Ending.Reopened, before, after]
  cases status <;> simp

/-- The flag tells who reopened the group unless somebody reopened or resolved it in between. -/
theorem flag_right_iff (h : e.Sound hooks) :
    (e.outcome.isRegression = true ↔ e.Reopened) ↔ ¬ e.Spurious ∧ ¬ e.Missed := by
  obtain ⟨status, before, after⟩ := h.present
  rw [h.flag_iff, h.reopened_iff, Ending.Spurious, Ending.Missed, before]
  by_cases resolved : e.found.group.status = .resolved
  · cases status <;> simp [resolved]
  · cases status <;> simp [resolved]

/-- Of one processing, flag and miss weigh as much as reopening and spurious flag. -/
theorem flag_add_missed (h : e.Sound hooks) :
    (if e.outcome.isRegression = true then 1 else 0) + (if e.Missed then 1 else 0) =
      (if e.Reopened then 1 else 0) + (if e.Spurious then 1 else 0) := by
  obtain ⟨status, before, after⟩ := h.present
  simp only [h.flag_iff, h.reopened_iff, Ending.Spurious, Ending.Missed, before]
  by_cases resolved : e.found.group.status = .resolved
  · cases status <;> simp [resolved]
  · cases status <;> simp [resolved]

end Ending.Sound

namespace Shared

variable {hooks : List Hook} {s : Shared}

/-- What a call adds to the processings that ended well. -/
theorem ended_step (hooks : List Hook) (s : Shared) (m : Move) :
    ∃ new : List Ending, (s.step hooks m).ended = s.ended ++ new ∧
      (∀ e ∈ new, e.Sound hooks) ∧
      ∀ id, reopening hooks id s m =
        new.countP fun e => e.found.group.id == id && decide e.Reopened := by
  cases m with
  | resolve i r now =>
    refine ⟨[], ?_, by simp, fun _ => rfl⟩
    simp only [step]
    split <;> simp
  | setStatus group status now => exact ⟨[], by simp [step], by simp, fun _ => rfl⟩
  | record i =>
    cases waits : s.waiting i with
    | none =>
      have still : s.step hooks (.record i) = s := by simp only [step, waits]
      refine ⟨[], by rw [still, List.append_nil], by simp, fun id => ?_⟩
      simp only [reopening, still, List.countP_nil]
      rw [if_neg]
      rintro ⟨resolved, unresolved⟩
      rw [resolved] at unresolved
      cases unresolved
    | some call =>
      obtain ⟨r, f⟩ := call
      rcases record_sound hooks r f s.store with ⟨_, _, made⟩ | ⟨o, t', shown, made, sound⟩
      · refine ⟨[], by simp only [step, waits, made, endingOf], by simp, fun id => ?_⟩
        have same : (s.step hooks (.record i)).status? id = s.status? id := by
          simp only [status?, step, waits, made]
        rw [reopening, same, List.countP_nil, if_neg]
        rintro ⟨resolved, unresolved⟩
        rw [resolved] at unresolved
        cases unresolved
      · let e : Ending := ⟨f, s.store, t', o, shown⟩
        refine ⟨[e], by simp only [step, waits, made, endingOf, e], ?_, fun id => ?_⟩
        · intro new member
          rw [List.mem_singleton.1 member]
          exact sound
        · have after : (s.step hooks (.record i)).status? id =
              (t'.groupById? id).map Group.status := by
            simp only [status?, step, waits, made]
          rw [reopening, after, List.countP_singleton]
          by_cases same : f.group.id = id
          · subst same
            simp [e, Ending.Reopened, Ending.statusBefore, Ending.statusAfter, status?]
          · have frame := sound.frame id (Ne.symm same)
            rw [frame, status?, if_neg, if_neg]
            · simp [e, same]
            · rintro ⟨resolved, unresolved⟩
              rw [resolved] at unresolved
              cases unresolved

/-- Every processing that ended well is sound, and those that reopened a group are as many as the
    calls that did. -/
theorem ended_run (hooks : List Hook) (moves : List Move) (s : Shared) :
    ∃ new : List Ending, (s.run hooks moves).ended = s.ended ++ new ∧
      (∀ e ∈ new, e.Sound hooks) ∧
      ∀ id, reopenings hooks id s moves =
        new.countP fun e => e.found.group.id == id && decide e.Reopened := by
  induction moves generalizing s with
  | nil => exact ⟨[], by simp, by simp, fun _ => rfl⟩
  | cons m rest ih =>
    obtain ⟨first, firstEnded, firstSound, firstCount⟩ := ended_step hooks s m
    obtain ⟨later, laterEnded, laterSound, laterCount⟩ := ih (s.step hooks m)
    refine ⟨first ++ later, ?_, ?_, fun id => ?_⟩
    · rw [run_cons, laterEnded, firstEnded, List.append_assoc]
    · intro e member
      rcases List.mem_append.1 member with member | member
      · exact firstSound e member
      · exact laterSound e member
    · rw [reopenings, firstCount, laterCount, List.countP_append]

/-- Over sound processings of one group, flags and misses are as many as reopenings and spurious
    flags. -/
theorem count_flags (id : Int) (endings : List Ending) (sound : ∀ e ∈ endings, e.Sound hooks) :
    endings.countP (fun e => e.found.group.id == id && e.outcome.isRegression) +
        endings.countP (fun e => e.found.group.id == id && decide e.Missed) =
      endings.countP (fun e => e.found.group.id == id && decide e.Reopened) +
        endings.countP (fun e => e.found.group.id == id && decide e.Spurious) := by
  induction endings with
  | nil => rfl
  | cons e rest ih =>
    have one := (sound e List.mem_cons_self).flag_add_missed
    have more := ih fun e he => sound e (List.mem_cons_of_mem _ he)
    simp only [List.countP_cons]
    by_cases same : e.found.group.id = id
    · simp only [same, beq_self_eq_true, Bool.true_and, decide_eq_true_eq]
      omega
    · have apart : (e.found.group.id == id) = false := by simpa using same
      simp only [apart, Bool.false_and]
      omega

/-- In whatever order calls are made, a processing that ends well flags a regression, to all its
    hooks alike, if the group was resolved when it was found and was not muted since.  The flag
    tells whether its own second call reopened the group unless somebody reopened or resolved the
    group between its two calls; flags and reopenings of a group differ by these cases. -/
theorem regression_flags (hooks : List Hook) (moves : List Move) :
    (∀ e ∈ (start.run hooks moves).ended,
      e.shown.calls.map (fun c => (c.hook, c.seen.isRegression)) =
        hooks.map (fun h => (h.name, e.outcome.isRegression)) ∧
      (e.outcome.isRegression = true ↔
        e.found.group.status = .resolved ∧ e.statusBefore ≠ some .muted) ∧
      (e.Reopened ↔ e.statusBefore = some .resolved) ∧
      ((e.outcome.isRegression = true ↔ e.Reopened) ↔ ¬ e.Spurious ∧ ¬ e.Missed)) ∧
    ∀ id,
      (start.run hooks moves).countEnded id (fun e => e.outcome.isRegression) +
          (start.run hooks moves).countEnded id (fun e => decide e.Missed) =
        reopenings hooks id start moves +
          (start.run hooks moves).countEnded id (fun e => decide e.Spurious) := by
  obtain ⟨new, ended, sound, count⟩ := ended_run hooks moves start
  have all : (start.run hooks moves).ended = new := ended
  refine ⟨fun e member => ?_, fun id => ?_⟩
  · rw [all] at member
    have h := sound e member
    exact ⟨h.shown, h.flag_iff, h.reopened_iff, h.flag_right_iff⟩
  · rw [countEnded, countEnded, countEnded, all, count id]
    exact count_flags id new sound

/-- Two processings find a group resolved before either of them records its event. -/
def race : List Move :=
  [.resolve 0 .plain .epoch, .record 0, .setStatus 1 .resolved .epoch,
    .resolve 1 .plain .epoch, .resolve 2 .plain .epoch, .record 1, .record 2]

/-- Both flag a regression, although only the first of them reopened the group. -/
theorem regression_flags_race :
    (start.run [] race).ended.map (fun e => (e.outcome.isRegression, decide e.Reopened)) =
      [(false, false), (true, true), (true, false)] ∧
    (start.run [] race).countEnded 1 (fun e => e.outcome.isRegression) = 2 ∧
    reopenings [] 1 start race = 1 ∧
    (start.run [] race).countEnded 1 (fun e => e.outcome.isRegression) +
        (start.run [] race).countEnded 1 (fun e => decide e.Missed) =
      reopenings [] 1 start race +
        (start.run [] race).countEnded 1 (fun e => decide e.Spurious) :=
  ⟨by rfl, by rfl, by rfl, (regression_flags [] race).2 1⟩

end Shared

end ErrorIntake.Worker
