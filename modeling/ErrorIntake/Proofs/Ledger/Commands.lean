import ErrorIntake.Ledger.Memory

/-!
# Runs of a store

The calls that can change a store are data here, so that a run is a list.  `perform` makes one call
and `answers` and `after` make them all.  Each change of the store has one lemma that says what its
look-ups find then; `recordEvent_cases` says all that recording an event can do.
-/

namespace ErrorIntake

/-- A report to try a store with. -/
def Report.plain : Report where
  eventId := "e1"
  message := "boom"
  level := .error
  logger := "root"
  serverName := ""
  culprit := ""
  platform := "other"
  release := ""
  version := "2.0"
  project := some ⟨1⟩
  datetime := .epoch
  checksum := "abc"

namespace Ledger

open Calendar (Instant)

/-- A call that can change a store. -/
inductive Command
  | create (g : NewGroup)
  | record (e : NewEvent) (seenAt : Instant)
  | setStatus (id : Int) (status : GroupStatus) (now : Instant)
  deriving Repr

/-- What a store answers to a command. -/
inductive Answer
  | grouped (g : Group) (created : Bool)
  | recorded (e : Event) (g : Group)
  | changed (g : Group)
  deriving Repr

namespace Memory

/-- Makes the call of a command. -/
def perform (m : Memory) : Command → Called Memory Answer
  | .create g =>
    let (answer, m) := EventStore.getOrCreateGroup g m
    (answer.map fun (group, created) => .grouped group created, m)
  | .record e seenAt =>
    let (answer, m) := EventStore.recordEvent e seenAt m
    (answer.map fun (event, group) => .recorded event group, m)
  | .setStatus id status now =>
    let (answer, m) := EventStore.setGroupStatus id status now m
    (answer.map .changed, m)

/-- The answers to some commands in turn. -/
def answers (m : Memory) : List Command → List (Except StoreError Answer)
  | [] => []
  | c :: rest => (m.perform c).1 :: (m.perform c).2.answers rest

/-- The store after some commands. -/
def after (m : Memory) (commands : List Command) : Memory :=
  commands.foldl (fun m c => (m.perform c).2) m

@[simp] theorem after_nil (m : Memory) : m.after [] = m := rfl

@[simp] theorem after_cons (m : Memory) (c : Command) (rest : List Command) :
    m.after (c :: rest) = (m.perform c).2.after rest := rfl

theorem after_append (m : Memory) (first rest : List Command) :
    m.after (first ++ rest) = (m.after first).after rest := List.foldl_append

theorem answers_append (m : Memory) (first rest : List Command) :
    m.answers (first ++ rest) = m.answers first ++ (m.after first).answers rest := by
  induction first generalizing m with
  | nil => rfl
  | cons c first ih => simp only [List.cons_append, answers, ih, after_cons]

/-- What holds of the empty store and is kept by every command holds after every run. -/
theorem after_induction {motive : Memory → Prop} (initial : motive empty)
    (step : ∀ m c, motive m → motive (m.perform c).2) (commands : List Command) :
    motive (empty.after commands) := by
  suffices h : ∀ m, motive m → motive (m.after commands) from h empty initial
  induction commands with
  | nil => exact fun _ hm => hm
  | cons c rest ih => exact fun m hm => ih _ (step m c hm)

@[simp] theorem perform_create (m : Memory) (g : NewGroup) :
    m.perform (.create g) =
      (.ok (.grouped (m.getOrCreateGroup g).1.1 (m.getOrCreateGroup g).1.2),
        (m.getOrCreateGroup g).2) := rfl

@[simp] theorem perform_record (m : Memory) (e : NewEvent) (seenAt : Instant) :
    m.perform (.record e seenAt) =
      ((m.recordEvent e seenAt).1.map fun answer => .recorded answer.1 answer.2,
        (m.recordEvent e seenAt).2) := rfl

@[simp] theorem perform_setStatus (m : Memory) (id : Int) (status : GroupStatus) (now : Instant) :
    m.perform (.setStatus id status now) =
      ((m.setGroupStatus id status now).1.map .changed, (m.setGroupStatus id status now).2) := rfl

end Memory

/-- A group to try a store with. -/
def NewGroup.plain (project : Int) (checksum : String) : NewGroup :=
  ⟨⟨project⟩, "root", .error, "boom", "", checksum, "other", .null, .epoch⟩

/-- An event to try a store with. -/
def NewEvent.plain (group : Int) (timeSpent : Option Int) : NewEvent :=
  ⟨"", ⟨1⟩, group, "boom", .error, "root", "", "", "other", "abc", timeSpent, .epoch, .null⟩

namespace Memory

/-! ## Look-ups -/

theorem id_of_groupById? {m : Memory} {id : Int} {g : Group} (h : m.groupById? id = some g) :
    g.id = id := by
  simpa using List.find?_some h

theorem mem_of_groupById? {m : Memory} {id : Int} {g : Group} (h : m.groupById? id = some g) :
    g ∈ m.groups := List.mem_of_find?_eq_some h

theorem groupById?_eq_none_iff {m : Memory} {id : Int} :
    m.groupById? id = none ↔ ∀ g ∈ m.groups, g.id ≠ id := by
  simp [groupById?, List.find?_eq_none]

theorem map_id_replaceGroup (m : Memory) (g : Group) :
    (m.replaceGroup g).groups.map Group.id = m.groups.map Group.id := by
  simp only [replaceGroup, List.map_map]
  apply List.map_congr_left
  intro old _
  simp only [Function.comp]
  split
  · next same => exact same.symm
  · rfl

/-- Putting a group in place of another keeps which ids there are. -/
theorem exists_mem_replaceGroup_iff {m : Memory} {g : Group} {id : Int} :
    (∃ new ∈ (m.replaceGroup g).groups, new.id = id) ↔ ∃ old ∈ m.groups, old.id = id := by
  rw [← List.mem_map, map_id_replaceGroup, List.mem_map]

/-- A group that is put in place of another is found under its id, and all others as before. -/
theorem groupById?_replaceGroup (m : Memory) (g : Group) (id : Int) :
    (m.replaceGroup g).groupById? id =
      if id = g.id then (m.groupById? id).map fun _ => g else m.groupById? id := by
  have keeps : ((fun old : Group => old.id == id) ∘ fun old => if old.id = g.id then g else old) =
      fun old => old.id == id := by
    funext old
    simp only [Function.comp]
    split
    · next same => rw [same]
    · rfl
  simp only [groupById?, replaceGroup, List.find?_map, keeps]
  cases found : m.groups.find? fun old => old.id == id with
  | none => simp
  | some old =>
    have hid : old.id = id := id_of_groupById? (m := m) found
    by_cases same : id = g.id
    · simp [hid, same]
    · simp [hid, same]

/-- A group that is added is found under the next id, unless another one is. -/
theorem groupById?_addGroup (m : Memory) (g : NewGroup) (id : Int) :
    (m.addGroup g).2.groupById? id =
      (m.groupById? id).or (if m.lastGroup + 1 = id then some (.create id g) else none) := by
  show (m.groups ++ [_]).find? _ = _
  rw [List.find?_append]
  congr 1
  by_cases same : m.lastGroup + 1 = id
  · simp [same, Group.create]
  · simp [same, Group.create]

/-! ## What the calls do -/

theorem getOrCreateGroup_cases (m : Memory) (g : NewGroup) :
    (∃ found, m.group? g.key = some found ∧ m.getOrCreateGroup g = ((found, false), m)) ∨
    (m.group? g.key = none ∧
      m.getOrCreateGroup g = (((m.addGroup g).1, true), (m.addGroup g).2)) := by
  unfold getOrCreateGroup
  cases found : m.group? g.key with
  | some existing => exact .inl ⟨existing, rfl, rfl⟩
  | none => exact .inr ⟨rfl, rfl⟩

/-- Recording finds no group, or finds that the total of milliseconds does not fit, or adds the row
    and counts it in its group. -/
theorem recordEvent_cases (m : Memory) (e : NewEvent) (seenAt : Instant) :
    (m.groupById? e.group = none ∧ m.recordEvent e seenAt = (.error (.groupNotFound e.group), m)) ∨
    (∃ g, m.groupById? e.group = some g ∧ g.addTimeSpent? e.timeSpent = none ∧
      m.recordEvent e seenAt =
        (.error (.internal s!"time_spent total overflows for group {g.id}"), m)) ∨
    (∃ g total count, m.groupById? e.group = some g ∧
      g.addTimeSpent? e.timeSpent = some (total, count) ∧
      m.recordEvent e seenAt =
        (.ok ((m.addEvent e).1, g.counted seenAt total count),
          (m.addEvent e).2.replaceGroup (g.counted seenAt total count))) := by
  unfold recordEvent
  cases found : m.groupById? e.group with
  | none => exact .inl ⟨rfl, rfl⟩
  | some g =>
    cases sum : g.addTimeSpent? e.timeSpent with
    | none => exact .inr (.inl ⟨g, rfl, sum, by simp only [sum]⟩)
    | some totals => exact .inr (.inr ⟨g, totals.1, totals.2, rfl, sum, by simp only [sum]⟩)

theorem setGroupStatus_cases (m : Memory) (id : Int) (status : GroupStatus) (now : Instant) :
    (m.groupById? id = none ∧ m.setGroupStatus id status now = (.error (.groupNotFound id), m)) ∨
    (∃ g, m.groupById? id = some g ∧
      m.setGroupStatus id status now =
        (.ok (g.withStatus status now), m.replaceGroup (g.withStatus status now))) := by
  unfold setGroupStatus
  cases found : m.groupById? id with
  | none => exact .inl ⟨rfl, rfl⟩
  | some g => exact .inr ⟨g, rfl, rfl⟩

/-- A call that fails leaves the store alone. -/
theorem perform_eq_of_error {m : Memory} {c : Command} {err : StoreError}
    (failed : (m.perform c).1 = .error err) : (m.perform c).2 = m := by
  cases c with
  | create g => simp at failed
  | record e seenAt =>
    rcases m.recordEvent_cases e seenAt with ⟨_, h⟩ | ⟨_, _, _, h⟩ | ⟨_, _, _, _, _, h⟩
    · rw [perform_record, h]
    · rw [perform_record, h]
    · rw [perform_record, h] at failed
      cases failed
  | setStatus id status now =>
    rcases m.setGroupStatus_cases id status now with ⟨_, h⟩ | ⟨_, _, h⟩
    · rw [perform_setStatus, h]
    · rw [perform_setStatus, h] at failed
      cases failed

end Memory

namespace Group

@[simp] theorem counted_id (g : Group) (seenAt : Instant) (total count : Int) :
    (g.counted seenAt total count).id = g.id := by
  simp only [counted, withStatus]
  split <;> rfl

@[simp] theorem counted_timesSeen (g : Group) (seenAt : Instant) (total count : Int) :
    (g.counted seenAt total count).timesSeen = g.timesSeen + 1 := by
  simp only [counted, withStatus]
  split <;> rfl

@[simp] theorem counted_timeSpentTotal (g : Group) (seenAt : Instant) (total count : Int) :
    (g.counted seenAt total count).timeSpentTotal = total := by
  simp only [counted, withStatus]
  split <;> rfl

@[simp] theorem counted_timeSpentCount (g : Group) (seenAt : Instant) (total count : Int) :
    (g.counted seenAt total count).timeSpentCount = count := by
  simp only [counted, withStatus]
  split <;> rfl

@[simp] theorem withStatus_id (g : Group) (status : GroupStatus) (now : Instant) :
    (g.withStatus status now).id = g.id := by
  cases status <;> rfl

/-- Counting an event in a group changes its status only if the group was resolved. -/
theorem counted_status (g : Group) (seenAt : Instant) (total count : Int) :
    (g.counted seenAt total count).status =
      if g.status = .resolved then .unresolved else g.status := by
  simp only [counted, withStatus]
  split <;> rfl

end Group

namespace Memory

/-- The group of a recorded event is found counted, and all others as before. -/
theorem groupById?_recorded {m : Memory} {e : NewEvent} {g : Group}
    (found : m.groupById? e.group = some g) (seenAt : Instant) (total count : Int) (id : Int) :
    ((m.addEvent e).2.replaceGroup (g.counted seenAt total count)).groupById? id =
      if id = e.group then some (g.counted seenAt total count) else m.groupById? id := by
  have hid : g.id = e.group := id_of_groupById? found
  rw [groupById?_replaceGroup, Group.counted_id, hid]
  by_cases same : id = e.group
  · have here : (m.addEvent e).2.groupById? id = some g := by
      rw [same]
      exact found
    rw [if_pos same, if_pos same, here]
    rfl
  · rw [if_neg same, if_neg same]
    rfl

/-- The group whose status is set is found with that status, and all others as before. -/
theorem groupById?_withStatus {m : Memory} {id : Int} {g : Group}
    (found : m.groupById? id = some g) (status : GroupStatus) (now : Instant) (other : Int) :
    (m.replaceGroup (g.withStatus status now)).groupById? other =
      if other = id then some (g.withStatus status now) else m.groupById? other := by
  rw [groupById?_replaceGroup, Group.withStatus_id, id_of_groupById? found]
  by_cases same : other = id
  · rw [if_pos same, if_pos same, same, found]
    rfl
  · rw [if_neg same, if_neg same]

end Memory

end Ledger

end ErrorIntake
