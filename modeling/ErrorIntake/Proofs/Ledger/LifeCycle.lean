import ErrorIntake.Proofs.Ledger.Counters

/-!
# The life of a group

A history notes what was done to a group, and when: it was made, an event was counted in it, its
status was set.  `note_cases` has what a command can do to one group.  `Tells` says that status and
times of a group are those that its history tells, and every command keeps it.  The times of a muted
group are those from before it was muted, which `KeepsTimes` finds in the run.
-/

namespace ErrorIntake

namespace Calendar.Instant

/-- Instants are ordered by their seconds, and within a second by their nanoseconds. -/
instance : Preorder Instant where
  le t t' := t.second < t'.second ∨ t.second = t'.second ∧ t.nano ≤ t'.nano
  le_refl _ := .inr ⟨rfl, Nat.le_refl _⟩
  le_trans _ _ _ := by omega

instance : DecidableLE Instant := fun t t' =>
  inferInstanceAs (Decidable (t.second < t'.second ∨ t.second = t'.second ∧ t.nano ≤ t'.nano))

end Calendar.Instant

namespace Ledger

open Calendar (Instant)

/-- What the clock says when a command is performed. -/
def Command.time : Command → Instant
  | .create g => g.seenAt
  | .record _ seenAt => seenAt
  | .setStatus _ _ now => now

/-- What is done to a group. -/
inductive Change
  | made
  /-- An event was counted in it; `reopened` if it was resolved before and unresolved after that. -/
  | counted (reopened : Bool)
  | set (status : GroupStatus)
  deriving DecidableEq, Repr

namespace Change

/-- The group was made or set unresolved, by somebody or by an event. -/
def activates : Change → Bool
  | made => true
  | counted reopened => reopened
  | set status => status == .unresolved

/-- The group was set resolved. -/
def resolves : Change → Bool
  | set status => status == .resolved
  | _ => false

/-- An event was counted. -/
def counts : Change → Bool
  | counted _ => true
  | _ => false

end Change

/-- A change of a group and when it happened. -/
structure Note where
  time : Instant
  change : Change
  deriving DecidableEq, Repr

/-- When a change of a kind happened for the last time. -/
def latest? (kind : Change → Bool) (history : List Note) : Option Instant :=
  (history.filter fun n => kind n.change).getLast?.map Note.time

@[simp] theorem latest?_nil (kind : Change → Bool) : latest? kind [] = none := rfl

@[simp] theorem latest?_concat (kind : Change → Bool) (history : List Note) (n : Note) :
    latest? kind (history ++ [n]) = if kind n.change then some n.time else latest? kind history := by
  rw [latest?, List.filter_append]
  by_cases isKind : kind n.change
  · simp [isKind]
  · simp [isKind, latest?]

namespace Memory

/-- What a command does to a group, if it is performed in this store. -/
def note? (id : Int) (m : Memory) (c : Command) : Option Note :=
  match c, (m.perform c).1 with
  | .create _, .ok (.grouped g true) => if g.id = id then some ⟨c.time, .made⟩ else none
  | .record .., .ok (.recorded e after) =>
    let reopened := (m.groupById? id).any fun before =>
      before.status == .resolved && after.status == .unresolved
    if e.group = id then some ⟨c.time, .counted reopened⟩ else none
  | .setStatus _ status _, .ok (.changed g) => if g.id = id then some ⟨c.time, .set status⟩ else none
  | _, _ => none

/-- What some commands in turn do to a group, the oldest first. -/
def history (id : Int) (m : Memory) : List Command → List Note
  | [] => []
  | c :: rest => (note? id m c).toList ++ history id (m.perform c).2 rest

theorem history_concat (id : Int) (m : Memory) (commands : List Command) (c : Command) :
    history id m (commands ++ [c]) =
      history id m commands ++ (note? id (m.after commands) c).toList := by
  induction commands generalizing m with
  | nil => simp [history]
  | cons first rest ih => simp [history, ih]

variable {m : Memory} {c : Command} {id : Int} {g g' : Group}

/-- Asking for a group does nothing to the group of an id, or makes it. -/
theorem note_create (numbered : m.Numbered) (new : NewGroup) (id : Int) :
    (note? id m (.create new) = none ∧
      (m.perform (.create new)).2.groupById? id = m.groupById? id) ∨
    m.groupById? id = none ∧ note? id m (.create new) = some ⟨new.seenAt, .made⟩ ∧
      (m.perform (.create new)).2.groupById? id = some (.create id new) := by
  rcases m.getOrCreateGroup_cases new with ⟨_, _, made⟩ | ⟨_, made⟩
  · refine .inl ⟨?_, ?_⟩
    · simp only [note?, perform_create, made]
    · simp only [perform_create, made]
  · by_cases same : m.lastGroup + 1 = id
    · have fresh : m.groupById? id = none := by
        refine groupById?_eq_none_iff.2 fun old inside named => ?_
        have bound := numbered.bound old inside
        omega
      refine .inr ⟨fresh, ?_, ?_⟩
      · simp [note?, perform_create, made, addGroup, Group.create, same, Command.time]
      · rw [perform_create, made, groupById?_addGroup, fresh, if_pos same, Option.none_or]
    · refine .inl ⟨?_, ?_⟩
      · simp [note?, perform_create, made, addGroup, Group.create, same]
      · rw [perform_create, made, groupById?_addGroup, if_neg same, Option.or_none]

/-- Recording an event does nothing to the group of an id, or counts the event in it. -/
theorem note_record (m : Memory) (e : NewEvent) (seenAt : Instant) (id : Int) :
    (note? id m (.record e seenAt) = none ∧
      (m.perform (.record e seenAt)).2.groupById? id = m.groupById? id) ∨
    ∃ g total count, m.groupById? id = some g ∧
      note? id m (.record e seenAt) = some ⟨seenAt, .counted (g.status == .resolved)⟩ ∧
      (m.perform (.record e seenAt)).2.groupById? id = some (g.counted seenAt total count) := by
  rcases m.recordEvent_cases e seenAt with
    ⟨_, made⟩ | ⟨_, _, _, made⟩ | ⟨g, total, count, found, _, made⟩
  · refine .inl ⟨?_, ?_⟩
    · simp only [note?, perform_record, made, Except.map]
    · simp only [perform_record, made]
  · refine .inl ⟨?_, ?_⟩
    · simp only [note?, perform_record, made, Except.map]
    · simp only [perform_record, made]
  · have after := groupById?_recorded found seenAt total count id
    by_cases same : e.group = id
    · subst same
      refine .inr ⟨g, total, count, found, ?_, ?_⟩
      · have reopened : (g.status == .resolved &&
            (g.counted seenAt total count).status == .unresolved) = (g.status == .resolved) := by
          rw [Group.counted_status]
          cases g.status <;> rfl
        simp only [note?, perform_record, made, Except.map, addEvent, if_true, found,
          Option.any_some, reopened, Command.time]
      · rw [perform_record, made, after, if_pos rfl]
    · refine .inl ⟨?_, ?_⟩
      · simp only [note?, perform_record, made, Except.map, addEvent, if_neg same]
      · rw [perform_record, made, after, if_neg (Ne.symm same)]

/-- Setting a status does nothing to the group of an id, or sets its status. -/
theorem note_setStatus (m : Memory) (other : Int) (status : GroupStatus) (now : Instant)
    (id : Int) :
    (note? id m (.setStatus other status now) = none ∧
      (m.perform (.setStatus other status now)).2.groupById? id = m.groupById? id) ∨
    ∃ g, m.groupById? id = some g ∧ other = id ∧
      note? id m (.setStatus other status now) = some ⟨now, .set status⟩ ∧
      (m.perform (.setStatus other status now)).2.groupById? id = some (g.withStatus status now) := by
  rcases m.setGroupStatus_cases other status now with ⟨_, made⟩ | ⟨g, found, made⟩
  · refine .inl ⟨?_, ?_⟩
    · simp only [note?, perform_setStatus, made, Except.map]
    · simp only [perform_setStatus, made]
  · have named : g.id = other := id_of_groupById? found
    have after := groupById?_withStatus found status now id
    by_cases same : other = id
    · subst same
      refine .inr ⟨g, found, rfl, ?_, ?_⟩
      · simp only [note?, perform_setStatus, made, Except.map, Group.withStatus_id, named, if_true,
          Command.time]
      · rw [perform_setStatus, made, after, if_pos rfl]
    · refine .inl ⟨?_, ?_⟩
      · simp only [note?, perform_setStatus, made, Except.map, Group.withStatus_id, named,
          if_neg same]
      · rw [perform_setStatus, made, after, if_neg (Ne.symm same)]

/-- A command does nothing to a group, or makes it, or counts an event in it, or sets its status. -/
theorem note_cases (numbered : m.Numbered) (c : Command) (id : Int) :
    (note? id m c = none ∧ (m.perform c).2.groupById? id = m.groupById? id) ∨
    (∃ new, m.groupById? id = none ∧ note? id m c = some ⟨c.time, .made⟩ ∧ c.time = new.seenAt ∧
      (m.perform c).2.groupById? id = some (.create id new)) ∨
    (∃ g total count, m.groupById? id = some g ∧
      note? id m c = some ⟨c.time, .counted (g.status == .resolved)⟩ ∧
      (m.perform c).2.groupById? id = some (g.counted c.time total count)) ∨
    ∃ g status, m.groupById? id = some g ∧ c = .setStatus id status c.time ∧
      note? id m c = some ⟨c.time, .set status⟩ ∧
      (m.perform c).2.groupById? id = some (g.withStatus status c.time) := by
  cases c with
  | create new =>
    rcases note_create numbered new id with nothing | ⟨fresh, note, after⟩
    · exact .inl nothing
    · exact .inr (.inl ⟨new, fresh, note, rfl, after⟩)
  | record e seenAt =>
    rcases note_record m e seenAt id with nothing | counted
    · exact .inl nothing
    · exact .inr (.inr (.inl counted))
  | setStatus other status now =>
    rcases note_setStatus m other status now id with nothing | ⟨g, found, rfl, note, after⟩
    · exact .inl nothing
    · exact .inr (.inr (.inr ⟨g, status, found, rfl, note, after⟩))

end Memory

/-! ## Status and times -/

namespace Group

/-- Status and times of the group are those that the history tells. -/
structure Tells (g : Group) (history : List Note) : Prop where
  unresolved : g.status = .unresolved →
    g.resolvedAt = none ∧ latest? Change.activates history = some g.activeAt
  resolved : g.status = .resolved →
    ∃ t, g.resolvedAt = some t ∧ latest? Change.resolves history = some t
  lastSeen : g.lastSeen = (latest? Change.counts history).getD g.firstSeen

theorem tells_create (id : Int) (new : NewGroup) : (create id new).Tells [⟨new.seenAt, .made⟩] where
  unresolved _ := ⟨rfl, rfl⟩
  resolved status := by cases status
  lastSeen := rfl

variable {g : Group} {history : List Note}

theorem Tells.counted (h : g.Tells history) (seenAt : Instant) (total count : Int) :
    (g.counted seenAt total count).Tells
      (history ++ [⟨seenAt, .counted (g.status == .resolved)⟩]) := by
  by_cases resolved : g.status = .resolved
  · have made : g.counted seenAt total count =
        { g with timesSeen := g.timesSeen + 1, lastSeen := seenAt, timeSpentTotal := total,
                 timeSpentCount := count, status := .unresolved, resolvedAt := none,
                 activeAt := seenAt } := by
      rw [Group.counted, if_pos resolved]
      rfl
    rw [made]
    refine ⟨fun _ => ⟨rfl, ?_⟩, (by cases ·), ?_⟩
    · simp [Change.activates, resolved]
    · simp [Change.counts]
  · have made : g.counted seenAt total count =
        { g with timesSeen := g.timesSeen + 1, lastSeen := seenAt, timeSpentTotal := total,
                 timeSpentCount := count } := by
      rw [Group.counted, if_neg resolved]
    rw [made]
    refine ⟨fun status => ?_, fun status => absurd status resolved, ?_⟩
    · simpa [Change.activates, resolved] using h.unresolved status
    · simp [Change.counts]

theorem Tells.withStatus (h : g.Tells history) (status : GroupStatus) (now : Instant) :
    (g.withStatus status now).Tells (history ++ [⟨now, .set status⟩]) := by
  have seen : g.lastSeen = (latest? Change.counts (history ++ [⟨now, .set status⟩])).getD
      g.firstSeen := by
    rw [latest?_concat]
    exact h.lastSeen
  cases status with
  | unresolved =>
    exact ⟨fun _ => ⟨rfl, by simp [Change.activates, Group.withStatus]⟩, (by cases ·), seen⟩
  | resolved => exact ⟨(by cases ·), fun _ => ⟨now, rfl, by simp [Change.resolves]⟩, seen⟩
  | muted => exact ⟨(by cases ·), (by cases ·), seen⟩

end Group

namespace Memory

variable {commands : List Command} {c : Command} {id : Int} {g g' : Group}

/-- After every run, a group is as its history tells, and one that does not exist has none. -/
theorem tells_after (commands : List Command) (id : Int) :
    ((empty.after commands).groupById? id = none ∧ history id empty commands = []) ∨
    ∃ g, (empty.after commands).groupById? id = some g ∧ g.Tells (history id empty commands) := by
  induction commands using List.reverseRecOn with
  | nil => exact .inl ⟨rfl, rfl⟩
  | append_singleton commands c ih =>
    rw [after_append, after_cons, after_nil, history_concat]
    rcases note_cases (consistent_after commands).toNumbered c id with
      ⟨note, after⟩ | ⟨new, absent, note, time, after⟩ | ⟨g, total, count, found, note, after⟩ |
        ⟨g, status, found, -, note, after⟩
    · rw [note, after, Option.toList_none, List.append_nil]
      exact ih
    · rcases ih with ⟨_, nothing⟩ | ⟨g, found, _⟩
      · rw [note, after, nothing, time]
        exact .inr ⟨_, rfl, Group.tells_create id new⟩
      · rw [found] at absent
        cases absent
    · rcases ih with ⟨absent, _⟩ | ⟨g', found', tells⟩
      · rw [found] at absent
        cases absent
      · rw [found] at found'
        cases found'
        rw [note, after]
        exact .inr ⟨_, rfl, tells.counted c.time total count⟩
    · rcases ih with ⟨absent, _⟩ | ⟨g', found', tells⟩
      · rw [found] at absent
        cases absent
      · rw [found] at found'
        cases found'
        rw [note, after]
        exact .inr ⟨_, rfl, tells.withStatus status c.time⟩

/-! ## Muted groups -/

/-- The group is muted after a run. -/
def IsMuted (commands : List Command) (id : Int) : Prop :=
  ((empty.after commands).groupById? id).map Group.status = some .muted

/-- A command of the run muted the group, which was not muted before and is muted ever since, and
    the times of the group are those from before that command. -/
def KeepsTimes (commands : List Command) (g : Group) : Prop :=
  ∃ before now later was, commands = before ++ .setStatus g.id .muted now :: later ∧
    (empty.after before).groupById? g.id = some was ∧ was.status ≠ .muted ∧
    (∀ front, front <+: later → IsMuted (before ++ .setStatus g.id .muted now :: front) g.id) ∧
    g.activeAt = was.activeAt ∧ g.resolvedAt = was.resolvedAt

/-- A group that stays muted and keeps its times keeps those from before it was muted. -/
theorem KeepsTimes.concat (h : KeepsTimes commands g)
    (found : (empty.after (commands ++ [c])).groupById? g'.id = some g') (muted : g'.status = .muted)
    (named : g'.id = g.id) (active : g'.activeAt = g.activeAt)
    (resolved : g'.resolvedAt = g.resolvedAt) : KeepsTimes (commands ++ [c]) g' := by
  obtain ⟨before, now, later, was, rfl, there, unmuted, since, wasActive, wasResolved⟩ := h
  rw [KeepsTimes, active, resolved, named]
  refine ⟨before, now, later ++ [c], was, by simp, there, unmuted, ?_, wasActive, wasResolved⟩
  intro front within
  rcases List.prefix_concat_iff.1 within with rfl | shorter
  · rw [named] at found
    rw [← List.cons_append, ← List.append_assoc, IsMuted, found, Option.map_some, muted]
  · exact since front shorter

theorem keepsTimes_after (commands : List Command)
    (found : (empty.after commands).groupById? id = some g) (muted : g.status = .muted) :
    KeepsTimes commands g := by
  induction commands using List.reverseRecOn generalizing g with
  | nil => cases found
  | append_singleton commands c ih =>
    have here := found
    rw [← id_of_groupById? found] at here
    rw [after_append, after_cons, after_nil] at found
    rcases note_cases (consistent_after commands).toNumbered c id with
      ⟨_, after⟩ | ⟨new, _, _, _, after⟩ | ⟨was, total, count, there, _, after⟩ |
        ⟨was, status, there, isSet, _, after⟩
    · rw [found] at after
      exact (ih after.symm muted).concat here muted rfl rfl rfl
    · rw [found] at after
      cases after
      cases muted
    · rw [found] at after
      cases after
      rw [Group.counted_status] at muted
      split at muted
      · cases muted
      · next unresolved =>
        have still : (was.counted c.time total count).status = .muted := by
          rw [Group.counted_status, if_neg unresolved, muted]
        refine (ih there muted).concat here still (was.counted_id ..) ?_ ?_
        · rw [Group.counted, if_neg unresolved]
        · rw [Group.counted, if_neg unresolved]
    · rw [found] at after
      cases after
      cases status with
      | unresolved => cases muted
      | resolved => cases muted
      | muted =>
        by_cases before : was.status = .muted
        · exact (ih there before).concat here muted rfl rfl rfl
        · -- This command muted it.
          have named : was.id = id := id_of_groupById? there
          subst named
          refine ⟨commands, c.time, [], was, congrArg (commands ++ [·]) isSet, there, before, ?_,
            rfl, rfl⟩
          intro front within
          rw [List.prefix_nil.1 within, IsMuted]
          show ((empty.after (commands ++ [.setStatus was.id .muted c.time])).groupById? was.id).map
            Group.status = _
          rw [← isSet]
          exact congrArg (Option.map Group.status) here

/-! ## Times in order -/

/-- The group was founded at one of these times, and nothing happened to it before that. -/
structure Follows (g : Group) (times : List Instant) : Prop where
  founded : g.firstSeen ∈ times
  lastSeen : g.firstSeen ≤ g.lastSeen
  activeAt : g.firstSeen ≤ g.activeAt

theorem Follows.change {g g' : Group} {times : List Instant} {now : Instant} (h : Follows g times)
    (later : ∀ t ∈ times, t ≤ now) (first : g'.firstSeen = g.firstSeen)
    (seen : g'.lastSeen = g.lastSeen ∨ g'.lastSeen = now)
    (active : g'.activeAt = g.activeAt ∨ g'.activeAt = now) : Follows g' (times ++ [now]) where
  founded := by
    rw [first]
    exact List.mem_append_left _ h.founded
  lastSeen := by
    rw [first]
    rcases seen with same | same
    · rw [same]
      exact h.lastSeen
    · rw [same]
      exact later _ h.founded
  activeAt := by
    rw [first]
    rcases active with same | same
    · rw [same]
      exact h.activeAt
    · rw [same]
      exact later _ h.founded

/-- If the clock never goes back, nothing happens to a group before it is founded. -/
theorem follows_after (commands : List Command)
    (forward : (commands.map Command.time).Pairwise (· ≤ ·))
    (found : (empty.after commands).groupById? id = some g) :
    Follows g (commands.map Command.time) := by
  induction commands using List.reverseRecOn generalizing g with
  | nil => cases found
  | append_singleton commands c ih =>
    rw [List.map_append, List.pairwise_append] at forward
    obtain ⟨forward, -, later⟩ := forward
    have later : ∀ t ∈ commands.map Command.time, t ≤ c.time :=
      fun t member => later t member _ (List.mem_singleton_self _)
    rw [after_append, after_cons, after_nil] at found
    rw [List.map_append]
    rcases note_cases (consistent_after commands).toNumbered c id with
      ⟨_, after⟩ | ⟨new, _, _, time, after⟩ | ⟨was, total, count, there, _, after⟩ |
        ⟨was, status, there, _, _, after⟩
    · rw [found] at after
      exact (ih forward after.symm).change later rfl (.inl rfl) (.inl rfl)
    · rw [found] at after
      cases after
      exact ⟨List.mem_append_right _ (List.mem_singleton.2 time.symm), le_refl _, le_refl _⟩
    · rw [found] at after
      cases after
      refine (ih forward there).change later ?_ ?_ ?_
      · rw [Group.counted]
        split <;> rfl
      · rw [Group.counted]
        split
        · exact .inr rfl
        · exact .inr rfl
      · rw [Group.counted]
        split
        · exact .inr rfl
        · exact .inl rfl
    · rw [found] at after
      cases after
      cases status with
      | unresolved => exact (ih forward there).change later rfl (.inl rfl) (.inr rfl)
      | resolved => exact (ih forward there).change later rfl (.inl rfl) (.inl rfl)
      | muted => exact (ih forward there).change later rfl (.inl rfl) (.inl rfl)

/-! ## Recording events -/

/-- Recording an event reopens the group of the event if it was resolved, and changes status and
    times of no other. -/
theorem status_recorded (m : Memory) (e : NewEvent) (seenAt : Instant)
    (found : m.groupById? id = some g) :
    ∃ g', (m.recordEvent e seenAt).2.groupById? id = some g' ∧
      (g'.status ≠ g.status ↔
        g.status = .resolved ∧ e.group = id ∧ ∃ answer, (m.recordEvent e seenAt).1 = .ok answer) ∧
      (g'.status ≠ g.status → g'.status = .unresolved) ∧
      (g.status ≠ .resolved → g'.activeAt = g.activeAt ∧ g'.resolvedAt = g.resolvedAt) := by
  rcases m.recordEvent_cases e seenAt with
    ⟨_, made⟩ | ⟨_, _, _, made⟩ | ⟨was, total, count, there, _, made⟩
  · rw [made]
    exact ⟨g, found, by simp, by simp, fun _ => ⟨rfl, rfl⟩⟩
  · rw [made]
    exact ⟨g, found, by simp, by simp, fun _ => ⟨rfl, rfl⟩⟩
  · rw [made]
    have after := groupById?_recorded there seenAt total count id
    by_cases same : e.group = id
    · subst same
      rw [found] at there
      cases there
      rw [if_pos rfl] at after
      refine ⟨_, after, ?_, ?_, ?_⟩
      · rw [Group.counted_status]
        cases g.status <;> simp
      · rw [Group.counted_status]
        cases g.status <;> simp
      · intro unresolved
        rw [Group.counted, if_neg unresolved]
        exact ⟨rfl, rfl⟩
    · rw [if_neg (Ne.symm same), found] at after
      exact ⟨g, after, by simp [same], by simp, fun _ => ⟨rfl, rfl⟩⟩

/-- After every run from the empty store, status and times of every group are those that its history
    tells.  A muted group has the times from before it was muted, and is muted ever since.  If the
    clock never goes back, a group is not seen and not active before it was seen first.  Recording an
    event changes a status only from resolved to unresolved, which it does for the resolved group of
    the event, and leaves the times of unresolved and muted groups alone. -/
theorem life_follows_history (commands : List Command) :
    let m := empty.after commands
    (∀ g ∈ m.groups,
      g.Tells (history g.id empty commands) ∧
      (g.status = .muted → KeepsTimes commands g) ∧
      ((commands.map Command.time).Pairwise (· ≤ ·) →
        g.firstSeen ≤ g.lastSeen ∧ g.firstSeen ≤ g.activeAt)) ∧
    ∀ e seenAt, ∀ g ∈ m.groups, ∃ g', (m.recordEvent e seenAt).2.groupById? g.id = some g' ∧
      (g'.status ≠ g.status ↔
        g.status = .resolved ∧ e.group = g.id ∧ ∃ answer, (m.recordEvent e seenAt).1 = .ok answer) ∧
      (g'.status ≠ g.status → g'.status = .unresolved) ∧
      (g.status ≠ .resolved → g'.activeAt = g.activeAt ∧ g'.resolvedAt = g.resolvedAt) := by
  intro m
  have numbered : m.Numbered := (consistent_after commands).toNumbered
  refine ⟨fun g inside => ?_, fun e seenAt g inside => ?_⟩
  · have found : m.groupById? g.id = some g := numbered.groupById?_of_mem inside
    refine ⟨?_, keepsTimes_after commands found, fun forward => ?_⟩
    · rcases tells_after commands g.id with ⟨absent, _⟩ | ⟨g', found', tells⟩
      · rw [found] at absent
        cases absent
      · rw [found] at found'
        cases found'
        exact tells
    · have follows := follows_after commands forward found
      exact ⟨follows.lastSeen, follows.activeAt⟩
  · exact m.status_recorded e seenAt (numbered.groupById?_of_mem inside)

/-- One group is resolved, muted and seen again; another is resolved and reopened by an event. -/
def twoLives : List Command :=
  [.create (.plain 1 "abc"), .setStatus 1 .resolved ⟨1, 0⟩, .setStatus 1 .muted ⟨2, 0⟩,
    .record (.plain 1 none) ⟨3, 0⟩, .create { NewGroup.plain 2 "abc" with seenAt := ⟨3, 5⟩ },
    .setStatus 2 .resolved ⟨4, 0⟩, .record (.plain 2 none) ⟨5, 0⟩]

theorem life_follows_history_twoLives :
    (twoLives.map Command.time).Pairwise (· ≤ ·) ∧
    (∃ g ∈ (empty.after twoLives).groups, g.status = .muted ∧ KeepsTimes twoLives g ∧
      g.resolvedAt = some ⟨1, 0⟩ ∧ g.lastSeen = ⟨3, 0⟩) ∧
    ∃ g ∈ (empty.after twoLives).groups, g.status = .unresolved ∧ g.resolvedAt = none ∧
      g.activeAt = ⟨5, 0⟩ ∧
      latest? Change.activates (history g.id empty twoLives) = some g.activeAt ∧
      g.firstSeen ≤ g.activeAt := by
  have forward : (twoLives.map Command.time).Pairwise (· ≤ ·) := by decide
  obtain ⟨told, -⟩ := life_follows_history twoLives
  have first : (empty.after twoLives).groups[0] ∈ (empty.after twoLives).groups :=
    List.getElem_mem (by decide)
  have second : (empty.after twoLives).groups[1] ∈ (empty.after twoLives).groups :=
    List.getElem_mem (by decide)
  obtain ⟨-, muted, -⟩ := told _ first
  obtain ⟨tells, -, ordered⟩ := told _ second
  exact ⟨forward, ⟨_, first, rfl, muted rfl, rfl, rfl⟩, _, second, rfl, rfl, rfl,
    (tells.unresolved rfl).2, (ordered forward).2⟩

end Memory

end Ledger

end ErrorIntake
