import ErrorIntake.Proofs.Ledger.Commands
import Mathlib

/-!
# Counters of groups

A group counts its events and adds up the milliseconds that they told, and the events stand in a
list beside it.  `Consistent` says that the counters agree with that list.  Every command keeps it,
so the counters of every store that was filled from empty can be computed again from its rows.
-/

namespace ErrorIntake.Ledger

open Calendar (Instant)

/-- The milliseconds that some events told. -/
def timesSpent (rows : List Event) : List Int := rows.filterMap fun e => e.timeSpent

/-- The counters of a group agree with these rows. -/
structure Group.Tallies (g : Group) (rows : List Event) : Prop where
  seen : g.timesSeen = rows.length
  count : g.timeSpentCount = (timesSpent rows).length
  total : g.timeSpentTotal = (timesSpent rows).sum
  fits : IsInt64 g.timeSpentTotal

namespace Group

theorem addTimeSpent?_eq_none_iff {g : Group} {spent : Option Int} :
    g.addTimeSpent? spent = none ↔ ∃ ms, spent = some ms ∧ ¬ IsInt64 (g.timeSpentTotal + ms) := by
  cases spent with
  | none => simp [addTimeSpent?]
  | some ms =>
    simp only [addTimeSpent?, Option.some.injEq, exists_eq_left']
    split
    · next fits => simp [fits]
    · next tooFar => simp [tooFar]

theorem tallies_create (id : Int) (g : NewGroup) : (create id g).Tallies [] :=
  ⟨rfl, rfl, rfl, show IsInt64 0 by decide⟩

theorem tallies_withStatus {g : Group} {rows : List Event} (h : g.Tallies rows)
    (status : GroupStatus) (now : Instant) : (g.withStatus status now).Tallies rows := by
  cases status <;> exact ⟨h.seen, h.count, h.total, h.fits⟩

theorem tallies_counted {g : Group} {rows : List Event} (h : g.Tallies rows) {e : Event}
    {total count : Int} (sum : g.addTimeSpent? e.timeSpent = some (total, count))
    (seenAt : Instant) : (g.counted seenAt total count).Tallies (rows ++ [e]) := by
  have seen : (g.counted seenAt total count).timesSeen = (rows ++ [e]).length := by
    rw [counted_timesSeen, h.seen, List.length_append]
    rfl
  cases told : e.timeSpent with
  | none =>
    have same : timesSpent (rows ++ [e]) = timesSpent rows := by simp [timesSpent, told]
    rw [told] at sum
    cases sum
    refine ⟨seen, ?_, ?_, ?_⟩
    · rw [counted_timeSpentCount, same, h.count]
    · rw [counted_timeSpentTotal, same, h.total]
    · rw [counted_timeSpentTotal]
      exact h.fits
  | some ms =>
    have more : timesSpent (rows ++ [e]) = timesSpent rows ++ [ms] := by simp [timesSpent, told]
    simp only [told, addTimeSpent?] at sum
    split at sum
    · next fits =>
      cases sum
      refine ⟨seen, ?_, ?_, ?_⟩
      · rw [counted_timeSpentCount, more, h.count, List.length_append]
        rfl
      · rw [counted_timeSpentTotal, more, h.total, List.sum_append]
        simp
      · rw [counted_timeSpentTotal]
        exact fits
    · cases sum

end Group

namespace Memory

/-- Groups have ids of their own, ids are given in turn, and every row has a group. -/
structure Numbered (m : Memory) : Prop where
  distinct : (m.groups.map Group.id).Nodup
  bound : ∀ g ∈ m.groups, g.id ≤ m.lastGroup
  lastGroup : m.lastGroup = m.groups.length
  lastEvent : m.lastEvent = m.events.length
  owned : ∀ e ∈ m.events, ∃ g ∈ m.groups, g.id = e.group

/-- The counters of every group agree with its rows. -/
structure Consistent (m : Memory) : Prop extends Numbered m where
  tallies : ∀ g ∈ m.groups, g.Tallies (m.listEvents g.id)

namespace Numbered

variable {m : Memory}

theorem empty : Memory.empty.Numbered where
  distinct := List.nodup_nil
  bound := by simp [Memory.empty]
  lastGroup := rfl
  lastEvent := rfl
  owned := by simp [Memory.empty]

theorem groupById?_of_mem (h : m.Numbered) {g : Group} (hg : g ∈ m.groups) :
    m.groupById? g.id = some g := by
  cases found : m.groupById? g.id with
  | none => exact absurd rfl (groupById?_eq_none_iff.1 found g hg)
  | some other =>
    have same : other = g :=
      List.inj_on_of_nodup_map h.distinct (mem_of_groupById? found) hg (id_of_groupById? found)
    rw [same]

/-- No row belongs to an id that no group has yet. -/
theorem listEvents_eq_nil (h : m.Numbered) {id : Int} (fresh : m.lastGroup < id) :
    m.listEvents id = [] := by
  refine List.filter_eq_nil_iff.2 fun e he same => ?_
  obtain ⟨g, hg, hid⟩ := h.owned e he
  have bound := h.bound g hg
  have same : e.group = id := by simpa using same
  omega

theorem addGroup (h : m.Numbered) (g : NewGroup) : (m.addGroup g).2.Numbered where
  distinct := by
    simp only [Memory.addGroup, List.map_append, List.map_cons, List.map_nil, Group.create]
    refine List.nodup_append.2 ⟨h.distinct, by simp, ?_⟩
    intro id hid other hother same
    obtain ⟨old, hold, rfl⟩ := List.mem_map.1 hid
    have bound := h.bound old hold
    have fresh := same.trans (List.mem_singleton.1 hother)
    omega
  bound := by
    intro new hnew
    show new.id ≤ m.lastGroup + 1
    rcases List.mem_append.1 hnew with hold | hnew
    · have bound := h.bound new hold
      omega
    · obtain rfl := List.mem_singleton.1 hnew
      exact Int.le_refl _
  lastGroup := by simp [Memory.addGroup, h.lastGroup]
  lastEvent := h.lastEvent
  owned := by
    intro e he
    obtain ⟨g, hg, hid⟩ := h.owned e he
    exact ⟨g, List.mem_append_left _ hg, hid⟩

theorem addEvent (h : m.Numbered) {e : NewEvent} {g : Group}
    (found : m.groupById? e.group = some g) : (m.addEvent e).2.Numbered where
  distinct := h.distinct
  bound := h.bound
  lastGroup := h.lastGroup
  lastEvent := by simp [Memory.addEvent, h.lastEvent]
  owned := by
    intro row hrow
    rcases List.mem_append.1 hrow with hrow | hrow
    · exact h.owned row hrow
    · obtain rfl := List.mem_singleton.1 hrow
      exact ⟨g, mem_of_groupById? found, id_of_groupById? found⟩

theorem replaceGroup (h : m.Numbered) (g : Group) : (m.replaceGroup g).Numbered where
  distinct := by
    rw [map_id_replaceGroup]
    exact h.distinct
  bound := by
    intro new hnew
    obtain ⟨old, hold, same⟩ := exists_mem_replaceGroup_iff.1 ⟨new, hnew, rfl⟩
    exact same ▸ h.bound old hold
  lastGroup := h.lastGroup.trans (by simp [Memory.replaceGroup])
  lastEvent := h.lastEvent
  owned := fun e he => exists_mem_replaceGroup_iff.2 (h.owned e he)

end Numbered

theorem listEvents_addEvent (m : Memory) (e : NewEvent) (id : Int) :
    (m.addEvent e).2.listEvents id =
      m.listEvents id ++ if e.group = id then [(m.addEvent e).1] else [] := by
  by_cases same : e.group = id
  · simp [addEvent, listEvents, same]
  · simp [addEvent, listEvents, same]

namespace Consistent

variable {m : Memory}

theorem empty : Memory.empty.Consistent where
  toNumbered := .empty
  tallies := by simp [Memory.empty]

theorem addGroup (h : m.Consistent) (g : NewGroup) : (m.addGroup g).2.Consistent where
  toNumbered := h.toNumbered.addGroup g
  tallies := by
    intro new hnew
    show new.Tallies (m.listEvents new.id)
    rcases List.mem_append.1 hnew with hold | hnew
    · exact h.tallies new hold
    · obtain rfl := List.mem_singleton.1 hnew
      rw [show (Group.create (m.lastGroup + 1) g).id = m.lastGroup + 1 from rfl,
        h.listEvents_eq_nil (Int.lt_succ _)]
      exact Group.tallies_create _ g

/-- A group may be put in place of another if it agrees with the rows under its id, whatever the
    counters of the group before it were. -/
theorem replaceGroup (numbered : m.Numbered) {g : Group} (tallies : g.Tallies (m.listEvents g.id))
    (others : ∀ old ∈ m.groups, old.id ≠ g.id → old.Tallies (m.listEvents old.id)) :
    (m.replaceGroup g).Consistent where
  toNumbered := numbered.replaceGroup g
  tallies := by
    intro new hnew
    show new.Tallies (m.listEvents new.id)
    obtain ⟨old, hold, rfl⟩ := List.mem_map.1 hnew
    split
    · exact tallies
    · next apart => exact others old hold apart

/-- A row that is counted in its group keeps the store consistent. -/
theorem recorded (h : m.Consistent) {e : NewEvent} {g : Group} {total count : Int}
    (found : m.groupById? e.group = some g)
    (sum : g.addTimeSpent? e.timeSpent = some (total, count)) (seenAt : Instant) :
    ((m.addEvent e).2.replaceGroup (g.counted seenAt total count)).Consistent := by
  have hid : g.id = e.group := id_of_groupById? found
  refine replaceGroup (h.toNumbered.addEvent found) ?_ fun old hold apart => ?_
  · rw [listEvents_addEvent, Group.counted_id, if_pos hid.symm]
    exact Group.tallies_counted (h.tallies g (mem_of_groupById? found)) sum seenAt
  · rw [Group.counted_id, hid] at apart
    rw [listEvents_addEvent, if_neg (Ne.symm apart), List.append_nil]
    exact h.tallies old hold

theorem perform (h : m.Consistent) (c : Command) : (m.perform c).2.Consistent := by
  cases c with
  | create g =>
    rcases m.getOrCreateGroup_cases g with ⟨_, _, made⟩ | ⟨_, made⟩
    · rw [perform_create, made]
      exact h
    · rw [perform_create, made]
      exact h.addGroup g
  | record e seenAt =>
    rcases m.recordEvent_cases e seenAt with ⟨_, made⟩ | ⟨_, _, _, made⟩ | ⟨g, _, _, found, sum, made⟩
    · rw [perform_record, made]
      exact h
    · rw [perform_record, made]
      exact h
    · rw [perform_record, made]
      exact h.recorded found sum seenAt
  | setStatus id status now =>
    rcases m.setGroupStatus_cases id status now with ⟨_, made⟩ | ⟨g, found, made⟩
    · rw [perform_setStatus, made]
      exact h
    · rw [perform_setStatus, made]
      refine replaceGroup h.toNumbered ?_ fun old hold _ => h.tallies old hold
      rw [Group.withStatus_id]
      exact Group.tallies_withStatus (h.tallies g (mem_of_groupById? found)) status now

end Consistent

theorem consistent_after (commands : List Command) : (empty.after commands).Consistent :=
  after_induction .empty (fun _ c h => h.perform c) commands

/-- Rows that all belong to some of these distinct ids are counted once over the ids. -/
theorem sum_length_of_groups {ids : List Int} (distinct : ids.Nodup) (rows : List Event)
    (owned : ∀ e ∈ rows, e.group ∈ ids) :
    (ids.map fun id => ((rows.filter fun e => e.group == id).length : Int)).sum = rows.length := by
  induction rows with
  | nil => simp
  | cons e rest ih =>
    have split : ∀ id, (((e :: rest).filter fun e => e.group == id).length : Int) =
        (if e.group = id then 1 else 0) + (rest.filter fun e => e.group == id).length := by
      intro id
      by_cases same : e.group = id
      · simp [same, Int.add_comm]
      · simp [same]
    have one : (ids.map fun id => if e.group = id then (1 : Int) else 0).sum = 1 := by
      rw [List.sum_map_eq_nsmul_single e.group _ fun id apart _ => if_neg (Ne.symm apart),
        List.count_eq_one_of_mem distinct (owned e List.mem_cons_self)]
      simp
    have more := ih fun e he => owned e (List.mem_cons_of_mem _ he)
    simp only [split]
    rw [List.sum_map_add, one, more, List.length_cons]
    omega

/-- All groups together have seen as many events as there are rows. -/
theorem Consistent.sum_timesSeen {m : Memory} (h : m.Consistent) :
    (m.groups.map Group.timesSeen).sum = m.events.length := by
  have owned : ∀ e ∈ m.events, e.group ∈ m.groups.map Group.id := by
    intro e he
    obtain ⟨g, hg, same⟩ := h.owned e he
    exact List.mem_map.2 ⟨g, hg, same⟩
  have seen : m.groups.map Group.timesSeen =
      (m.groups.map Group.id).map fun id => ((m.listEvents id).length : Int) := by
    rw [List.map_map]
    exact List.map_congr_left fun g hg => (h.tallies g hg).seen
  rw [seen]
  exact sum_length_of_groups h.distinct m.events owned

/-! ## What a run answers -/

/-- The row that an answer tells, if it belongs to the group. -/
def rowIn (id : Int) : Except StoreError Answer → Option Event
  | .ok (.recorded e _) => if e.group = id then some e else none
  | _ => none

/-- How often the group was seen, as the answer to a recording in it tells. -/
def seenIn (id : Int) : Except StoreError Answer → Option Int
  | .ok (.recorded e g) => if e.group = id then some g.timesSeen else none
  | _ => none

/-- The rows of a group are those that the answers tell, in their order. -/
theorem listEvents_perform (m : Memory) (c : Command) (id : Int) :
    (m.perform c).2.listEvents id = m.listEvents id ++ (rowIn id (m.perform c).1).toList := by
  cases c with
  | create g =>
    rcases m.getOrCreateGroup_cases g with ⟨_, _, made⟩ | ⟨_, made⟩ <;>
      simp [perform_create, made, rowIn, listEvents, addGroup]
  | record e seenAt =>
    rcases m.recordEvent_cases e seenAt with ⟨_, made⟩ | ⟨_, _, _, made⟩ | ⟨g, _, _, _, _, made⟩
    · simp [perform_record, made, rowIn, Except.map]
    · simp [perform_record, made, rowIn, Except.map]
    · have rows := m.listEvents_addEvent e id
      simp only [perform_record, made, rowIn, Except.map]
      show (m.addEvent e).2.listEvents id = _
      rw [rows]
      show _ = _ ++ (if e.group = id then some (m.addEvent e).1 else none).toList
      split <;> rfl
  | setStatus id' status now =>
    rcases m.setGroupStatus_cases id' status now with ⟨_, made⟩ | ⟨g, _, made⟩ <;>
      simp [perform_setStatus, made, rowIn, Except.map, listEvents, replaceGroup]

/-- The answer to a recording counts the row that it added. -/
theorem Consistent.seenIn_perform {m : Memory} (h : m.Consistent) (c : Command) (id : Int) :
    seenIn id (m.perform c).1 =
      (rowIn id (m.perform c).1).map fun _ => ((m.listEvents id).length : Int) + 1 := by
  cases c with
  | create g => simp [seenIn, rowIn]
  | record e seenAt =>
    rcases m.recordEvent_cases e seenAt with ⟨_, made⟩ | ⟨_, _, _, made⟩ | ⟨g, _, _, found, _, made⟩
    · simp [perform_record, made, seenIn, rowIn, Except.map]
    · simp [perform_record, made, seenIn, rowIn, Except.map]
    · have seen := (h.tallies g (mem_of_groupById? found)).seen
      rw [id_of_groupById? found] at seen
      simp only [perform_record, made, seenIn, rowIn, Except.map]
      show (if e.group = id then _ else none) = Option.map _ (if e.group = id then _ else none)
      split
      · next same => rw [Group.counted_timesSeen, seen, same, Option.map_some]
      · rfl
  | setStatus id' status now =>
    rcases m.setGroupStatus_cases id' status now with ⟨_, made⟩ | ⟨_, _, made⟩ <;>
      simp [perform_setStatus, made, seenIn, rowIn, Except.map]

/-- The recordings in one group that succeed count it 1, 2, 3 and so on, up to its rows. -/
theorem seenIn_answers (commands : List Command) (id : Int) :
    (empty.answers commands).filterMap (seenIn id) =
      (List.range ((empty.after commands).listEvents id).length).map fun n => (n : Int) + 1 := by
  induction commands using List.reverseRecOn with
  | nil => rfl
  | append_singleton commands c ih =>
    have told := (consistent_after commands).seenIn_perform c id
    have rows := (empty.after commands).listEvents_perform c id
    rw [answers_append, List.filterMap_append, ih, after_append, after_cons, after_nil, rows]
    cases row : rowIn id ((empty.after commands).perform c).1 with
    | none =>
      rw [row] at told
      simp [answers, told]
    | some e =>
      rw [row] at told
      simp [answers, told, List.range_succ]

/-- Every command adds at most one group or row. -/
theorem length_after_le (m : Memory) (commands : List Command) :
    (m.after commands).groups.length + (m.after commands).events.length ≤
      m.groups.length + m.events.length + commands.length := by
  induction commands generalizing m with
  | nil => exact Nat.le_refl _
  | cons c rest ih =>
    have one : (m.perform c).2.groups.length + (m.perform c).2.events.length ≤
        m.groups.length + m.events.length + 1 := by
      cases c with
      | create g =>
        rcases m.getOrCreateGroup_cases g with ⟨_, _, made⟩ | ⟨_, made⟩ <;>
          simp only [perform_create, made, addGroup, List.length_append, List.length_singleton] <;>
          omega
      | record e seenAt =>
        rcases m.recordEvent_cases e seenAt with ⟨_, made⟩ | ⟨_, _, _, made⟩ | ⟨_, _, _, _, _, made⟩ <;>
          simp only [perform_record, made, addEvent, replaceGroup, List.length_append,
            List.length_map, List.length_singleton] <;>
          omega
      | setStatus id status now =>
        rcases m.setGroupStatus_cases id status now with ⟨_, made⟩ | ⟨_, _, made⟩ <;>
          simp only [perform_setStatus, made, replaceGroup, List.length_map] <;>
          omega
    have more := ih (m.perform c).2
    rw [after_cons, List.length_cons]
    omega

/-- Recording an event fails if its group does not exist or the total of milliseconds would not
    fit, and only then. -/
theorem recordEvent_fails_iff (m : Memory) (e : NewEvent) (seenAt : Instant) :
    (∃ err, (m.recordEvent e seenAt).1 = .error err) ↔
      m.groupById? e.group = none ∨
        ∃ g ms, m.groupById? e.group = some g ∧ e.timeSpent = some ms ∧
          ¬ IsInt64 (g.timeSpentTotal + ms) := by
  rcases m.recordEvent_cases e seenAt with
    ⟨missing, made⟩ | ⟨g, found, sum, made⟩ | ⟨g, total, count, found, sum, made⟩
  · simp [made, missing]
  · obtain ⟨ms, told, tooFar⟩ := Group.addTimeSpent?_eq_none_iff.1 sum
    rw [made]
    exact ⟨fun _ => .inr ⟨g, ms, found, told, tooFar⟩, fun _ => ⟨_, rfl⟩⟩
  · rw [made]
    constructor
    · rintro ⟨err, failed⟩
      cases failed
    · rintro (missing | ⟨other, ms, same, told, tooFar⟩)
      · rw [found] at missing
        cases missing
      · rw [found] at same
        cases same
        have none := Group.addTimeSpent?_eq_none_iff.2 ⟨ms, told, tooFar⟩
        rw [sum] at none
        cases none

theorem isInt64_of_length {n k : Nat} (short : k < 2 ^ 63) (le : n ≤ k) : IsInt64 n := by
  constructor <;> omega

/-- After every run from the empty store the counters of every group are those of its rows, and
    every row has a group.  The recordings in one group that succeed count it 1, 2, 3 and so on.  A
    call that fails leaves the store as it was, and recording fails only without a group or past the
    range of the total.  No counter leaves that range in a run of fewer than 2^63 calls. -/
theorem counters_eq_rows (commands : List Command) :
    let m := empty.after commands
    (∀ g ∈ m.groups, m.groupById? g.id = some g ∧ g.Tallies (m.listEvents g.id)) ∧
    (∀ e ∈ m.events, ∃ g ∈ m.groups, g.id = e.group) ∧
    (∀ id, (empty.answers commands).filterMap (seenIn id) =
      (List.range (m.listEvents id).length).map fun n => (n : Int) + 1) ∧
    (∀ c err, (m.perform c).1 = .error err → (m.perform c).2 = m) ∧
    (∀ e seenAt, (∃ err, (m.recordEvent e seenAt).1 = .error err) ↔
      m.groupById? e.group = none ∨
        ∃ g ms, m.groupById? e.group = some g ∧ e.timeSpent = some ms ∧
          ¬ IsInt64 (g.timeSpentTotal + ms)) ∧
    (commands.length < 2 ^ 63 → IsInt64 m.lastGroup ∧ IsInt64 m.lastEvent ∧
      ∀ g ∈ m.groups, IsInt64 g.timesSeen ∧ IsInt64 g.timeSpentCount) := by
  intro m
  have h : m.Consistent := consistent_after commands
  refine ⟨fun g hg => ⟨h.groupById?_of_mem hg, h.tallies g hg⟩, h.owned, seenIn_answers commands,
    fun _ _ => perform_eq_of_error, m.recordEvent_fails_iff, fun short => ?_⟩
  have size := length_after_le empty commands
  change m.groups.length + m.events.length ≤ 0 + 0 + commands.length at size
  have rows : ∀ id, (m.listEvents id).length ≤ m.events.length := fun id =>
    List.length_filter_le _ _
  refine ⟨?_, ?_, fun g hg => ⟨?_, ?_⟩⟩
  · rw [h.lastGroup]
    exact isInt64_of_length short (by omega)
  · rw [h.lastEvent]
    exact isInt64_of_length short (by omega)
  · rw [(h.tallies g hg).seen]
    have le := rows g.id
    exact isInt64_of_length short (by omega)
  · rw [(h.tallies g hg).count]
    have le := rows g.id
    have told : (timesSpent (m.listEvents g.id)).length ≤ (m.listEvents g.id).length :=
      List.length_filterMap_le _ _
    exact isInt64_of_length short (by omega)

/-- A total at its limit, a recording that would pass it, and one that takes it back. -/
def nearLimit : List Command :=
  [.create (.plain 1 "abc"), .record (.plain 1 (some 9223372036854775807)) .epoch,
    .record (.plain 1 (some 1)) .epoch, .record (.plain 1 (some (-3))) .epoch]

theorem counters_eq_rows_nearLimit :
    nearLimit.length < 2 ^ 63 ∧
      ∃ g ∈ (empty.after nearLimit).groups,
        g.Tallies ((empty.after nearLimit).listEvents g.id) ∧ g.timesSeen = 2 ∧
          g.timeSpentTotal = 9223372036854775804 ∧ IsInt64 g.timesSeen := by
  have short : nearLimit.length < 2 ^ 63 := by decide
  have h := counters_eq_rows nearLimit
  have hg : (empty.after nearLimit).groups.head (by decide) ∈ (empty.after nearLimit).groups :=
    List.head_mem _
  exact ⟨short, _, hg, (h.1 _ hg).2, rfl, rfl, ((h.2.2.2.2.2 short).2.2 _ hg).1⟩

end Memory

end ErrorIntake.Ledger
