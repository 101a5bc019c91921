import ErrorIntake.Proofs.Ledger.Keys

/-!
# What stays of a group

Groups and rows are numbered from 1 on, in the order in which they stand.  What a group was founded
with never changes, and rows are only added behind others: `Extends` says so of two stores, and every
command leads to a store that extends the one before it.  So a key is answered for ever by the group
that was made for it first.
-/

namespace ErrorIntake.Ledger

open Calendar (Instant)

namespace Group

/-- What a group was founded with: all that it tells of its first event. -/
def founding (g : Group) : NewGroup where
  project := g.project
  logger := g.logger
  level := g.level
  message := g.message
  culprit := g.culprit
  checksum := g.checksum
  platform := g.platform
  data := g.data
  seenAt := g.firstSeen

@[simp] theorem founding_key (g : Group) : g.founding.key = g.key := rfl

@[simp] theorem create_founding (id : Int) (g : NewGroup) : (create id g).founding = g := rfl

@[simp] theorem withStatus_founding (g : Group) (status : GroupStatus) (now : Instant) :
    (g.withStatus status now).founding = g.founding := by
  cases status <;> rfl

@[simp] theorem counted_founding (g : Group) (seenAt : Instant) (total count : Int) :
    (g.counted seenAt total count).founding = g.founding := by
  simp only [counted, withStatus]
  split <;> rfl

end Group

/-- The ids that were given in turn, up to the last one. -/
def idsUpTo (last : Int) : List Int := (List.range last.toNat).map fun n : Nat => (n : Int) + 1

theorem idsUpTo_succ (n : Nat) : idsUpTo ((n : Int) + 1) = idsUpTo n ++ [(n : Int) + 1] := by
  have next : ((n : Int) + 1).toNat = n + 1 := by omega
  rw [idsUpTo, next, List.range_succ, List.map_append]
  rfl

theorem pairwise_idsUpTo (last : Int) : (idsUpTo last).Pairwise (· < ·) := by
  refine List.pairwise_map.2 (List.pairwise_lt_range.imp ?_)
  intro n n' lt
  omega

namespace Memory

variable {m m' : Memory} {g : Group} {id : Int}

/-! ## Ids in turn -/

/-- Groups and rows have the ids that were given in turn. -/
structure InTurn (m : Memory) : Prop extends Numbered m where
  groupIds : m.groups.map Group.id = idsUpTo m.lastGroup
  eventIds : m.events.map (fun e => e.id) = idsUpTo m.lastEvent

namespace InTurn

theorem empty : Memory.empty.InTurn where
  toNumbered := .empty
  groupIds := rfl
  eventIds := rfl

theorem addGroup (h : m.InTurn) (g : NewGroup) : (m.addGroup g).2.InTurn where
  toNumbered := h.toNumbered.addGroup g
  groupIds := by
    have ids : (m.groups ++ [(m.addGroup g).1]).map Group.id =
        idsUpTo m.lastGroup ++ [m.lastGroup + 1] := by
      rw [List.map_append, h.groupIds]
      rfl
    show (m.groups ++ [(m.addGroup g).1]).map Group.id = idsUpTo (m.lastGroup + 1)
    rw [ids, h.lastGroup, idsUpTo_succ]
  eventIds := h.eventIds

theorem recorded (h : m.InTurn) {e : NewEvent} (found : m.groupById? e.group = some g)
    (counted : Group) : ((m.addEvent e).2.replaceGroup counted).InTurn where
  toNumbered := (h.toNumbered.addEvent found).replaceGroup counted
  groupIds := by
    rw [map_id_replaceGroup]
    exact h.groupIds
  eventIds := by
    have ids : (m.events ++ [(m.addEvent e).1]).map (fun e => e.id) =
        idsUpTo m.lastEvent ++ [m.lastEvent + 1] := by
      rw [List.map_append, h.eventIds]
      rfl
    show (m.events ++ [(m.addEvent e).1]).map (fun e => e.id) = idsUpTo (m.lastEvent + 1)
    rw [ids, h.lastEvent, idsUpTo_succ]

theorem replaceGroup (h : m.InTurn) (g : Group) : (m.replaceGroup g).InTurn where
  toNumbered := h.toNumbered.replaceGroup g
  groupIds := by
    rw [map_id_replaceGroup]
    exact h.groupIds
  eventIds := h.eventIds

theorem perform (h : m.InTurn) (c : Command) : (m.perform c).2.InTurn := by
  cases c with
  | create g =>
    rcases m.getOrCreateGroup_cases g with ⟨_, _, made⟩ | ⟨_, made⟩
    · rw [perform_create, made]
      exact h
    · rw [perform_create, made]
      exact h.addGroup g
  | record e seenAt =>
    rcases m.recordEvent_cases e seenAt with
      ⟨_, made⟩ | ⟨_, _, _, made⟩ | ⟨g, _, _, found, _, made⟩
    · rw [perform_record, made]
      exact h
    · rw [perform_record, made]
      exact h
    · rw [perform_record, made]
      exact h.recorded found _
  | setStatus id status now =>
    rcases m.setGroupStatus_cases id status now with ⟨_, made⟩ | ⟨g, _, made⟩
    · rw [perform_setStatus, made]
      exact h
    · rw [perform_setStatus, made]
      exact h.replaceGroup _

/-- The rows of a group have rising ids. -/
theorem pairwise_listEvents (h : m.InTurn) (id : Int) :
    ((m.listEvents id).map fun e => e.id).Pairwise (· < ·) := by
  have rising : (m.events.map fun e => e.id).Pairwise (· < ·) := by
    rw [h.eventIds]
    exact pairwise_idsUpTo m.lastEvent
  exact rising.sublist (List.filter_sublist.map _)

end InTurn

theorem inTurn_after (commands : List Command) : (empty.after commands).InTurn :=
  after_induction .empty (fun _ c h => h.perform c) commands

/-! ## Stores that extend others -/

/-- What was founded before is founded the same way still, and rows were only added. -/
structure Extends (m m' : Memory) : Prop where
  founded : ∀ id g, m.groupById? id = some g →
    ∃ g', m'.groupById? id = some g' ∧ g'.founding = g.founding
  rows : m.events <+: m'.events

namespace Extends

theorem refl (m : Memory) : m.Extends m where
  founded _ g found := ⟨g, found, rfl⟩
  rows := List.prefix_refl _

theorem trans {m'' : Memory} (h : m.Extends m') (h' : m'.Extends m'') : m.Extends m'' where
  founded id g found := by
    obtain ⟨g', found', same⟩ := h.founded id g found
    obtain ⟨g'', found'', same'⟩ := h'.founded id g' found'
    exact ⟨g'', found'', same'.trans same⟩
  rows := h.rows.trans h'.rows

theorem addGroup (m : Memory) (g : NewGroup) : m.Extends (m.addGroup g).2 where
  founded id old found := by
    refine ⟨old, ?_, rfl⟩
    rw [groupById?_addGroup, found, Option.some_or]
  rows := List.prefix_refl _

theorem recorded {e : NewEvent} (found : m.groupById? e.group = some g) (seenAt : Instant)
    (total count : Int) :
    m.Extends ((m.addEvent e).2.replaceGroup (g.counted seenAt total count)) where
  founded id old there := by
    rw [groupById?_recorded found]
    split
    · next same =>
      rw [same, found] at there
      cases there
      exact ⟨_, rfl, g.counted_founding seenAt total count⟩
    · exact ⟨old, there, rfl⟩
  rows := List.prefix_append _ _

theorem withStatus (found : m.groupById? id = some g) (status : GroupStatus) (now : Instant) :
    m.Extends (m.replaceGroup (g.withStatus status now)) where
  founded other old there := by
    rw [groupById?_withStatus found]
    split
    · next same =>
      rw [same, found] at there
      cases there
      exact ⟨_, rfl, g.withStatus_founding status now⟩
    · exact ⟨old, there, rfl⟩
  rows := List.prefix_refl _

end Extends

/-- Every command, whether it succeeds or fails, leads to a store that extends the one before it. -/
theorem extends_perform (m : Memory) (c : Command) : m.Extends (m.perform c).2 := by
  cases c with
  | create g =>
    rcases m.getOrCreateGroup_cases g with ⟨_, _, made⟩ | ⟨_, made⟩
    · rw [perform_create, made]
      exact .refl m
    · rw [perform_create, made]
      exact .addGroup m g
  | record e seenAt =>
    rcases m.recordEvent_cases e seenAt with
      ⟨_, made⟩ | ⟨_, _, _, made⟩ | ⟨g, total, count, found, _, made⟩
    · rw [perform_record, made]
      exact .refl m
    · rw [perform_record, made]
      exact .refl m
    · rw [perform_record, made]
      exact .recorded found seenAt total count
  | setStatus id status now =>
    rcases m.setGroupStatus_cases id status now with ⟨_, made⟩ | ⟨g, found, made⟩
    · rw [perform_setStatus, made]
      exact .refl m
    · rw [perform_setStatus, made]
      exact .withStatus found status now

theorem extends_after (m : Memory) (commands : List Command) : m.Extends (m.after commands) := by
  induction commands generalizing m with
  | nil => exact .refl m
  | cons c rest ih => exact (m.extends_perform c).trans (ih _)

/-! ## Who makes a group -/

theorem listEvents_after (m : Memory) (commands : List Command) (id : Int) :
    (m.after commands).listEvents id =
      m.listEvents id ++ (m.answers commands).filterMap (rowIn id) := by
  induction commands generalizing m with
  | nil => exact (List.append_nil _).symm
  | cons c rest ih =>
    rw [after_cons, ih, listEvents_perform, answers, List.filterMap_cons, List.append_assoc]
    cases rowIn id (m.perform c).1 <;> rfl

theorem mem_keys_iff_files {key : Key} : key ∈ m.keys ↔ ∃ id, m.Files key id := by
  rw [keys, List.mem_map]
  constructor
  · rintro ⟨g, inside, rfl⟩
    exact ⟨g.id, files_of_mem inside⟩
  · rintro ⟨_, g, inside, _, same⟩
    exact ⟨g, inside, same⟩

namespace Keyed

variable {key : Key}

/-- Only the call that asks for a key files it. -/
theorem mem_keys_perform (h : m.Keyed) (c : Command) :
    key ∈ (m.perform c).2.keys ↔ key ∈ m.keys ∨ ∃ g, c = .create g ∧ g.key = key := by
  cases c with
  | create g =>
    simp only [Command.create.injEq, exists_eq_left']
    rcases m.getOrCreateGroup_cases g with ⟨g', found, made⟩ | ⟨_, made⟩
    · rw [perform_create, made]
      obtain ⟨inside, filed⟩ := h.group?_eq_some_iff.1 found
      refine ⟨.inl, ?_⟩
      rintro (there | rfl)
      · exact there
      · exact List.mem_map.2 ⟨g', inside, filed⟩
    · rw [perform_create, made, keys_addGroup, List.mem_append, List.mem_singleton,
        eq_comm (a := key)]
  | record e seenAt =>
    simp only [reduceCtorEq, false_and, exists_false, or_false]
    rcases m.recordEvent_cases e seenAt with
      ⟨_, made⟩ | ⟨_, _, _, made⟩ | ⟨g, total, count, found, _, made⟩
    · rw [perform_record, made]
    · rw [perform_record, made]
    · rw [perform_record, made, h.keys_recorded found]
  | setStatus id status now =>
    simp only [reduceCtorEq, false_and, exists_false, or_false]
    rw [perform_setStatus, mem_keys_iff_files, mem_keys_iff_files]
    exact exists_congr fun _ => h.files_setGroupStatus id status now

/-- The keys that are filed are those that were asked for. -/
theorem mem_keys_after (h : m.Keyed) (commands : List Command) :
    key ∈ (m.after commands).keys ↔ key ∈ m.keys ∨ ∃ g, .create g ∈ commands ∧ g.key = key := by
  induction commands generalizing m with
  | nil => simp
  | cons c rest ih =>
    rw [after_cons, ih (h.perform c), h.mem_keys_perform]
    simp only [List.mem_cons, or_and_right, exists_or, or_assoc, eq_comm (a := c)]

/-- The first call for a key makes its group, and no other call does. -/
theorem isNew_iff (h : m.Keyed) (g : NewGroup) :
    (m.getOrCreateGroup g).1.2 = true ↔ g.key ∉ m.keys := by
  rw [← h.isSome_group?_iff]
  rcases m.getOrCreateGroup_cases g with ⟨g', found, made⟩ | ⟨new, made⟩
  · simp [made, found]
  · simp [made, new]

/-- The group that a call for a key answers is found under its id and its key then. -/
theorem groupById?_getOrCreateGroup (h : m.Keyed) (g : NewGroup) :
    (m.getOrCreateGroup g).2.groupById? (m.getOrCreateGroup g).1.1.id =
      some (m.getOrCreateGroup g).1.1 ∧ (m.getOrCreateGroup g).1.1.key = g.key := by
  rcases m.getOrCreateGroup_cases g with ⟨g', found, made⟩ | ⟨new, made⟩
  · obtain ⟨inside, filed⟩ := h.group?_eq_some_iff.1 found
    rw [made]
    exact ⟨h.groupById?_of_mem inside, filed⟩
  · rw [made]
    exact ⟨(h.addGroup new).groupById?_of_mem (List.mem_append_right _ List.mem_cons_self), rfl⟩

theorem groupById?_iff_group? (h : m.Keyed) :
    m.groupById? g.id = some g ↔ m.group? g.key = some g := by
  rw [h.group?_eq_some_iff]
  exact ⟨fun found => ⟨mem_of_groupById? found, rfl⟩, fun there => h.groupById?_of_mem there.1⟩

/-- A key that is filed is answered by its group, whatever is asked for under it. -/
theorem getOrCreateGroup_of_filed (h : m.Keyed) (found : m.groupById? id = some g) {new : NewGroup}
    (same : new.key = g.key) : m.getOrCreateGroup new = ((g, false), m) := by
  have named : g.id = id := id_of_groupById? found
  subst named
  have filed : m.group? new.key = some g := by
    rw [same]
    exact h.groupById?_iff_group?.1 found
  rw [getOrCreateGroup, filed]

end Keyed

/-- A later call for a key answers the group of an earlier one, as it stands now, and changes
    nothing. -/
theorem getOrCreateGroup_later (commands more : List Command) {g later : NewGroup}
    (same : later.key = g.key) :
    let first := (empty.after commands).getOrCreateGroup g
    let m := first.2.after more
    ∃ now, m.getOrCreateGroup later = ((now, false), m) ∧ now.id = first.1.1.id ∧
      now.founding = first.1.1.founding := by
  intro first m
  have run : empty.after (commands ++ .create g :: more) = m := by
    rw [after_append, after_cons, perform_create]
  have keyed : m.Keyed := run ▸ keyed_after _
  obtain ⟨made, filed⟩ := (keyed_after commands).groupById?_getOrCreateGroup g
  obtain ⟨now, found, founded⟩ := (first.2.extends_after more).founded _ _ made
  have key : later.key = now.key := by
    rw [same, ← filed, ← Group.founding_key now, founded]
    rfl
  exact ⟨now, keyed.getOrCreateGroup_of_filed found key, id_of_groupById? found, founded⟩

/-- The index and the groups of every store that was filled from empty tell the same: a key has one
    group at most, and both look-ups agree.  Groups and rows have the ids 1, 2, 3 and so on.  The
    group of a key is made by the first call that asks for it, founded as that call asked, and
    answers every later call; nothing that it was founded with ever changes.  The rows of a group are
    those that were recorded, in their order. -/
theorem index_tells_groups (commands : List Command) :
    let m := empty.after commands
    (∀ key id, m.index.lookup key = some id ↔ ∃ g ∈ m.groups, g.id = id ∧ g.key = key) ∧
    m.keys.Nodup ∧
    m.groups.map Group.id = idsUpTo m.lastGroup ∧
    m.events.map (fun e => e.id) = idsUpTo m.lastEvent ∧
    (∀ g, (m.getOrCreateGroup g).1.2 = true ↔
      ∀ earlier, .create earlier ∈ commands → earlier.key ≠ g.key) ∧
    (∀ g, (m.getOrCreateGroup g).1.2 = true → (m.getOrCreateGroup g).1.1.founding = g) ∧
    (∀ g later more, later.key = g.key →
      let first := m.getOrCreateGroup g
      let m' := first.2.after more
      ∃ now, m'.getOrCreateGroup later = ((now, false), m') ∧ now.id = first.1.1.id ∧
        now.founding = first.1.1.founding) ∧
    (∀ g, m.groupById? g.id = some g ↔ m.group? g.key = some g) ∧
    (∀ id, m.listEvents id = (empty.answers commands).filterMap (rowIn id) ∧
      ((m.listEvents id).map fun e => e.id).Pairwise (· < ·)) ∧
    ∀ more id g, m.groupById? id = some g →
      ∃ now, (m.after more).groupById? id = some now ∧ now.id = g.id ∧
        now.founding = g.founding := by
  intro m
  have keyed : m.Keyed := keyed_after commands
  have inTurn : m.InTurn := inTurn_after commands
  refine ⟨keyed.index_iff, keyed.nodup_keys, inTurn.groupIds, inTurn.eventIds, ?_, ?_, ?_, ?_, ?_, ?_⟩
  · intro g
    rw [keyed.isNew_iff, Keyed.empty.mem_keys_after]
    simp [keys, empty]
  · intro g new
    rcases m.getOrCreateGroup_cases g with ⟨_, _, made⟩ | ⟨_, made⟩
    · rw [made] at new
      cases new
    · rw [made]
      rfl
  · intro g later more same
    exact getOrCreateGroup_later commands more same
  · intro g
    exact keyed.groupById?_iff_group?
  · intro id
    exact ⟨listEvents_after empty commands id, inTurn.pairwise_listEvents id⟩
  · intro more id g found
    obtain ⟨now, there, founded⟩ := (m.extends_after more).founded id g found
    exact ⟨now, there, (id_of_groupById? there).trans (id_of_groupById? found).symm, founded⟩

/-- The group of another project is made, the first group is resolved, and an event is recorded in
    it. -/
def busyMeanwhile : List Command :=
  [.create (.plain 2 "abc"), .setStatus 1 .resolved .epoch, .record (.plain 1 none) .epoch]

theorem index_tells_groups_askedAgain :
    let first := empty.getOrCreateGroup (.plain 1 "abc")
    let later : NewGroup := { NewGroup.plain 1 "abc" with message := "other" }
    let m := first.2.after busyMeanwhile
    later.key = (NewGroup.plain 1 "abc").key ∧ first.1.2 = true ∧
      first.1.1.founding.message = "boom" ∧ first.2.groupById? 1 = some first.1.1 ∧
      (∃ now, m.getOrCreateGroup later = ((now, false), m) ∧ now.id = 1 ∧
        now.founding = first.1.1.founding) ∧
      ∃ now, m.groupById? 1 = some now ∧ now.timesSeen = 1 ∧ now.founding = first.1.1.founding := by
  intro first later m
  have same : later.key = (NewGroup.plain 1 "abc").key := rfl
  have new : first.1.2 = true := rfl
  have found : first.2.groupById? 1 = some first.1.1 := rfl
  obtain ⟨_, _, _, _, _, made, answered, _⟩ := index_tells_groups []
  obtain ⟨_, _, _, _, _, _, _, _, _, stays⟩ := index_tells_groups [.create (.plain 1 "abc")]
  have founding := made (.plain 1 "abc") new
  obtain ⟨now, there, _, founded⟩ := stays busyMeanwhile 1 first.1.1 found
  have seen : (m.groupById? 1).map Group.timesSeen = some 1 := by decide +kernel
  change m.groupById? 1 = some now at there
  rw [there] at seen
  exact ⟨same, new, congrArg NewGroup.message founding, found,
    answered (.plain 1 "abc") later busyMeanwhile same, now, there, Option.some.inj seen, founded⟩

end Memory

end ErrorIntake.Ledger
