import ErrorIntake.Proofs.Ledger.Counters

/-!
# Keys of groups

The index of a store answers which group has a key.  `Keyed` says that it tells exactly the groups
of the store, so that a key has one group at most, and every command keeps it.  The occurrences of a
key are the rows of its group without the numbers that the store gave them; the counters of the
group are counters of its occurrences.
-/

namespace ErrorIntake.Ledger

open Calendar (Instant)

namespace Group

@[simp] theorem create_key (id : Int) (g : NewGroup) : (create id g).key = g.key := rfl

@[simp] theorem withStatus_key (g : Group) (status : GroupStatus) (now : Instant) :
    (g.withStatus status now).key = g.key := by
  cases status <;> rfl

@[simp] theorem counted_key (g : Group) (seenAt : Instant) (total count : Int) :
    (g.counted seenAt total count).key = g.key := by
  simp only [counted, withStatus]
  split <;> rfl

end Group

namespace Memory

/-- The keys of the groups. -/
def keys (m : Memory) : List Key := m.groups.map Group.key

/-- A group with this key and this id stands in the store. -/
def Files (m : Memory) (key : Key) (id : Int) : Prop := ∃ g ∈ m.groups, g.id = id ∧ g.key = key

/-- The index tells the groups. -/
structure Keyed (m : Memory) : Prop extends Consistent m where
  index_iff : ∀ key id, m.index.lookup key = some id ↔ m.Files key id

theorem files_of_mem {m : Memory} {g : Group} (member : g ∈ m.groups) : m.Files g.key g.id :=
  ⟨g, member, rfl, rfl⟩

theorem files_of_groupById? {m : Memory} {id : Int} {g : Group} (found : m.groupById? id = some g) :
    m.Files g.key id :=
  ⟨g, mem_of_groupById? found, id_of_groupById? found, rfl⟩

theorem keys_addGroup (m : Memory) (g : NewGroup) : (m.addGroup g).2.keys = m.keys ++ [g.key] := by
  simp [keys, addGroup]

theorem files_addGroup {m : Memory} {g : NewGroup} {key : Key} {id : Int} :
    (m.addGroup g).2.Files key id ↔ m.Files key id ∨ (m.lastGroup + 1 = id ∧ g.key = key) := by
  simp only [Files, addGroup, List.mem_append, List.mem_singleton, or_and_right, exists_or,
    exists_eq_left]
  rfl

/-- Putting a group in place of another of the same key keeps what is filed. -/
theorem files_replaceGroup {m : Memory} {new : Group} {key : Key} {id : Int}
    (kept : ∀ old ∈ m.groups, old.id = new.id → old.key = new.key) :
    (m.replaceGroup new).Files key id ↔ m.Files key id := by
  constructor
  · rintro ⟨g, member, rfl, rfl⟩
    obtain ⟨old, inside, rfl⟩ := List.mem_map.1 member
    split
    · next same => exact ⟨old, inside, same, kept old inside same⟩
    · exact files_of_mem inside
  · rintro ⟨old, inside, rfl, rfl⟩
    refine ⟨_, List.mem_map.2 ⟨old, inside, rfl⟩, ?_⟩
    split
    · next same => exact ⟨same.symm, (kept old inside same).symm⟩
    · exact ⟨rfl, rfl⟩

namespace Keyed

variable {m : Memory} {key : Key} {g : Group}

theorem empty : Memory.empty.Keyed where
  toConsistent := .empty
  index_iff key id := by
    constructor
    · intro told
      cases told
    · rintro ⟨g, member, _⟩
      cases member

/-- Two groups of one id are the same. -/
theorem eq_of_id (h : m.Keyed) {g g' : Group} (member : g ∈ m.groups) (member' : g' ∈ m.groups)
    (same : g.id = g'.id) : g = g' :=
  List.inj_on_of_nodup_map h.distinct member member' same

/-- A group that is found has the key that its id is filed under. -/
theorem key_of_files (h : m.Keyed) {id : Int} (stands : m.Files key id)
    (found : m.groupById? id = some g) : g.key = key := by
  obtain ⟨g', inside, named, rfl⟩ := stands
  rw [h.eq_of_id (mem_of_groupById? found) inside ((id_of_groupById? found).trans named.symm)]

theorem group?_eq_some_iff (h : m.Keyed) : m.group? key = some g ↔ g ∈ m.groups ∧ g.key = key := by
  simp only [group?, Option.bind_eq_some_iff]
  constructor
  · rintro ⟨id, told, found⟩
    exact ⟨mem_of_groupById? found, h.key_of_files ((h.index_iff key id).1 told) found⟩
  · rintro ⟨inside, rfl⟩
    exact ⟨g.id, (h.index_iff _ _).2 (files_of_mem inside), h.groupById?_of_mem inside⟩

theorem group?_eq_none_iff (h : m.Keyed) : m.group? key = none ↔ ∀ g ∈ m.groups, g.key ≠ key := by
  rw [Option.eq_none_iff_forall_ne_some]
  simp only [ne_eq, h.group?_eq_some_iff, not_and]

theorem isSome_group?_iff (h : m.Keyed) : (m.group? key).isSome ↔ key ∈ m.keys := by
  rw [Option.isSome_iff_exists, keys, List.mem_map]
  exact exists_congr fun g => h.group?_eq_some_iff

/-- No two groups have one key. -/
theorem nodup_keys (h : m.Keyed) : m.keys.Nodup := by
  refine List.Nodup.map_on (fun g member g' member' same => ?_) (List.Nodup.of_map _ h.distinct)
  have found := h.group?_eq_some_iff.2 ⟨member, same⟩
  have found' := h.group?_eq_some_iff.2 ⟨member', rfl⟩
  exact Option.some.inj (found.symm.trans found')

theorem addGroup (h : m.Keyed) {g : NewGroup} (new : m.group? g.key = none) :
    (m.addGroup g).2.Keyed where
  toConsistent := h.toConsistent.addGroup g
  index_iff key id := by
    have apart := h.group?_eq_none_iff.1 new
    show ((g.key, m.lastGroup + 1) :: m.index).lookup key = some id ↔ _
    rw [files_addGroup, List.lookup_cons]
    by_cases same : key = g.key
    · subst same
      have unfiled : ¬ m.Files g.key id := fun ⟨g', member, _, filed⟩ => apart g' member filed
      simp [unfiled]
    · have off : (key == g.key) = false := by simpa using same
      rw [off]
      show m.index.lookup key = some id ↔ _
      rw [h.index_iff]
      simp [Ne.symm same]

/-- Putting a group back changed, with its id and key, keeps what is filed. -/
theorem files_replaced (h : m.Keyed) {id : Int} {new : Group} (found : m.groupById? id = some g)
    (named : new.id = g.id) (keyed : new.key = g.key) {other : Int} :
    (m.replaceGroup new).Files key other ↔ m.Files key other := by
  refine files_replaceGroup fun old inside same => ?_
  rw [h.eq_of_id inside (mem_of_groupById? found) (same.trans named), keyed]

theorem files_recorded (h : m.Keyed) {e : NewEvent} (found : m.groupById? e.group = some g)
    (seenAt : Instant) (total count : Int) {id : Int} :
    ((m.addEvent e).2.replaceGroup (g.counted seenAt total count)).Files key id ↔
      m.Files key id :=
  h.files_replaced found (g.counted_id seenAt total count) (g.counted_key seenAt total count)

theorem files_setGroupStatus (h : m.Keyed) (id : Int) (status : GroupStatus) (now : Instant)
    {other : Int} : (m.setGroupStatus id status now).2.Files key other ↔ m.Files key other := by
  rcases m.setGroupStatus_cases id status now with ⟨_, made⟩ | ⟨g, found, made⟩
  · rw [made]
  · rw [made]
    exact h.files_replaced found (g.withStatus_id status now) (g.withStatus_key status now)

theorem recorded (h : m.Keyed) {e : NewEvent} {total count : Int}
    (found : m.groupById? e.group = some g)
    (sum : g.addTimeSpent? e.timeSpent = some (total, count)) (seenAt : Instant) :
    ((m.addEvent e).2.replaceGroup (g.counted seenAt total count)).Keyed where
  toConsistent := h.toConsistent.recorded found sum seenAt
  index_iff key id := by
    rw [h.files_recorded found]
    exact h.index_iff key id

theorem perform (h : m.Keyed) (c : Command) : (m.perform c).2.Keyed := by
  cases c with
  | create g =>
    rcases m.getOrCreateGroup_cases g with ⟨_, _, made⟩ | ⟨new, made⟩
    · rw [perform_create, made]
      exact h
    · rw [perform_create, made]
      exact h.addGroup new
  | record e seenAt =>
    rcases m.recordEvent_cases e seenAt with
      ⟨_, made⟩ | ⟨_, _, _, made⟩ | ⟨g, _, _, found, sum, made⟩
    · rw [perform_record, made]
      exact h
    · rw [perform_record, made]
      exact h
    · rw [perform_record, made]
      exact h.recorded found sum seenAt
  | setStatus id status now =>
    refine ⟨h.toConsistent.perform (.setStatus id status now), fun key other => ?_⟩
    rw [perform_setStatus, h.files_setGroupStatus, ← h.index_iff]
    rcases m.setGroupStatus_cases id status now with ⟨_, made⟩ | ⟨g, _, made⟩
    · rw [made]
    · rw [made]
      rfl

theorem group?_addGroup (h : m.Keyed) {g : NewGroup} (new : m.group? g.key = none) :
    (m.addGroup g).2.group? key = if g.key = key then some (m.addGroup g).1 else m.group? key := by
  refine Option.ext fun found => ?_
  rw [(h.addGroup new).group?_eq_some_iff]
  show found ∈ m.groups ++ [_] ∧ found.key = key ↔ _
  rw [List.mem_append, List.mem_singleton]
  split
  · next same =>
    subst same
    have apart := h.group?_eq_none_iff.1 new
    constructor
    · rintro ⟨inside | rfl, filed⟩
      · exact absurd filed (apart found inside)
      · rfl
    · intro made
      cases made
      exact ⟨.inr rfl, rfl⟩
  · next other =>
    rw [h.group?_eq_some_iff]
    constructor
    · rintro ⟨inside | rfl, filed⟩
      · exact ⟨inside, filed⟩
      · exact absurd filed other
    · rintro ⟨inside, filed⟩
      exact ⟨.inl inside, filed⟩

/-- Counting an event keeps the keys. -/
theorem keys_recorded (h : m.Keyed) {e : NewEvent} (found : m.groupById? e.group = some g)
    (seenAt : Instant) (total count : Int) :
    ((m.addEvent e).2.replaceGroup (g.counted seenAt total count)).keys = m.keys := by
  show (m.groups.map _).map Group.key = m.groups.map Group.key
  rw [List.map_map]
  refine List.map_congr_left fun old inside => ?_
  simp only [Function.comp_apply, Group.counted_id]
  split
  · next same => rw [Group.counted_key, h.eq_of_id inside (mem_of_groupById? found) same]
  · rfl

/-- The group that counts an event is found by its key, and all others as before. -/
theorem group?_recorded (h : m.Keyed) {e : NewEvent} (found : m.groupById? e.group = some g)
    (seenAt : Instant) (total count : Int) :
    ((m.addEvent e).2.replaceGroup (g.counted seenAt total count)).group? key =
      if g.key = key then some (g.counted seenAt total count) else m.group? key := by
  show (m.index.lookup key).bind _ = _
  have filed : m.index.lookup g.key = some e.group :=
    (h.index_iff _ _).2 (files_of_groupById? found)
  by_cases same : g.key = key
  · subst same
    rw [if_pos rfl, filed]
    exact (groupById?_recorded found seenAt total count e.group).trans (if_pos rfl)
  · rw [if_neg same]
    show _ = (m.index.lookup key).bind m.groupById?
    refine Option.bind_congr fun id told => ?_
    rw [groupById?_recorded found seenAt total count id, if_neg]
    rintro rfl
    exact same (h.key_of_files ((h.index_iff _ _).1 told) found)

end Keyed

theorem keyed_after (commands : List Command) : (empty.after commands).Keyed :=
  after_induction .empty (fun _ c h => h.perform c) commands

end Memory

/-! ## Occurrences -/

/-- What an event told, without the numbers that the store gave it. -/
def Event.occurrence (e : Event) : NewEvent := { e.toNewEvent with group := 0 }

/-- What a group counts: its events, their milliseconds, and how many told them. -/
def Group.counters (g : Group) : Int × Int × Int :=
  (g.timesSeen, g.timeSpentTotal, g.timeSpentCount)

/-- The counters of a group that has seen these occurrences. -/
def countersOf (occurrences : List NewEvent) : Int × Int × Int :=
  let spent := occurrences.filterMap NewEvent.timeSpent
  (occurrences.length, spent.sum, spent.length)

theorem countersOf_perm {a b : List NewEvent} (same : a.Perm b) : countersOf a = countersOf b := by
  have spent := same.filterMap NewEvent.timeSpent
  simp only [countersOf, same.length_eq, spent.sum_eq, spent.length_eq]

theorem Group.Tallies.counters_eq {g : Group} {rows : List Event} (h : g.Tallies rows) :
    g.counters = countersOf (rows.map Event.occurrence) := by
  have spent : (rows.map Event.occurrence).filterMap NewEvent.timeSpent = timesSpent rows := by
    rw [List.filterMap_map]
    rfl
  rw [Group.counters, countersOf, spent, List.length_map, h.seen, h.count, h.total]

namespace Memory

/-- What the events of a key told, the oldest first. -/
def occurrences (m : Memory) (key : Key) : List NewEvent :=
  ((m.group? key).elim [] fun g => m.listEvents g.id).map Event.occurrence

namespace Keyed

variable {m : Memory} {key : Key} {g : Group}

/-- The counters of a key's group are those of its occurrences. -/
theorem counters_eq (h : m.Keyed) (key : Key) :
    (m.group? key).map Group.counters =
      if key ∈ m.keys then some (countersOf (m.occurrences key)) else none := by
  cases found : m.group? key with
  | none =>
    rw [if_neg]
    · rfl
    · rw [← h.isSome_group?_iff, found]
      exact Bool.false_ne_true
  | some g =>
    obtain ⟨inside, filed⟩ := h.group?_eq_some_iff.1 found
    have member : key ∈ m.keys := List.mem_map.2 ⟨g, inside, filed⟩
    rw [if_pos member, Option.map_some, occurrences, found, (h.tallies g inside).counters_eq]
    rfl

theorem occurrences_addGroup (h : m.Keyed) {g : NewGroup} (new : m.group? g.key = none) :
    (m.addGroup g).2.occurrences key = m.occurrences key := by
  rw [occurrences, h.group?_addGroup new]
  split
  · next same =>
    subst same
    have none : m.listEvents (m.addGroup g).1.id = [] := h.listEvents_eq_nil (Int.lt_succ _)
    show (m.listEvents (m.addGroup g).1.id).map _ = _
    rw [none, occurrences, new]
    rfl
  · rfl

theorem occurrences_recorded (h : m.Keyed) {e : NewEvent} (found : m.groupById? e.group = some g)
    (seenAt : Instant) (total count : Int) :
    ((m.addEvent e).2.replaceGroup (g.counted seenAt total count)).occurrences key =
      m.occurrences key ++ if g.key = key then [{ e with group := 0 }] else [] := by
  have rows (id : Int) :
      ((m.addEvent e).2.replaceGroup (g.counted seenAt total count)).listEvents id =
        m.listEvents id ++ if e.group = id then [(m.addEvent e).1] else [] :=
    m.listEvents_addEvent e id
  rw [occurrences, h.group?_recorded found]
  split
  · next same =>
    have here : m.group? key = some g :=
      h.group?_eq_some_iff.2 ⟨mem_of_groupById? found, same⟩
    have named : g.id = e.group := id_of_groupById? found
    rw [Option.elim_some, rows, Group.counted_id, named, if_pos rfl, List.map_append, occurrences,
      here, Option.elim_some, named]
    rfl
  · next other =>
    rw [List.append_nil, occurrences]
    cases told : m.group? key with
    | none => rfl
    | some g' =>
      obtain ⟨inside, rfl⟩ := h.group?_eq_some_iff.1 told
      have apart : e.group ≠ g'.id := fun same =>
        other (h.key_of_files (same ▸ files_of_mem inside) found)
      rw [Option.elim_some, Option.elim_some, rows, if_neg apart, List.append_nil]

end Keyed

end Memory

end ErrorIntake.Ledger
