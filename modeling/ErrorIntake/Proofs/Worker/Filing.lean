import ErrorIntake.Proofs.Ledger.Keys
import ErrorIntake.Worker.Processing

/-!
# How processing files a report

What the two calls of a processing do to a store in memory: the first finds or makes the group under
the key of the report, and the second adds the report's row to that group.
-/

namespace ErrorIntake

open Calendar (Instant)

/-- The key of the group of a report, if the report names a project. -/
def Report.key? (r : Report) : Option Ledger.Key := r.project.map fun p => ⟨p, r.checksum⟩

namespace Worker

open Ledger (Group Key Memory NewEvent NewGroup)

/-- The group that was found is filed under the key of the report. -/
def Found.IsFiled (f : Found) (r : Report) (m : Memory) : Prop :=
  r.project = some f.project ∧ m.Files ⟨f.project, r.checksum⟩ f.group.id

theorem Found.IsFiled.key? {f : Found} {r : Report} {m : Memory} (h : f.IsFiled r m) :
    r.key? = some ⟨f.project, r.checksum⟩ := by
  rw [Report.key?, h.1]
  rfl

/-- The first call fails without a project, and otherwise finds the group of the report's key or
    makes it. -/
theorem resolve_memory (r : Report) (now : Instant) (m : Memory) :
    (r.project = none ∧ resolve r now m = (.error (noProject r), m)) ∨
    ∃ project, r.project = some project ∧
      ((∃ g, m.group? ⟨project, r.checksum⟩ = some g ∧
        resolve r now m = (.ok ⟨project, now, g, false⟩, m)) ∨
      (m.group? ⟨project, r.checksum⟩ = none ∧
        resolve r now m =
          (.ok ⟨project, now, (m.addGroup (.ofReport r project now)).1, true⟩,
            (m.addGroup (.ofReport r project now)).2))) := by
  unfold resolve
  cases named : r.project with
  | none => exact .inl ⟨rfl, rfl⟩
  | some project =>
    refine .inr ⟨project, rfl, ?_⟩
    rcases m.getOrCreateGroup_cases (.ofReport r project now) with ⟨g, found, made⟩ | ⟨new, made⟩
    · refine .inl ⟨g, found, ?_⟩
      simp only [Ledger.EventStore.getOrCreateGroup, made]
      rfl
    · refine .inr ⟨new, ?_⟩
      simp only [Ledger.EventStore.getOrCreateGroup, made]
      rfl

/-- What hooks see of a report whose row is added to a store and counted in its group. -/
def Found.seen (f : Found) (r : Report) (m : Memory) (counted : Group) : Processed :=
  f.processed (m.addEvent (.ofReport r f.project f.group.id)).1 counted

/-- The second call fails if the milliseconds of the report do not fit into its group, and else adds
    the row of the report and counts it there. -/
theorem record_of_found (hooks : List Hook) {r : Report} {f : Found} {m : Memory} {g : Group}
    (found : m.groupById? f.group.id = some g) :
    (g.addTimeSpent? r.timeSpent = none ∧ ∃ e, record hooks r f m = (.error e, m, {})) ∨
    ∃ total count, g.addTimeSpent? r.timeSpent = some (total, count) ∧
      record hooks r f m =
        (.ok ((f.seen r m (g.counted f.now total count)).outcome
            (fire hooks (f.seen r m (g.counted f.now total count)))),
          (m.addEvent (.ofReport r f.project f.group.id)).2.replaceGroup
            (g.counted f.now total count),
          .ofCalls (fire hooks (f.seen r m (g.counted f.now total count)))) := by
  unfold record
  rcases m.recordEvent_cases (.ofReport r f.project f.group.id) f.now with
    ⟨missing, _⟩ | ⟨g', found', sum, made⟩ | ⟨g', total, count, found', sum, made⟩
  · change m.groupById? f.group.id = none at missing
    rw [found] at missing
    cases missing
  · change m.groupById? f.group.id = some g' at found'
    rw [found] at found'
    cases found'
    refine .inl ⟨sum, .internal s!"time_spent total overflows for group {g.id}", ?_⟩
    simp only [Ledger.EventStore.recordEvent, made]
  · change m.groupById? f.group.id = some g' at found'
    rw [found] at found'
    cases found'
    refine .inr ⟨total, count, sum, ?_⟩
    simp only [Ledger.EventStore.recordEvent, made]
    rfl

/-- The second call fails and leaves the store alone, or adds the row of the report and counts it in
    the group that was found. -/
theorem record_memory (hooks : List Hook) (r : Report) (f : Found) (m : Memory) :
    (∃ e, record hooks r f m = (.error e, m, {})) ∨
    ∃ g total count o shown, m.groupById? f.group.id = some g ∧
      g.addTimeSpent? r.timeSpent = some (total, count) ∧
      record hooks r f m =
        (.ok o, (m.addEvent (.ofReport r f.project f.group.id)).2.replaceGroup
          (g.counted f.now total count), shown) ∧
      o.event = (m.addEvent (.ofReport r f.project f.group.id)).1 ∧ o.isNewGroup = f.isNew := by
  cases found : m.groupById? f.group.id with
  | none =>
    rcases m.recordEvent_cases (.ofReport r f.project f.group.id) f.now with
      ⟨_, made⟩ | ⟨g, found', _⟩ | ⟨g, _, _, found', _⟩
    · refine .inl ⟨.groupNotFound f.group.id, ?_⟩
      simp only [record, Ledger.EventStore.recordEvent, made]
      rfl
    all_goals
      change m.groupById? f.group.id = some g at found'
      rw [found] at found'
      cases found'
  | some g =>
    rcases record_of_found hooks (r := r) found with ⟨_, e, made⟩ | ⟨total, count, sum, made⟩
    · exact .inl ⟨e, made⟩
    · exact .inr ⟨g, total, count, _, _, rfl, sum, made, rfl, rfl⟩

section

variable {r : Report} {now : Instant} {hooks : List Hook} {m m' : Memory} {f : Found} {o : Outcome}
  {shown : Trace} {err : StoreError}

/-- The first call files the group that it gives, and nothing else that was not filed. -/
theorem resolve_files (keyed : m.Keyed) (made : resolve r now m = (.ok f, m')) :
    m'.Keyed ∧ f.IsFiled r m' ∧ m'.events = m.events ∧ ∀ key id,
      m'.Files key id ↔ m.Files key id ∨ r.key? = some key ∧ f.group.id = id := by
  rcases resolve_memory r now m with
    ⟨_, other⟩ | ⟨project, named, ⟨g, found, other⟩ | ⟨new, other⟩⟩
  · rw [other] at made
    cases made
  · rw [other] at made
    cases made
    obtain ⟨inside, filed⟩ := keyed.group?_eq_some_iff.1 found
    have there : Found.IsFiled ⟨project, now, g, false⟩ r m := ⟨named, g, inside, rfl, filed⟩
    refine ⟨keyed, there, rfl, fun key id => ⟨.inl, ?_⟩⟩
    rintro (stands | ⟨told, rfl⟩)
    · exact stands
    · rw [there.key?] at told
      cases told
      exact there.2
  · rw [other] at made
    cases made
    have there : Found.IsFiled ⟨project, now, (m.addGroup (.ofReport r project now)).1, true⟩ r
        (m.addGroup (.ofReport r project now)).2 :=
      ⟨named, Memory.files_addGroup.2 (.inr ⟨rfl, rfl⟩)⟩
    refine ⟨keyed.addGroup new, there, rfl, fun key id => ?_⟩
    rw [Memory.files_addGroup, there.key?, Option.some.injEq, and_comm]
    rfl

theorem resolve_of_error (made : resolve r now m = (.error err, m')) : m' = m := by
  rcases resolve_memory r now m with ⟨_, other⟩ | ⟨_, _, ⟨_, _, other⟩ | ⟨_, other⟩⟩
  · rw [other] at made
    cases made
    rfl
  · rw [other] at made
    cases made
  · rw [other] at made
    cases made

/-- The second call adds one row, which is that of the report, and files nothing. -/
theorem record_files (keyed : m.Keyed) (made : record hooks r f m = (.ok o, m', shown)) :
    m'.Keyed ∧ (∀ key id, m'.Files key id ↔ m.Files key id) ∧ m'.events = m.events ++ [o.event] ∧
      o.event.toNewEvent = .ofReport r f.project f.group.id := by
  rcases record_memory hooks r f m with
    ⟨_, other⟩ | ⟨g, total, count, o', shown', found, sum, other, row, -⟩
  · rw [other] at made
    cases made
  · rw [other] at made
    cases made
    refine ⟨keyed.recorded found sum f.now, ?_, ?_, ?_⟩
    · intro key id
      exact keyed.files_recorded found f.now total count
    · rw [row]
      rfl
    · rw [row]
      rfl

theorem record_of_error (made : record hooks r f m = (.error err, m', shown)) : m' = m := by
  rcases record_memory hooks r f m with ⟨_, other⟩ | ⟨_, _, _, _, _, _, _, other, _⟩
  · rw [other] at made
    cases made
    rfl
  · rw [other] at made
    cases made

end

end Worker

end ErrorIntake
