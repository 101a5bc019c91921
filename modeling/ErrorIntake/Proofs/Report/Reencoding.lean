import ErrorIntake.Proofs.Calendar.ReadBack
import ErrorIntake.Proofs.Json.Plain
import ErrorIntake.Proofs.Report.RoundTrip

/-!
# Messages published again

A reader takes a message from whoever wrote it: its members may stand in any order or in an array,
may be left out, and may be spelled in many ways.  What it makes of them is canonical, so that the
report is written and read again unchanged, any number of times, exactly if it is legible.  It is
if no object in the message has the key of embedded texts.
-/

namespace ErrorIntake

open Calendar (Instant)
open Json (Tree Value)

namespace Report

/-! ## The members of a message -/

variable {room : Nat} {t : Tree} {r : Report}

theorem isCanonical_of_object? {table : Table Value} (read : object? room t = some table) :
    ∀ m ∈ table.entries, m.2.Each Value.IsCanonical := by
  cases room with
  | zero => cases read
  | succ room =>
    rw [object?] at read
    exact Tree.table?_spec (fun _ _ => Value.isCanonical_of_ofTree?) read

theorem legible_of_object? {table : Table Value} (plain : t.IsPlain)
    (read : object? (room + 1) t = some table) :
    ∀ m ∈ table.entries, m.2.depth ≤ room ∧ m.2.Each Value.OpensPlainly := by
  intro e he
  rw [object?] at read
  obtain ⟨members, rfl, m, hm, found⟩ := Tree.exists_of_table? read he
  cases plain with
  | object _ inside => exact Value.legible_of_isPlain (inside m hm) found

theorem isInt64_of_ofTree? {p : ProjectId} (read : ProjectId.ofTree? t = some p) :
    IsInt64 p.value := by
  obtain ⟨n, isInt, same⟩ := Option.map_eq_some_iff.1 read
  cases same
  exact Tree.int64?_range isInt

theorem isCanonical_of_instant? {i : Instant} (read : instant? t = some i) : i.IsCanonical := by
  obtain ⟨text, -, read⟩ := Option.bind_eq_some_iff.1 read
  exact Instant.isCanonical_of_ofOffsetText? read

/-- The members of a report that are no plain texts come from members of its message. -/
structure ReadFrom (room : Nat) (members : List (String × Tree)) (r : Report) : Prop where
  project : Tree.optional? (Tree.option? ProjectId.ofTree?) none members "project" = some r.project
  datetime : Tree.required? instant? members "datetime" = some r.datetime
  timeSpent : Tree.optional? (Tree.option? Tree.int64?) none members "time_spent" = some r.timeSpent
  extra : Tree.optional? (object? room) ∅ members "extra" = some r.extra
  data : Tree.optional? (object? room) ∅ members "data" = some r.data

theorem readFrom_of_ofTree? (read : ofTree? (room + 1) t = some r) :
    ∃ members, t.record? memberNames = some members ∧ r.ReadFrom room members := by
  rw [ofTree?] at read
  obtain ⟨members, isRecord, read⟩ := Option.bind_eq_some_iff.1 read
  obtain ⟨eventId, -, read⟩ := Option.bind_eq_some_iff.1 read
  obtain ⟨message, -, read⟩ := Option.bind_eq_some_iff.1 read
  obtain ⟨level, -, read⟩ := Option.bind_eq_some_iff.1 read
  obtain ⟨logger, -, read⟩ := Option.bind_eq_some_iff.1 read
  obtain ⟨serverName, -, read⟩ := Option.bind_eq_some_iff.1 read
  obtain ⟨culprit, -, read⟩ := Option.bind_eq_some_iff.1 read
  obtain ⟨platform, -, read⟩ := Option.bind_eq_some_iff.1 read
  obtain ⟨release, -, read⟩ := Option.bind_eq_some_iff.1 read
  obtain ⟨version, -, read⟩ := Option.bind_eq_some_iff.1 read
  obtain ⟨project, isProject, read⟩ := Option.bind_eq_some_iff.1 read
  obtain ⟨datetime, isDatetime, read⟩ := Option.bind_eq_some_iff.1 read
  obtain ⟨checksum, -, read⟩ := Option.bind_eq_some_iff.1 read
  obtain ⟨timeSpent, isTimeSpent, read⟩ := Option.bind_eq_some_iff.1 read
  obtain ⟨tags, -, read⟩ := Option.bind_eq_some_iff.1 read
  obtain ⟨extra, isExtra, read⟩ := Option.bind_eq_some_iff.1 read
  obtain ⟨data, isData, read⟩ := Option.bind_eq_some_iff.1 read
  cases read
  exact ⟨members, isRecord,
    { project := isProject, datetime := isDatetime, timeSpent := isTimeSpent, extra := isExtra
      data := isData }⟩

/-! ## The report of a message -/

section

variable {members : List (String × Tree)} (parts : r.ReadFrom room members)
include parts

theorem ReadFrom.isCanonical : r.IsCanonical where
  values := by
    have free : ∀ table name, Tree.optional? (object? room) ∅ members name = some table →
        ∀ m ∈ table.entries, m.2.Each Value.IsCanonical := fun table name found =>
      Tree.optional?_spec (p := fun table : Table Value =>
        ∀ m ∈ table.entries, m.2.Each Value.IsCanonical)
        (fun _ _ => isCanonical_of_object?) (by simp) found
    exact List.forall_mem_append.2 ⟨free _ _ parts.extra, free _ _ parts.data⟩
  project :=
    Tree.optional?_spec (p := fun project : Option ProjectId =>
      ∀ p, project = some p → IsInt64 p.value)
      (fun _ _ => Tree.option?_spec (p := fun p : ProjectId => IsInt64 p.value)
        fun _ _ => isInt64_of_ofTree?) (by simp) parts.project
  timeSpent :=
    Tree.optional?_spec (p := fun timeSpent : Option Int => ∀ ms, timeSpent = some ms → IsInt64 ms)
      (fun _ _ => Tree.option?_spec (p := IsInt64) fun _ _ => Tree.int64?_range) (by simp)
      parts.timeSpent

theorem ReadFrom.readsBack (doubles : ∀ m ∈ r.free, m.2.Each Value.ReadsBack) : r.ReadsBack where
  doubles := doubles
  datetime := Instant.ofOffsetText?_toText
    (Tree.required?_spec (fun _ _ => isCanonical_of_instant?) parts.datetime)

end

/-- A message in which no object has the key of embedded texts gives a legible report. -/
theorem isLegible_of_isPlain (plain : t.IsPlain) (read : ofTree? (innerRoom + 2) t = some r) :
    r.IsLegible := by
  obtain ⟨members, isRecord, parts⟩ := readFrom_of_ofTree? read
  have inside := Tree.isPlain_of_record? plain isRecord
  have free : ∀ table name, Tree.optional? (object? (innerRoom + 1)) ∅ members name = some table →
      ∀ m ∈ table.entries, m.2.depth ≤ innerRoom ∧ m.2.Each Value.OpensPlainly := by
    intro table name found
    unfold Tree.optional? at found
    split at found
    · next t stands =>
      obtain ⟨before, after, rfl, -⟩ := List.lookup_eq_some_iff.1 stands
      exact legible_of_object? (inside (name, t) (by simp)) found
    · cases found
      simp
  exact List.forall_mem_append.2 ⟨free _ _ parts.extra, free _ _ parts.data⟩

end Report

namespace EventQueue

/-- A report that is written again and again, each time with a level of compression of its own, and
    read each time. -/
def republish (z : Zlib.Compressor) (levels : List Nat) (r : Report) : Option Report :=
  levels.foldlM (fun r level => decode? (encode z level r)) r

/-- A report that was read off a message is unchanged by being written again if and only if it is
    legible, and then as often as it is written.  It is legible if no object in the message has the
    key of embedded texts.  The texts of its doubles are taken to read back. -/
theorem republished_iff_legible (z : Zlib.Compressor) {text : String} {r : Report}
    (read : Report.ofText? text = some r)
    (doubles : ∀ m ∈ r.free, m.2.Each Value.ReadsBack) :
    (∀ level, decode? (encode z level r) = some r ↔ r.IsLegible) ∧
      (r.IsLegible → ∀ levels, republish z levels r = some r) ∧
      ((∀ t, Tree.ofText? text = some t → t.IsPlain) → r.IsLegible) := by
  obtain ⟨t, isTree, isReport⟩ := Option.bind_eq_some_iff.1 read
  have room : Json.nestingLimit = Report.innerRoom + 2 := rfl
  rw [room] at isReport
  obtain ⟨members, -, parts⟩ := Report.readFrom_of_ofTree? isReport
  have once : ∀ level, decode? (encode z level r) = some r ↔ r.IsLegible :=
    decode?_encode parts.isCanonical (parts.readsBack doubles) z
  refine ⟨once, fun legible levels => ?_, fun plain =>
    Report.isLegible_of_isPlain (plain t isTree) isReport⟩
  induction levels with
  | nil => rfl
  | cons level rest ih =>
    rw [republish, List.foldlM_cons, (once level).2 legible]
    exact ih

/-- A message whose extra holds an object in which the key of embedded texts stands last. -/
def lateEmbedding : String :=
  "\x7b\"event_id\":\"e\",\"message\":\"m\",\"level\":40,\"logger\":\"root\"," ++
  "\"server_name\":\"\",\"culprit\":\"\",\"platform\":\"other\",\"release\":\"\",\"version\":\"2.0\"," ++
  "\"datetime\":\"2024-01-01T00:00:00Z\",\"checksum\":\"c\"," ++
  "\"extra\":\x7b\"k\":\x7b\"b\":1,\"$serde_json::private::RawValue\":\"2\"\x7d\x7d\x7d"

/-- It is read, and what was read does not come back from being written again. -/
theorem republished_iff_legible_lateEmbedding :
    ∃ r : Report, Report.ofText? lateEmbedding = some r ∧
      (∀ m ∈ r.free, m.2.Each Value.ReadsBack) ∧
        ∀ z level, decode? (encode z level r) ≠ some r := by
  have checked : (Report.ofText? lateEmbedding).map (fun r =>
      decide ((∀ m ∈ r.free, m.2.Each Value.ReadsBack) ∧ ¬ r.IsLegible)) = some true := by
    decide +kernel
  obtain ⟨r, read, holds⟩ := Option.map_eq_some_iff.1 checked
  obtain ⟨doubles, illegible⟩ := of_decide_eq_true holds
  exact ⟨r, read, doubles, fun z level same =>
    illegible (((republished_iff_legible z read doubles).1 level).1 same)⟩

end EventQueue

end ErrorIntake
