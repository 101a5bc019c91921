import ErrorIntake.Ledger.Event
import ErrorIntake.Proofs.Submission.Data

/-!
# Snapshots

What is stored with an event is one table: the data of its report, and beside them tags and extra
under keys of their own.  These two keys are known fields, and no known field is ever among the data,
so nothing is overwritten and the parts can be told from the whole.
-/

namespace ErrorIntake

open Json (Value)

/-! ## The parts of a snapshot -/

namespace Report

/-- Neither of the keys that a snapshot adds is among the data. -/
def IsApart (r : Report) : Prop := "tags" ∉ r.data.keys ∧ "extra" ∉ r.data.keys

/-- What a snapshot has beside the data. -/
def sections (r : Report) : List (String × Value) :=
  (if r.tags.isEmpty then [] else [("tags", tagPairs r.tags)]) ++
    (if r.extra.isEmpty then [] else [("extra", .ofTable r.extra)])

theorem get?_snapshot (r : Report) (key : String) :
    r.snapshot.get? key =
      if r.extra.isEmpty = false ∧ key = "extra" then some (.ofTable r.extra)
      else if r.tags.isEmpty = false ∧ key = "tags" then some (tagPairs r.tags)
      else r.data.get? key := by
  unfold snapshot
  cases r.tags.isEmpty <;> cases r.extra.isEmpty <;> simp

theorem tagPairs_injective {tags tags' : Table String} (same : tagPairs tags = tagPairs tags') :
    tags = tags' := by
  have pairs := Value.array.inj same
  refine Table.ext ((List.map_injective_iff.2 fun e e' same => ?_) pairs)
  simpa [Prod.ext_iff] using same

theorem ofTable_injective {t t' : Table Value} (same : Value.ofTable t = .ofTable t') : t = t' :=
  Table.ext (Value.object.inj same)

variable {r r' : Report}

theorem get?_snapshot_tags_iff (apart : r.IsApart) {v : Value} :
    r.snapshot.get? "tags" = some v ↔ r.tags ≠ ∅ ∧ v = tagPairs r.tags := by
  have absent : r.data.get? "tags" = none := Table.get?_eq_none_iff.2 apart.1
  rw [get?_snapshot, absent, ← Table.isEmpty_eq_false_iff]
  cases r.tags.isEmpty <;> simp [@eq_comm _ v]

theorem get?_snapshot_extra_iff (apart : r.IsApart) {v : Value} :
    r.snapshot.get? "extra" = some v ↔ r.extra ≠ ∅ ∧ v = .ofTable r.extra := by
  have absent : r.data.get? "extra" = none := Table.get?_eq_none_iff.2 apart.2
  rw [get?_snapshot, absent, ← Table.isEmpty_eq_false_iff]
  cases r.extra.isEmpty <;> simp [@eq_comm _ v]

/-- A snapshot has the entries of the data and its own sections, each once. -/
theorem entries_snapshot_perm (apart : r.IsApart) :
    r.snapshot.entries.Perm (r.sections ++ r.data.entries) := by
  have tagged (value : Value) := Table.entries_insert_perm apart.1 value
  have widened (value : Value) := Table.entries_insert_perm apart.2 value
  unfold snapshot sections
  cases r.tags.isEmpty <;> cases r.extra.isEmpty
  · have new : "extra" ∉ (r.data.insert "tags" (tagPairs r.tags)).keys := by
      rw [← Table.get?_eq_none_iff, Table.get?_insert, if_neg (by decide), Table.get?_eq_none_iff]
      exact apart.2
    exact ((Table.entries_insert_perm new _).trans ((tagged _).cons _)).trans (.swap _ _ _)
  · exact tagged _
  · exact widened _
  · exact .refl _

/-- The data are what the snapshot has under the other keys. -/
theorem data_eq_erase_snapshot (apart : r.IsApart) :
    r.data = (r.snapshot.erase "tags").erase "extra" := by
  refine Table.ext_get? fun key => ?_
  rw [Table.get?_erase, Table.get?_erase, get?_snapshot]
  by_cases isExtra : key = "extra"
  · rw [if_pos isExtra, isExtra, Table.get?_eq_none_iff]
    exact apart.2
  · by_cases isTags : key = "tags"
    · rw [if_neg isExtra, if_pos isTags, isTags, Table.get?_eq_none_iff]
      exact apart.1
    · simp [isExtra, isTags]

/-- Two parts are the same if the sections that are made of them are. -/
theorem part_eq {α : Type} {part part' : Table α} {f : Table α → Value}
    (injective : ∀ {a b}, f a = f b → a = b) {here here' : Option Value} (same : here = here')
    (tells : ∀ v, here = some v ↔ part ≠ ∅ ∧ v = f part)
    (tells' : ∀ v, here' = some v ↔ part' ≠ ∅ ∧ v = f part') : part = part' := by
  subst same
  by_cases empty : part = ∅
  · by_contra other
    have filled : part' ≠ ∅ := fun empty' => other (empty.trans empty'.symm)
    exact ((tells _).1 ((tells' _).2 ⟨filled, rfl⟩)).1 empty
  · exact injective ((tells' _).1 ((tells _).2 ⟨empty, rfl⟩)).2

theorem parts_eq_of_snapshot_eq (apart : r.IsApart) (apart' : r'.IsApart)
    (same : r.snapshot = r'.snapshot) :
    r.data = r'.data ∧ r.tags = r'.tags ∧ r.extra = r'.extra := by
  refine ⟨?_, ?_, ?_⟩
  · rw [data_eq_erase_snapshot apart, data_eq_erase_snapshot apart', same]
  · exact part_eq tagPairs_injective (congrArg (Table.get? · "tags") same)
      (fun _ => get?_snapshot_tags_iff apart) fun _ => get?_snapshot_tags_iff apart'
  · exact part_eq ofTable_injective (congrArg (Table.get? · "extra") same)
      (fun _ => get?_snapshot_extra_iff apart) fun _ => get?_snapshot_extra_iff apart'

end Report

/-! ## Reports that were read -/

namespace Submission

open Interface (Registry)
open Ledger (NewEvent)

/-- The report was read by version 2.0 with the interfaces that every client knows, from an unpacked
    body or from a whole request. -/
inductive IsRead (r : Report) : Prop
  | body (occasion : Occasion) (body : Bytes) (parsed : Parsed)
      (accepted : (Protocol.standard .standard).parse occasion body = .ok parsed)
      (member : r ∈ parsed.reports)
  | request (occasion : Occasion) (e : Envelope) (reports : List Report)
      (accepted : ((Protocol.standard .standard).parseEnvelope occasion e).result = .ok reports)
      (member : r ∈ reports)

/-- No known field is among the data of a payload, unless a descriptor has its name. -/
theorem name_notMem_dataOf {interfaces : Registry} {payload : Payload}
    (once : (interfaces.descriptors.map Interface.Descriptor.id).Nodup) (field : Field)
    (foreign : ∀ d ∈ interfaces.descriptors, d.id ≠ field.name) :
    field.name ∉ (dataOf (interfaces.claim (unknownMembers payload)).1
      (interfaces.claim (unknownMembers payload)).2).keys := by
  have ids := (List.nodup_append.1 (nodup_claims_left once (unknownMembers payload))).1
  rw [Table.mem_keys_iff]
  rintro ⟨v, found⟩
  rcases (get?_dataOf ids).1 found with ⟨raw, isLeft, -⟩ | ⟨-, c, member, same, -⟩
  · have there := Registry.get?_of_left isLeft
    rw [get?_unknownMembers, if_pos (List.mem_map_of_mem field.mem_all)] at there
    cases there
  · obtain ⟨d, listed, raw, -, -, claimed⟩ := Registry.claim_origin member
    refine foreign d listed ?_
    rw [← same, claimed, Interface.Descriptor.claim_id]

theorem isApart_of_parse {occasion : Occasion} {body : Bytes} {parsed : Parsed}
    (accepted : (Protocol.standard .standard).parse occasion body = .ok parsed) :
    ∀ r ∈ parsed.reports, r.IsApart := by
  have once : (Registry.standard.descriptors.map Interface.Descriptor.id).Nodup := by
    decide +kernel
  have foreign : ∀ d ∈ Registry.standard.descriptors,
      d.id ≠ Field.tags.name ∧ d.id ≠ Field.extra.name := by decide +kernel
  obtain ⟨payload, made, logs, rfl, -, parts⟩ := exists_readFrom_of_parse accepted
  intro r member
  rw [List.mem_singleton.1 member, Report.IsApart, parts.data]
  exact ⟨name_notMem_dataOf once .tags fun d listed => (foreign d listed).1,
    name_notMem_dataOf once .extra fun d listed => (foreign d listed).2⟩

theorem IsRead.isApart {r : Report} (read : IsRead r) : r.IsApart := by
  cases read with
  | body occasion body parsed accepted member => exact isApart_of_parse accepted r member
  | request occasion e reports accepted member =>
    obtain ⟨body, parsed, -, isParsed, rfl⟩ := Protocol.exists_parsed_of_result accepted
    obtain ⟨raw, inside, rfl⟩ := List.mem_map.1 member
    exact isApart_of_parse isParsed raw inside

/-- The snapshot of a report that was read has every entry of its data unchanged, beside them its
    tags and its extra exactly if there are any, and nothing else; it is what is stored with the
    event.  So the parts can be told from it, and reports with the same snapshot have the same
    parts. -/
theorem snapshot_tells_parts {r r' : Report} (read : IsRead r) (read' : IsRead r') :
    (r.snapshot = r'.snapshot → r.data = r'.data ∧ r.tags = r'.tags ∧ r.extra = r'.extra) ∧
    (∀ key v, r.data.get? key = some v → r.snapshot.get? key = some v) ∧
    (∀ v, r.snapshot.get? "tags" = some v ↔ r.tags ≠ ∅ ∧ v = Report.tagPairs r.tags) ∧
    (∀ v, r.snapshot.get? "extra" = some v ↔ r.extra ≠ ∅ ∧ v = .ofTable r.extra) ∧
    r.snapshot.entries.Perm (r.sections ++ r.data.entries) ∧
    r.data = (r.snapshot.erase "tags").erase "extra" ∧
    ∀ project group, (NewEvent.ofReport r project group).data = .ofTable r.snapshot := by
  have apart := read.isApart
  refine ⟨Report.parts_eq_of_snapshot_eq apart read'.isApart, fun key v found => ?_,
    fun v => Report.get?_snapshot_tags_iff apart, fun v => Report.get?_snapshot_extra_iff apart,
    Report.entries_snapshot_perm apart, Report.data_eq_erase_snapshot apart, fun _ _ => rfl⟩
  have member : (key, v) ∈ r.sections ++ r.data.entries :=
    List.mem_append_right _ (Table.get?_eq_some_iff.1 found)
  exact Table.get?_eq_some_iff.2 ((Report.entries_snapshot_perm apart).mem_iff.2 member)

/-- A body with tags, extra, an interface under an alias and a member that nobody knows. -/
def fullBody : Bytes :=
  Text.toBytes ("\x7b\"tags\":\x7b\"os\":\"mac\"\x7d,\"exception\":\x7b\x7d," ++
    "\"extra\":\x7b\"a\":1\x7d,\"custom\":[2]\x7d")

theorem snapshot_tells_parts_fullBody :
    ∃ r, IsRead r ∧ r.snapshot.keys = ["custom", "extra", "sentry.interfaces.Exception", "tags"] ∧
      r.data = (r.snapshot.erase "tags").erase "extra" ∧
      (r.snapshot.get? "tags").map Value.toText = some "[[\"os\",\"mac\"]]" ∧ r.tags ≠ ∅ := by
  have seen : (((Protocol.standard .standard).parse ⟨.epoch, "e1"⟩ fullBody).toOption.map
      fun parsed => parsed.reports.map fun r =>
        (r.snapshot.keys, (r.snapshot.get? "tags").map Value.toText)) =
      some [(["custom", "extra", "sentry.interfaces.Exception", "tags"],
        some "[[\"os\",\"mac\"]]")] := by
    decide +kernel
  cases accepted : (Protocol.standard .standard).parse ⟨.epoch, "e1"⟩ fullBody with
  | error e =>
    rw [accepted] at seen
    cases seen
  | ok parsed =>
    rw [accepted] at seen
    obtain ⟨r, single, keys⟩ := List.map_eq_singleton_iff.1 (Option.some.inj seen)
    obtain ⟨keys, tagText⟩ := Prod.mk.inj keys
    have read : IsRead r := .body _ _ parsed accepted (single ▸ List.mem_singleton_self r)
    obtain ⟨-, -, tags, -, -, data, -⟩ := snapshot_tells_parts read read
    obtain ⟨v, found, -⟩ := Option.map_eq_some_iff.1 tagText
    exact ⟨r, read, keys, data, tagText, ((tags v).1 found).1⟩

end Submission

end ErrorIntake
