import ErrorIntake.EventQueue.Payload
import ErrorIntake.Proofs.Json.Decode
import ErrorIntake.Proofs.Json.Meaning

/-!
# Reports read back

A report crosses a queue as the text of one object.  Its reader follows all containers of that one
text, and takes objects for embedded texts that open like them.  So a report comes back unchanged
exactly if it is legible, given that its doubles and its time are read back.
-/

namespace ErrorIntake

open Calendar (Instant)
open Json (Tree Value)

namespace Report

open Json.Tree (bind_of_some text?_tree integer?_tree int64?_tree)

variable {r : Report}

/-! ## What can be written and read -/

/-- The free values of a report stand in its text behind two opening braces. -/
def innerRoom : Nat := Json.nestingLimit - 2

/-- The free values: what stands in extra and data. -/
def free (r : Report) : List (String × Value) := r.extra.entries ++ r.data.entries

/-- What holds of every report that came of a submission. -/
structure IsCanonical (r : Report) : Prop where
  values : ∀ m ∈ r.free, m.2.Each Value.IsCanonical
  project : ∀ p, r.project = some p → IsInt64 p.value
  timeSpent : ∀ ms, r.timeSpent = some ms → IsInt64 ms

/-- The texts of the doubles and of the time in a report stand for them. -/
structure ReadsBack (r : Report) : Prop where
  doubles : ∀ m ∈ r.free, m.2.Each Value.ReadsBack
  datetime : Instant.ofOffsetText? r.datetime.toText = some r.datetime

instance (r : Report) : Decidable r.ReadsBack :=
  decidable_of_iff ((∀ m ∈ r.free, m.2.Each Value.ReadsBack) ∧
      Instant.ofOffsetText? r.datetime.toText = some r.datetime)
    ⟨fun h => ⟨h.1, h.2⟩, fun h => ⟨h.doubles, h.datetime⟩⟩

/-- The free values are nested no deeper than a reader of the whole report follows them, and none of
    their objects opens like an embedded text. -/
def IsLegible (r : Report) : Prop :=
  ∀ m ∈ r.free, m.2.depth ≤ innerRoom ∧ m.2.Each Value.OpensPlainly

instance (r : Report) : Decidable r.IsLegible :=
  inferInstanceAs (Decidable (∀ m ∈ r.free, _ ∧ _))

/-! ## Members -/

theorem level?_tree (level : Level) :
    Level.ofTree? (Value.ofInt level.code).tree = some level := by
  have small : IsInt32 level.code := by cases level <;> decide
  have spelled : Json.Number.IsSpelled level.code := ⟨by omega, by omega⟩
  rw [Level.ofTree?, Tree.int32?, integer?_tree spelled, Option.filter_some,
    if_pos (decide_eq_true small), Option.bind_some, Level.ofCode?_code]

theorem project?_tree {project : Option ProjectId}
    (h : ∀ p, project = some p → IsInt64 p.value) :
    Tree.option? ProjectId.ofTree? (Value.ofOption (fun p => .ofInt p.value) project).tree =
      some project := by
  cases project with
  | none => rfl
  | some p =>
    show (ProjectId.ofTree? (Value.ofInt p.value).tree).map some = _
    rw [ProjectId.ofTree?, int64?_tree (h p rfl)]
    rfl

theorem timeSpent?_tree {timeSpent : Option Int} (h : ∀ ms, timeSpent = some ms → IsInt64 ms) :
    Tree.option? Tree.int64? (Value.ofOption .ofInt timeSpent).tree = some timeSpent := by
  cases timeSpent with
  | none => rfl
  | some ms =>
    show (Tree.int64? (Value.ofInt ms).tree).map some = _
    rw [int64?_tree (h ms rfl)]
    rfl

theorem tags?_tree (tags : Table String) :
    Tree.table? Tree.text? (Value.ofTexts tags).tree = some tags :=
  (Tree.table?_tree Tree.text? Value.string tags).2 fun e _ => text?_tree e.2

theorem object?_tree {t : Table Value} (canonical : ∀ m ∈ t.entries, m.2.Each Value.IsCanonical)
    (doubles : ∀ m ∈ t.entries, m.2.Each Value.ReadsBack) (room : Nat) :
    object? (room + 1) (Value.ofTable t).tree = some t ↔
      ∀ m ∈ t.entries, m.2.depth ≤ room ∧ m.2.Each Value.OpensPlainly := by
  have same : Value.ofTable t = .object (t.entries.map fun e => (e.1, id e.2)) := by
    simp [Value.ofTable]
  rw [object?, same, Tree.table?_tree]
  exact forall₂_congr fun m hm => Value.ofTree?_tree room (canonical m hm) (doubles m hm)

/-- The trees of the members under their names. -/
def named (r : Report) : List (String × Tree) := r.members.map fun m => (m.1, m.2.tree)

theorem record?_members (r : Report) :
    (Value.object r.members).tree.record? memberNames = some r.named := by
  have keys : (Value.memberTrees r.members).mapM
      (fun m => m.1.text?.map fun name => (name, m.2)) = some r.named :=
    Tree.named_memberTrees r.members
  have once : (memberNames.all fun name => Tree.occurrences r.named name ≤ 1) = true := by
    simp [memberNames, Tree.occurrences, named, members]
  rw [Value.tree, Tree.record?]
  simp only [keys, Option.bind_eq_bind, Option.bind_some]
  rw [if_pos once]

theorem lookup_named : ∀ m ∈ r.members, r.named.lookup m.1 = some m.2.tree := by
  simp [named, members, List.lookup_cons]

variable {α : Type} {name : String} {v : Value}

/-- What stands under the name of a member is the text of its value. -/
theorem required?_named (member : (name, v) ∈ r.members) (decode : Tree → Option α) :
    Tree.required? decode r.named name = decode v.tree := by
  unfold Tree.required?
  rw [lookup_named _ member]

theorem optional?_named (member : (name, v) ∈ r.members) (decode : Tree → Option α) (default : α) :
    Tree.optional? decode default r.named name = decode v.tree := by
  unfold Tree.optional?
  rw [lookup_named _ member]

/-- All but the free values of a report is read back. -/
theorem ofTree?_members (canonical : r.IsCanonical) (reads : r.ReadsBack) (room : Nat) :
    ofTree? (room + 1) (Value.object r.members).tree =
      (object? room (Value.ofTable r.extra).tree).bind fun extra =>
        (object? room (Value.ofTable r.data).tree).bind fun data =>
          some { r with extra, data } := by
  have text : ∀ name s, (name, Value.string s) ∈ r.members →
      Tree.required? Tree.text? r.named name = some s := by
    intro name s member
    rw [required?_named member, text?_tree]
  have level : Tree.required? Level.ofTree? r.named "level" = some r.level := by
    rw [required?_named (v := .ofInt r.level.code) (by simp [members]), level?_tree]
  have project : Tree.optional? (Tree.option? ProjectId.ofTree?) none r.named "project" =
      some r.project := by
    rw [optional?_named (by simp [members]; rfl), project?_tree canonical.project]
  have datetime : Tree.required? instant? r.named "datetime" = some r.datetime := by
    rw [required?_named (v := .string r.datetime.toText) (by simp [members]), instant?, text?_tree,
      Option.bind_some, reads.datetime]
  have timeSpent : Tree.optional? (Tree.option? Tree.int64?) none r.named "time_spent" =
      some r.timeSpent := by
    rw [optional?_named (v := .ofOption .ofInt r.timeSpent) (by simp [members]),
      timeSpent?_tree canonical.timeSpent]
  have tags : Tree.optional? (Tree.table? Tree.text?) ∅ r.named "tags" = some r.tags := by
    rw [optional?_named (v := .ofTexts r.tags) (by simp [members]), tags?_tree]
  have extra : Tree.optional? (object? room) ∅ r.named "extra" =
      object? room (Value.ofTable r.extra).tree :=
    optional?_named (by simp [members]) _ _
  have data : Tree.optional? (object? room) ∅ r.named "data" =
      object? room (Value.ofTable r.data).tree :=
    optional?_named (by simp [members]) _ _
  rw [ofTree?, bind_of_some (record?_members r),
    bind_of_some (text "event_id" r.eventId (by simp [members])),
    bind_of_some (text "message" r.message (by simp [members])), bind_of_some level,
    bind_of_some (text "logger" r.logger (by simp [members])),
    bind_of_some (text "server_name" r.serverName (by simp [members])),
    bind_of_some (text "culprit" r.culprit (by simp [members])),
    bind_of_some (text "platform" r.platform (by simp [members])),
    bind_of_some (text "release" r.release (by simp [members])),
    bind_of_some (text "version" r.version (by simp [members])), bind_of_some project,
    bind_of_some datetime, bind_of_some (text "checksum" r.checksum (by simp [members])),
    bind_of_some timeSpent, bind_of_some tags, extra, data]
  rfl

/-! ## The text of a report -/

theorem numbersReadBack (canonical : r.IsCanonical) (reads : r.ReadsBack) :
    (Value.object r.members).Each Value.NumberReadsBack := by
  have leaf : ∀ {n : Int}, IsInt64 n → Json.Number.IsSpelled n := fun h => ⟨h.1, by omega⟩
  have level : (Value.ofInt r.level.code).Each Value.NumberReadsBack :=
    Value.each_number.2 (leaf (by cases r.level <;> decide))
  have project : (Value.ofOption (fun p => .ofInt p.value) r.project).Each Value.NumberReadsBack := by
    cases named : r.project with
    | none => exact Value.each_null.2 trivial
    | some p => exact Value.each_number.2 (leaf (canonical.project p named))
  have timeSpent : (Value.ofOption .ofInt r.timeSpent).Each Value.NumberReadsBack := by
    cases told : r.timeSpent with
    | none => exact Value.each_null.2 trivial
    | some ms => exact Value.each_number.2 (leaf (canonical.timeSpent ms told))
  have tags : (Value.ofTexts r.tags).Each Value.NumberReadsBack := by
    refine Value.each_object.2 ⟨trivial, fun m hm => ?_⟩
    obtain ⟨e, _, rfl⟩ := List.mem_map.1 hm
    exact Value.each_string.2 trivial
  have free : ∀ m ∈ r.free, m.2.Each Value.NumberReadsBack := fun m hm w inside =>
    Value.numberReadsBack (canonical.values m hm w inside) (reads.doubles m hm w inside)
  have extra : (Value.ofTable r.extra).Each Value.NumberReadsBack :=
    Value.each_object.2 ⟨trivial, fun m hm => free m (List.mem_append_left _ hm)⟩
  have data : (Value.ofTable r.data).Each Value.NumberReadsBack :=
    Value.each_object.2 ⟨trivial, fun m hm => free m (List.mem_append_right _ hm)⟩
  refine Value.each_object.2 ⟨trivial, ?_⟩
  simp [members, Value.NumberReadsBack, level, project, timeSpent, tags, extra, data]

/-- A report whose doubles and time are read back is read back if and only if it is legible. -/
theorem ofText?_toText (canonical : r.IsCanonical) (reads : r.ReadsBack) :
    ofText? r.toText = some r ↔ r.IsLegible := by
  have free : ∀ m ∈ r.free, m.2.Each Value.IsCanonical := canonical.values
  have extra : ∀ m ∈ r.extra.entries, m ∈ r.free := fun m hm => List.mem_append_left _ hm
  have data : ∀ m ∈ r.data.entries, m ∈ r.free := fun m hm => List.mem_append_right _ hm
  have extraRead := object?_tree (fun m hm => free m (extra m hm))
    (fun m hm => reads.doubles m (extra m hm)) innerRoom
  have dataRead := object?_tree (fun m hm => free m (data m hm))
    (fun m hm => reads.doubles m (data m hm)) innerRoom
  have room : Json.nestingLimit = innerRoom + 1 + 1 := rfl
  rw [ofText?, toText, Value.ofText?_toText (numbersReadBack canonical reads), Option.bind_some, room,
    ofTree?_members canonical reads (innerRoom + 1), IsLegible, Report.free, List.forall_mem_append,
    ← extraRead, ← dataRead]
  constructor
  · intro read
    obtain ⟨e, foundExtra, read⟩ := Option.bind_eq_some_iff.1 read
    obtain ⟨d, foundData, read⟩ := Option.bind_eq_some_iff.1 read
    have same := Option.some.inj read
    have sameExtra : e = r.extra := congrArg Report.extra same
    have sameData : d = r.data := congrArg Report.data same
    exact ⟨sameExtra ▸ foundExtra, sameData ▸ foundData⟩
  · rintro ⟨foundExtra, foundData⟩
    rw [foundExtra, foundData]
    rfl

end Report

/-- A report crosses a queue unchanged if and only if it is legible. -/
theorem EventQueue.decode?_encode {r : Report} (canonical : r.IsCanonical) (reads : r.ReadsBack)
    (z : Zlib.Compressor) (level : Nat) : decode? (encode z level r) = some r ↔ r.IsLegible := by
  rw [decode?, encode, z.decompress?_run]
  simp only [Option.bind_eq_bind, Option.bind_some, Json.textOfBytes_toBytes]
  exact Report.ofText?_toText canonical reads

end ErrorIntake
