import ErrorIntake.Interface.Canonical
import ErrorIntake.Proofs.Json.Decode

/-!
# Interfaces read back

An interface is stored as one object, which has other members than the text that it was read from.
It is read back from the text of that object exactly if it is legible: its free values are nested no
deeper than a reader follows them there, and none of their objects opens like an embedded text.
-/

namespace ErrorIntake

open Json (Tree Value)
open Json.Tree (bind_last bind_of_some text?_tree int64?_tree)

/-- The value is nested no deeper than a reader with so much room follows it, and no object in it
    opens like an embedded text. -/
def Json.Value.IsLegible (room : Nat) (v : Value) : Prop :=
  v.depth ≤ room ∧ v.Each Value.OpensPlainly

instance (room : Nat) : DecidablePred (Value.IsLegible room) := fun v =>
  inferInstanceAs (Decidable (v.depth ≤ room ∧ v.Each Value.OpensPlainly))

theorem Json.Value.isLegible_null (room : Nat) : Value.null.IsLegible room :=
  ⟨Nat.zero_le room, Value.each_null.2 trivial⟩

/-- What holds of everything in an object holds of everything in its members. -/
theorem Json.Value.each_member {p : Value → Prop} {members : List (String × Value)} {name : String}
    {v : Value} (once : (members.map Prod.fst).Nodup)
    (h : (Value.ofTable (.ofList members)).Each p) (found : members.lookup name = some v) :
    v.Each p := by
  have member : (Table.ofList members).get? name = some v := by
    rw [Table.get?_ofList, Table.lookup_reverse once, found]
  exact (Value.each_object.1 h).2 (name, v) (Table.get?_eq_some_iff.1 member)

theorem Json.Value.each_free {p : Value → Prop} {members : List (String × Value)} {name : String}
    {v : Value} (once : (members.map Prod.fst).Nodup) (null : p .null)
    (h : (Value.ofTable (.ofList members)).Each p)
    (found : members.lookup name = if v.isNull then none else some v) : v.Each p := by
  cases v with
  | null => exact Value.each_null.2 null
  | _ => exact Value.each_member once h found

/-- Leaves and lists of texts are read back from the members that they were written to. -/
structure Json.Tree.MembersRead (members : List (String × Value)) (named : List (String × Tree)) :
    Prop where
  text : ∀ name s, members.lookup name = some (.string s) →
    Tree.lenient? Tree.text? "" named name = some s
  int64 : ∀ name n, IsInt64 n → members.lookup name = some (.ofInt n) →
    Tree.lenient? Tree.int64? 0 named name = some n
  bool : ∀ name b, members.lookup name = some (.bool b) →
    Tree.lenient? Tree.bool? false named name = some b
  texts : ∀ name l, members.lookup name = some (.array (l.map .string)) →
    Tree.lenient? (Tree.list? Tree.text?) [] named name = some l

theorem Json.Tree.membersRead {members : List (String × Value)} {named : List (String × Tree)}
    (trees : ∀ name, named.lookup name = (members.lookup name).map Value.tree) :
    Tree.MembersRead members named where
  text _ s found := (Tree.lenient?_member trees found rfl).trans (text?_tree s)
  int64 _ _ fits found := (Tree.lenient?_member trees found rfl).trans (int64?_tree fits)
  bool _ _ found := Tree.lenient?_member trees found rfl
  texts _ l found := (Tree.lenient?_member trees found rfl).trans
    ((Tree.list?_tree Tree.text? .string l).2 fun s _ => text?_tree s)

/-! ## Frames and stacktraces -/

namespace Frame

theorem nodup_members (f : Frame) : (f.members.map Prod.fst).Nodup := by
  unfold members
  split <;> simp

theorem lookup_vars (f : Frame) :
    f.members.lookup "vars" = if f.vars.isNull then none else some f.vars := by
  unfold members
  split <;> simp [List.lookup_cons]

/-- The variables of a frame decide whether it is read back. -/
theorem ofTree?_toValue {f : Frame} (canonical : f.IsCanonical)
    (doubles : f.vars.Each Value.ReadsBack) (room : Nat) :
    ofTree? (room + 1) f.toValue.tree = some f ↔ f.vars.IsLegible room := by
  obtain ⟨named, record, trees⟩ := Tree.record?_ofList f.nodup_members memberNames
  have reads := Tree.membersRead trees
  rw [Value.IsLegible, ← Tree.optional?_free trees f.lookup_vars canonical.vars doubles room,
    ofTree?, toValue, bind_of_some record,
    bind_of_some (reads.text "abs_path" f.absPath (by simp [members])),
    bind_of_some (reads.text "filename" f.filename (by simp [members, List.lookup_cons])),
    bind_of_some (reads.text "function" f.function (by simp [members, List.lookup_cons])),
    bind_of_some (reads.text "module" f.moduleName (by simp [members, List.lookup_cons])),
    bind_of_some (reads.int64 "lineno" f.lineno canonical.lineno (by simp [members, List.lookup_cons])),
    bind_of_some (reads.int64 "colno" f.colno canonical.colno (by simp [members, List.lookup_cons])),
    bind_of_some (reads.text "context_line" f.contextLine (by simp [members, List.lookup_cons])),
    bind_of_some (reads.texts "pre_context" f.preContext (by simp [members, List.lookup_cons])),
    bind_of_some (reads.texts "post_context" f.postContext (by simp [members, List.lookup_cons])),
    bind_of_some (reads.bool "in_app" f.inApp (by simp [members, List.lookup_cons]))]
  exact bind_last Frame.vars fun _ => rfl

end Frame

namespace Stacktrace

/-- The free values of a stacktrace: the variables of its frames. -/
def free (s : Stacktrace) : List Value := s.frames.map Frame.vars

theorem each_free {p : Value → Prop} {s : Stacktrace} (null : p .null) (h : s.toValue.Each p) :
    ∀ v ∈ s.free, v.Each p := by
  intro v hv
  obtain ⟨f, member, rfl⟩ := List.mem_map.1 hv
  have frames := (Value.each_object.1 h).2 _ List.mem_cons_self
  have frame := (Value.each_array.1 frames).2 _ (List.mem_map_of_mem member)
  exact Value.each_free f.nodup_members null frame f.lookup_vars

theorem ofTree?_toValue {s : Stacktrace} (canonical : s.IsCanonical)
    (doubles : ∀ v ∈ s.free, v.Each Value.ReadsBack) (room : Nat) :
    ofTree? (room + 3) s.toValue.tree = some s ↔ ∀ v ∈ s.free, v.IsLegible room := by
  generalize isWritten : Value.array (s.frames.map Frame.toValue) = written
  have once : ([("frames", written)].map Prod.fst).Nodup := by simp
  obtain ⟨named, record, trees⟩ := Tree.record?_ofList once ["frames"]
  have found : [("frames", written)].lookup "frames" = some written := by simp
  have frames : Tree.lenient? (ofTree?.frames? (room + 2)) [] named "frames" =
      written.tree.list? (Frame.ofTree? (room + 1)) :=
    Tree.lenient?_member trees found (by rw [← isWritten]; rfl)
  have each : ∀ f ∈ s.frames, Frame.ofTree? (room + 1) f.toValue.tree = some f ↔
      f.vars.IsLegible room := fun f member =>
    Frame.ofTree?_toValue (canonical f member) (doubles f.vars (List.mem_map_of_mem member)) room
  rw [free, List.forall_mem_map, ← forall₂_congr each,
    ← Tree.list?_tree (Frame.ofTree? (room + 1)) Frame.toValue, isWritten, ofTree?, toValue,
    isWritten, bind_of_some (show (Value.object [("frames", written)]).tree.record? ["frames"] = some named
      from record), frames]
  exact bind_last Stacktrace.frames fun _ => rfl

end Stacktrace

/-! ## Exceptions -/

namespace Exception

/-- The free values of an exception: those of its stacktrace. -/
def free (e : Exception) : List Value := e.stacktrace.elim [] Stacktrace.free

theorem nodup_members (e : Exception) : (e.members.map Prod.fst).Nodup := by
  unfold members
  split <;> simp

theorem lookup_stacktrace (e : Exception) :
    e.members.lookup "stacktrace" = e.stacktrace.map Stacktrace.toValue := by
  unfold members
  split <;> simp [List.lookup_cons, *]

theorem each_free {p : Value → Prop} {e : Exception} (null : p .null) (h : e.toValue.Each p) :
    ∀ v ∈ e.free, v.Each p := by
  cases trace : e.stacktrace with
  | none => simp [free, trace]
  | some s =>
    have found := e.lookup_stacktrace
    rw [trace] at found
    rw [free, trace]
    exact Stacktrace.each_free null (Value.each_member e.nodup_members h found)

/-- The stacktrace of an exception decides whether it is read back. -/
theorem ofTree?_toValue {e : Exception} (canonical : e.IsCanonical)
    (doubles : ∀ v ∈ e.free, v.Each Value.ReadsBack) (room : Nat) :
    ofTree? (room + 4) e.toValue.tree = some e ↔ ∀ v ∈ e.free, v.IsLegible room := by
  obtain ⟨named, record, trees⟩ := Tree.record?_ofList e.nodup_members memberNames
  have reads := Tree.membersRead trees
  have stacktrace : Tree.optional? (Tree.option? (Stacktrace.ofTree? (room + 3))) none named
      "stacktrace" = some e.stacktrace ↔ ∀ v ∈ e.free, v.IsLegible room := by
    rw [Tree.optional?, trees, e.lookup_stacktrace]
    cases trace : e.stacktrace with
    | none => simp [free, trace]
    | some s =>
      rw [free, trace] at doubles
      rw [free, trace]
      exact ((Option.map_injective fun _ _ same => Option.some.inj same).eq_iff (b := some s)).trans
        (Stacktrace.ofTree?_toValue (canonical s trace) doubles room)
  rw [← stacktrace, ofTree?, toValue, bind_of_some record,
    bind_of_some (reads.text "value" e.value (by simp [members])),
    bind_of_some (reads.text "type" e.type (by simp [members, List.lookup_cons])),
    bind_of_some (reads.text "module" e.moduleName (by simp [members, List.lookup_cons]))]
  exact bind_last Exception.stacktrace fun _ => rfl

end Exception

/-! ## Requests -/

namespace Request

/-- The free values of a request. -/
def free (r : Request) : List Value := [r.data, r.cookies]

theorem nodup_members (r : Request) : (r.members.map Prod.fst).Nodup := by
  unfold members
  split <;> split <;> simp

theorem lookup_data (r : Request) :
    r.members.lookup "data" = if r.data.isNull then none else some r.data := by
  unfold members
  split <;> split <;> simp [List.lookup_cons]

theorem lookup_cookies (r : Request) :
    r.members.lookup "cookies" = if r.cookies.isNull then none else some r.cookies := by
  unfold members
  split <;> split <;> simp [List.lookup_cons]

theorem each_free {p : Value → Prop} {r : Request} (null : p .null) (h : r.toValue.Each p) :
    ∀ v ∈ r.free, v.Each p := by
  have data := Value.each_free r.nodup_members null h r.lookup_data
  have cookies := Value.each_free r.nodup_members null h r.lookup_cookies
  simp [free, data, cookies]

/-- A table of texts is read back from an object of strings. -/
theorem texts?_tree (t : Table String) (room : Nat) :
    texts? (room + 1) (Value.ofTexts t).tree = some t := by
  obtain ⟨values, entries⟩ : ∃ values : Table Value,
      values.entries = t.entries.map fun e => (e.1, Value.string e.2) :=
    ⟨⟨_, List.pairwise_map.2 t.sorted⟩, rfl⟩
  have strings : Value.ofTexts t = .object (values.entries.map fun e => (e.1, id e.2)) := by
    rw [Value.ofTexts, entries]
    simp
  have read : (Value.ofTexts t).tree.table? (Value.ofTree? room) = some values := by
    rw [strings, Tree.table?_tree]
    intro e member
    rw [entries] at member
    obtain ⟨entry, -, rfl⟩ := List.mem_map.1 member
    exact (Value.ofTree?_tree room (Value.isCanonical_string _) (Value.each_string.2 trivial)).2
      ⟨Nat.zero_le room, Value.each_string.2 trivial⟩
  have kept : (values.entries.filterMap fun m => (textOf? m.2).map fun text => (m.1, text)) =
      t.entries := by
    rw [entries, List.filterMap_map]
    exact List.filterMap_some
  rw [Value.ofTexts, Value.tree] at read ⊢
  rw [texts?, bind_of_some read, kept, Table.ofList_entries]
  rfl

/-- Data and cookies decide whether a request is read back. -/
theorem ofTree?_toValue {r : Request} (canonical : r.IsCanonical)
    (doubles : ∀ v ∈ r.free, v.Each Value.ReadsBack) (room : Nat) :
    ofTree? (room + 2) r.toValue.tree = some r ↔ ∀ v ∈ r.free, v.IsLegible (room + 1) := by
  obtain ⟨named, record, trees⟩ := Tree.record?_ofList r.nodup_members memberNames
  have reads := Tree.membersRead trees
  have texts : ∀ name t, r.members.lookup name = some (.ofTexts t) →
      Tree.optional? (texts? (room + 1)) ∅ named name = some t := fun name t found =>
    (Tree.optional?_member trees found).trans (texts?_tree t room)
  have data := Tree.optional?_free trees r.lookup_data canonical.data
    (doubles r.data (by simp [free])) (room + 1)
  have cookies := Tree.optional?_free trees r.lookup_cookies canonical.cookies
    (doubles r.cookies (by simp [free])) (room + 1)
  have legible : (∀ v ∈ r.free, v.IsLegible (room + 1)) ↔
      r.data.IsLegible (room + 1) ∧ r.cookies.IsLegible (room + 1) := by
    simp [free]
  rw [legible, Value.IsLegible, Value.IsLegible, ← data, ← cookies, ofTree?, toValue,
    bind_of_some record,
    bind_of_some (reads.text "url" r.url (by simp [members])),
    bind_of_some (reads.text "method" r.method (by simp [members, List.lookup_cons])),
    bind_of_some (reads.text "query_string" r.queryString (by simp [members, List.lookup_cons])),
    bind_of_some (texts "headers" r.headers (by simp [members, List.lookup_cons])),
    bind_of_some (texts "env" r.env (by simp [members, List.lookup_cons]))]
  constructor
  · intro read
    obtain ⟨data, isData, read⟩ := Option.bind_eq_some_iff.1 read
    obtain ⟨cookies, isCookies, same⟩ := Option.bind_eq_some_iff.1 read
    have same := Option.some.inj same
    rw [isData, isCookies, ← congrArg Request.data same, ← congrArg Request.cookies same]
    exact ⟨rfl, rfl⟩
  · rintro ⟨isData, isCookies⟩
    rw [bind_of_some isData, bind_of_some isCookies]
    rfl

end Request

/-! ## Interfaces of every kind -/

namespace Interface

/-- The free values of an interface: all that it keeps as it was sent. -/
def free : Interface → List Value
  | .exception e => e.free
  | .stacktrace s => s.free
  | .request r => r.free

/-- How deep a reader follows the free values of an interface, which stand behind the containers
    that the interface itself is written with. -/
def Kind.freeRoom : Kind → Nat
  | .exception => Json.nestingLimit - 4
  | .stacktrace => Json.nestingLimit - 3
  | .request => Json.nestingLimit - 1

/-- All free values of the interface can be read where they stand. -/
def IsLegible (i : Interface) : Prop := ∀ v ∈ i.free, v.IsLegible i.kind.freeRoom

instance : DecidablePred IsLegible := fun i =>
  inferInstanceAs (Decidable (∀ v ∈ i.free, v.IsLegible i.kind.freeRoom))

theorem each_free {p : Value → Prop} {i : Interface} (null : p .null) (h : i.toValue.Each p) :
    ∀ v ∈ i.free, v.Each p := by
  cases i with
  | exception e => exact Exception.each_free null h
  | stacktrace s => exact Stacktrace.each_free null h
  | request r => exact Request.each_free null h

theorem ofTree?_toValue {i : Interface} (canonical : i.IsCanonical)
    (doubles : i.toValue.Each Value.ReadsBack) :
    i.kind.ofTree? i.toValue.tree = some i ↔ i.IsLegible := by
  have free := each_free trivial doubles
  -- The containers around the free values are an object, the list of frames, the stacktrace and the
  -- exception, as far as the kind has them.
  cases i with
  | exception e =>
    exact ((Option.map_injective fun _ _ same => Interface.exception.inj same).eq_iff
      (b := some e)).trans (Exception.ofTree?_toValue canonical free (Json.nestingLimit - 4))
  | stacktrace s =>
    exact ((Option.map_injective fun _ _ same => Interface.stacktrace.inj same).eq_iff
      (b := some s)).trans (Stacktrace.ofTree?_toValue canonical free (Json.nestingLimit - 3))
  | request r =>
    exact ((Option.map_injective fun _ _ same => Interface.request.inj same).eq_iff
      (b := some r)).trans (Request.ofTree?_toValue canonical free (Json.nestingLimit - 2))

/-- An interface is read back from the text that it is stored as if and only if it is legible. -/
theorem decode?_toText {i : Interface} (canonical : i.IsCanonical)
    (doubles : i.toValue.Each Value.ReadsBack) :
    i.kind.decode? i.toValue.toText = some i ↔ i.IsLegible := by
  have numbers : i.toValue.Each Value.NumberReadsBack := fun w inside =>
    Value.numberReadsBack (canonical.toValue w inside) (doubles w inside)
  rw [Kind.decode?, Value.ofText?_toText numbers, Option.bind_some]
  exact ofTree?_toValue canonical doubles

end Interface

end ErrorIntake
