import ErrorIntake.EventQueue.Payload
import ErrorIntake.Proofs.Json.Decode

/-!
# What no queue changes

A report may come back changed from a queue: its doubles, its time and its free values are read by
their own rules.  Its id, its project and its checksum are not at risk, whatever else stands in the
report.  They stand in front of the free values, and a reader that gets through the whole text has
read them as they were written.
-/

namespace ErrorIntake

open Json (Literal Tree Value)

/-! ## Members in front of others -/

namespace Json.Value

variable {first others : List (String × Value)}

theorem memberChars_cons (key : String) (v : Value) (more : others ≠ []) :
    memberChars ((key, v) :: others) =
      Literal.quote key ++ ':' :: (v.chars ++ ',' :: memberChars others) := by
  cases others with
  | nil => exact absurd rfl more
  | cons w rest => rfl

/-- Members that can be read are read as they were written, whatever stands behind them. -/
theorem readMembers_front (more : others ≠ []) (read : ∀ m ∈ first, m.2.IsRead) {fuel : Nat}
    (enough : (memberChars (first ++ others)).length < fuel) {rest : List Char}
    {members : List (Literal × Tree)} {left : List Char}
    (made : Tree.readMembers fuel (memberChars (first ++ others) ++ rest) = some (members, left)) :
    ∃ behind, members = memberTrees first ++ behind := by
  induction first generalizing fuel members with
  | nil => exact ⟨members, rfl⟩
  | cons m first ih =>
    obtain ⟨key, v⟩ := m
    obtain ⟨fuel, rfl⟩ : ∃ k, fuel = k + 1 := ⟨fuel - 1, by omega⟩
    have filled : first ++ others ≠ [] := by simp [more]
    have readFirst : v.IsRead := read (key, v) List.mem_cons_self
    have ends : ∀ rest, EndsNumber (',' :: rest) :=
      endsNumber_cons (by decide) (by decide) (by decide) (by decide)
    rw [List.cons_append, memberChars_cons key v filled] at made enough
    simp only [List.append_assoc, List.cons_append, List.length_append, List.length_cons]
      at made enough
    rw [quote_append, Tree.readMembers_more (skipBlanks_cons (by decide) _)
      (Literal.read_quoted key _) (skipBlanks_cons (by decide) _)
      (readFirst fuel _ (by omega) (ends _)) (skipBlanks_cons (by decide) _)] at made
    obtain ⟨⟨behind, left'⟩, readRest, same⟩ := Option.map_eq_some_iff.1 made
    cases same
    obtain ⟨behind, rfl⟩ := ih (fun m hm => read m (List.mem_cons_of_mem _ hm)) (by omega) readRest
    exact ⟨behind, rfl⟩

/-- An object that is read at all is read with the members in front as they were written. -/
theorem ofText?_front (more : others ≠ []) (read : ∀ m ∈ first, m.2.IsRead) {t : Tree}
    (made : Tree.ofText? (object (first ++ others)).toText = some t) :
    ∃ behind, t = .object (memberTrees first ++ behind) := by
  have filled : first ++ others ≠ [] := by simp [more]
  obtain ⟨m, rest, split⟩ := List.exists_cons_of_ne_nil filled
  obtain ⟨cs, chars⟩ := memberChars_head m rest
  rw [← split] at chars
  rw [Tree.ofText?, toText, String.toList_ofList, Tree.ofChars?, Tree.read, Value.chars] at made
  have size : (memberChars (first ++ others)).length <
      ('\x7b' :: memberChars (first ++ others) ++ ['\x7d']).length := by
    simp only [List.cons_append, List.length_cons, List.length_append]
    omega
  generalize ('\x7b' :: memberChars (first ++ others) ++ ['\x7d']).length = fuel at made size
  rw [chars, List.cons_append, List.cons_append,
    Tree.readValue_object (c := '"') (skipBlanks_cons (by decide) _) (by decide),
    ← List.cons_append, ← chars] at made
  cases readAll : Tree.readMembers fuel (memberChars (first ++ others) ++ ['\x7d']) with
  | none =>
    rw [readAll] at made
    cases made
  | some found =>
    obtain ⟨members, left⟩ := found
    obtain ⟨behind, rfl⟩ := readMembers_front more read size readAll
    simp only [readAll, Option.map_some] at made
    split at made
    · cases made
      exact ⟨behind, rfl⟩
    · cases made

end Json.Value

/-! ## The members in front of a report -/

namespace Report

/-- The members up to the checksum. -/
def frontMembers (r : Report) : List (String × Value) := r.members.take 12

/-- The trees of the members up to the checksum under their names. -/
def frontTrees (r : Report) : List (String × Tree) := r.frontMembers.map fun m => (m.1, m.2.tree)

theorem isRead_frontMembers (r : Report) : ∀ m ∈ r.frontMembers, m.2.IsRead := by
  have integer (n : Int) : (Value.ofInt n).IsRead :=
    Value.isRead_number (Json.Number.read_toString n)
  have project : (Value.ofOption (fun p => .ofInt p.value) r.project).IsRead := by
    cases r.project with
    | none => exact Value.isRead_null
    | some p => exact integer p.value
  simp [frontMembers, members, Value.isRead_string, integer, project]

/-- If an integer is read for a written integer, it is that one. -/
theorem integer?_ofInt {n k : Int} (read : Tree.integer? (Value.ofInt n).tree = some k) :
    k = n := by
  change (Json.Number.integer n).numeral.toInt? = some k at read
  simp only [Json.Number.numeral, Json.Numeral.toInt?, Json.Numeral.isWhole,
    Json.Numeral.decimalValue_toDigits, List.isEmpty_nil, Option.isNone_none, Bool.and_self,
    if_true, decide_eq_true_eq] at read
  split at read
  · rw [Option.ite_none_right_eq_some, Option.some.injEq] at read
    omega
  · rw [Option.ite_none_right_eq_some, Option.some.injEq] at read
    omega

theorem project_of_tree {project project' : Option ProjectId}
    (read : Tree.option? ProjectId.ofTree?
      (Value.ofOption (fun p => .ofInt p.value) project).tree = some project') :
    project' = project := by
  cases project with
  | none =>
    cases read
    rfl
  | some p =>
    change (ProjectId.ofTree? (Value.ofInt p.value).tree).map some = some project' at read
    obtain ⟨p', found, rfl⟩ := Option.map_eq_some_iff.1 read
    obtain ⟨n, isInt, rfl⟩ := Option.map_eq_some_iff.1 found
    rw [integer?_ofInt (Option.filter_eq_some_iff.1 isInt).1]

/-- Whatever is read for a report begins with the trees of its front. -/
theorem record?_front {r : Report} {t : Tree} (made : Tree.ofText? r.toText = some t)
    {named : List (String × Tree)} (read : t.record? memberNames = some named) :
    ∃ behind, named = r.frontTrees ++ behind := by
  have split : r.members = r.frontMembers ++ r.members.drop 12 := (List.take_append_drop 12 _).symm
  rw [toText, split] at made
  obtain ⟨behind, rfl⟩ :=
    Value.ofText?_front (by simp [members]) (isRead_frontMembers r) made
  obtain ⟨all, found, kept⟩ := Option.bind_eq_some_iff.1 read
  obtain rfl : all = named := by
    split at kept
    · exact Option.some.inj kept
    · cases kept
  change List.mapM (fun m : Literal × Tree => m.1.text?.map fun name => (name, m.2)) _ = _ at found
  rw [List.mapM_append, Tree.named_memberTrees] at found
  obtain ⟨_, front, found⟩ := Option.bind_eq_some_iff.1 found
  cases front
  obtain ⟨behind, _, same⟩ := Option.bind_eq_some_iff.1 found
  exact ⟨behind, (Option.some.inj same).symm⟩

variable {r : Report} {α : Type} {behind : List (String × Tree)} {name : String} {v : Value}

theorem lookup_front (member : (name, v) ∈ r.frontMembers) :
    (r.frontTrees ++ behind).lookup name = some v.tree := by
  have all : ∀ m ∈ r.frontMembers, (r.frontTrees ++ behind).lookup m.1 = some m.2.tree := by
    simp [frontTrees, frontMembers, members, List.lookup_cons]
  exact all _ member

theorem required?_front (member : (name, v) ∈ r.frontMembers) (decode : Tree → Option α) :
    Tree.required? decode (r.frontTrees ++ behind) name = decode v.tree := by
  unfold Tree.required?
  rw [lookup_front member]

theorem optional?_front (member : (name, v) ∈ r.frontMembers) (decode : Tree → Option α)
    (default : α) :
    Tree.optional? decode default (r.frontTrees ++ behind) name = decode v.tree := by
  unfold Tree.optional?
  rw [lookup_front member]

/-- A report that is read keeps its id, its project and its checksum. -/
theorem ofText?_identity {r' : Report} (read : ofText? r.toText = some r') :
    r'.eventId = r.eventId ∧ r'.project = r.project ∧ r'.checksum = r.checksum := by
  obtain ⟨t, made, read⟩ := Option.bind_eq_some_iff.1 read
  obtain ⟨room, size⟩ : ∃ room, Json.nestingLimit = room + 1 := ⟨_, rfl⟩
  rw [size, ofTree?] at read
  obtain ⟨named, isNamed, read⟩ := Option.bind_eq_some_iff.1 read
  obtain ⟨eventId, isEventId, read⟩ := Option.bind_eq_some_iff.1 read
  obtain ⟨message, _, read⟩ := Option.bind_eq_some_iff.1 read
  obtain ⟨level, _, read⟩ := Option.bind_eq_some_iff.1 read
  obtain ⟨logger, _, read⟩ := Option.bind_eq_some_iff.1 read
  obtain ⟨serverName, _, read⟩ := Option.bind_eq_some_iff.1 read
  obtain ⟨culprit, _, read⟩ := Option.bind_eq_some_iff.1 read
  obtain ⟨platform, _, read⟩ := Option.bind_eq_some_iff.1 read
  obtain ⟨release, _, read⟩ := Option.bind_eq_some_iff.1 read
  obtain ⟨version, _, read⟩ := Option.bind_eq_some_iff.1 read
  obtain ⟨project, isProject, read⟩ := Option.bind_eq_some_iff.1 read
  obtain ⟨datetime, _, read⟩ := Option.bind_eq_some_iff.1 read
  obtain ⟨checksum, isChecksum, read⟩ := Option.bind_eq_some_iff.1 read
  obtain ⟨timeSpent, _, read⟩ := Option.bind_eq_some_iff.1 read
  obtain ⟨tags, _, read⟩ := Option.bind_eq_some_iff.1 read
  obtain ⟨extra, _, read⟩ := Option.bind_eq_some_iff.1 read
  obtain ⟨data, _, read⟩ := Option.bind_eq_some_iff.1 read
  cases read
  obtain ⟨behind, rfl⟩ := record?_front made isNamed
  rw [required?_front (v := .string r.eventId) (by simp [frontMembers, members])] at isEventId
  rw [optional?_front (v := .ofOption (fun p => .ofInt p.value) r.project)
    (by simp [frontMembers, members])] at isProject
  rw [required?_front (v := .string r.checksum) (by simp [frontMembers, members])] at isChecksum
  refine ⟨?_, project_of_tree isProject, ?_⟩
  · exact Option.some.inj (isEventId.symm.trans (Json.Literal.text?_ofText r.eventId))
  · exact Option.some.inj (isChecksum.symm.trans (Json.Literal.text?_ofText r.checksum))

end Report

/-- Whatever comes back from a queue has the id, the project and the checksum of what was sent. -/
theorem EventQueue.decode?_identity {z : Zlib.Compressor} {level : Nat} {r r' : Report}
    (holds : decode? (encode z level r) = some r') :
    r'.eventId = r.eventId ∧ r'.project = r.project ∧ r'.checksum = r.checksum := by
  rw [decode?, encode, z.decompress?_run] at holds
  simp only [Option.bind_eq_bind, Option.bind_some, Json.textOfBytes_toBytes] at holds
  exact Report.ofText?_identity holds

end ErrorIntake
