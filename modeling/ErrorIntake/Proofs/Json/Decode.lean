import ErrorIntake.Json.Decode
import ErrorIntake.Proofs.Json.Meaning
import ErrorIntake.Proofs.Table

/-!
# What decoders give

A table that was written is read back if its values are, and so is a record.  A table or a list is
decoded exactly if all of its parts are.
-/

namespace ErrorIntake.Json.Tree

variable {α : Type} {decode : Tree → Option α}

theorem mapM_keys {enc : α → Value}
    {entries out : List (String × α)}
    (h : (entries.map fun e => (Literal.ofText e.1, (enc e.2).tree)).mapM (fun m => do
      let key ← m.1.text?
      let value ← decode m.2
      return (key, value)) = some out) : out.map Prod.fst = entries.map Prod.fst := by
  rw [mapM_eq_some_iff, List.forall₂_map_left_iff] at h
  induction h with
  | nil => rfl
  | cons first _ ih =>
    simp only [Literal.text?_ofText, Option.bind_eq_bind, Option.bind_some] at first
    obtain ⟨value, _, same⟩ := Option.bind_eq_some_iff.1 first
    cases same
    rw [List.map_cons, List.map_cons, ih]

/-- A table that was written as an object is read back if its values are. -/
theorem table?_tree (decode : Tree → Option α) (enc : α → Value) (t : Table α) :
    (Value.object (t.entries.map fun e => (e.1, enc e.2))).tree.table? decode = some t ↔
      ∀ e ∈ t.entries, decode (enc e.2).tree = some e.2 := by
  rw [Value.tree, Value.memberTrees_eq_map, List.map_map, table?]
  have one : ∀ e ∈ t.entries, (do
      let key ← (Literal.ofText e.1).text?
      let value ← decode (enc e.2).tree
      return (key, value)) = some e ↔ decode (enc e.2).tree = some e.2 := by
    intro e _
    rw [Literal.text?_ofText]
    cases decode (enc e.2).tree with
    | none => simp
    | some value => simp [Prod.ext_iff]
  rw [← forall₂_congr one, ← mapM_map_eq_some_iff (g := fun e : String × α =>
    (Literal.ofText e.1, (enc e.2).tree)) (f := fun m : Literal × Tree => do
      let key ← m.1.text?
      let value ← decode m.2
      return (key, value))]
  constructor
  · intro read
    obtain ⟨out, found, same⟩ := Option.bind_eq_some_iff.1 read
    have sorted : out.Pairwise fun a b => a.1 < b.1 := by
      have keys := List.pairwise_map.2 t.sorted
      rw [← mapM_keys found] at keys
      exact List.pairwise_map.1 keys
    have entries : out = t.entries := by
      rw [← Table.entries_ofList sorted, Option.some.inj same]
    rw [entries] at found
    exact found
  · intro found
    refine Option.bind_eq_some_iff.2 ⟨t.entries, found, ?_⟩
    rw [Table.ofList_entries]
    rfl

/-- The members of an object that was written have the names that they were written with. -/
theorem named_memberTrees (members : List (String × Value)) :
    (Value.memberTrees members).mapM (fun m => m.1.text?.map fun name => (name, m.2)) =
      some (members.map fun m => (m.1, m.2.tree)) := by
  rw [Value.memberTrees_eq_map, mapM_eq_some_iff, List.forall₂_map_left_iff,
    List.forall₂_map_right_iff, List.forall₂_same]
  intro m _
  rw [Literal.text?_ofText]
  rfl

/-! ## What was written is read back -/

theorem text?_tree (s : String) : text? (Value.string s).tree = some s :=
  Literal.text?_ofText s

theorem integer?_tree {n : Int} (spelled : Number.IsSpelled n) :
    integer? (Value.ofInt n).tree = some n :=
  Number.toInt?_numeral spelled

theorem int64?_tree {n : Int} (h : IsInt64 n) : int64? (Value.ofInt n).tree = some n := by
  have spelled : Number.IsSpelled n := ⟨h.1, by omega⟩
  rw [int64?, integer?_tree spelled, Option.filter_some, if_pos (decide_eq_true h)]

/-- A list that was written as an array is read back if its elements are. -/
theorem list?_tree (decode : Tree → Option α) (enc : α → Value) (l : List α) :
    (Value.array (l.map enc)).tree.list? decode = some l ↔
      ∀ a ∈ l, decode (enc a).tree = some a := by
  rw [Value.tree, Value.elementTrees_eq_map, List.map_map, list?]
  exact mapM_map_eq_some_iff

/-- One step of reading that goes well. -/
theorem bind_of_some {β γ : Type} {x : Option β} {a : β} (h : x = some a) (f : β → Option γ) :
    x >>= f = f a := by
  rw [h]
  rfl

/-- Something that is read part by part is read back if its last part is. -/
theorem bind_last {β : Type} {x : Option β} {build : β → α} {b : β} (part : α → β)
    (last : ∀ c, part (build c) = c) :
    (x >>= fun c => pure (build c)) = some (build b) ↔ x = some b := by
  constructor
  · intro read
    obtain ⟨c, found, same⟩ := Option.bind_eq_some_iff.1 read
    rw [found, ← last c, Option.some.inj same, last b]
  · intro found
    rw [bind_of_some found]
    rfl

/-- An object that was written from members with different names has them under these names. -/
theorem record?_ofList {members : List (String × Value)} (once : (members.map Prod.fst).Nodup)
    (names : List String) :
    ∃ named, (Value.ofTable (.ofList members)).tree.record? names = some named ∧
      ∀ name, named.lookup name = (members.lookup name).map Value.tree := by
  generalize isTable : Table.ofList members = t
  have keys := named_memberTrees t.entries
  have single : ∀ name ∈ names,
      occurrences (t.entries.map fun m => (m.1, m.2.tree)) name ≤ 1 := by
    intro name _
    have count := List.nodup_iff_count_le_one.1 t.nodup_keys name
    rw [Table.keys, List.count, List.countP_map] at count
    rw [occurrences, List.countP_map]
    exact count
  refine ⟨t.entries.map fun m => (m.1, m.2.tree), ?_, fun name => ?_⟩
  · rw [Value.ofTable, Value.tree, record?]
    simp only [keys, Option.bind_eq_bind, Option.bind_some]
    rw [if_pos]
    simpa using single
  · rw [Table.lookup_map, ← Table.lookup_reverse once, ← Table.get?_ofList, isTable]
    rfl

section

variable {members : List (String × Value)} {named : List (String × Tree)} {name : String}
  {v : Value} {default : α}
  (trees : ∀ name, named.lookup name = (members.lookup name).map Value.tree)
include trees

/-- A member that was written is read back if its value is. -/
theorem optional?_member (found : members.lookup name = some v) :
    optional? decode default named name = decode v.tree := by
  rw [optional?, trees, found]
  rfl

theorem lenient?_member (found : members.lookup name = some v) (given : v.isNull = false) :
    lenient? decode default named name = decode v.tree := by
  rw [lenient?, trees, found]
  cases v with
  | null => cases given
  | _ => rfl

/-- A member that was left out because it is `null` is read back as such. -/
theorem optional?_free (found : members.lookup name = if v.isNull then none else some v)
    (canonical : v.Each Value.IsCanonical) (doubles : v.Each Value.ReadsBack) (room : Nat) :
    optional? (Value.ofTree? room) .null named name = some v ↔
      v.depth ≤ room ∧ v.Each Value.OpensPlainly := by
  cases given : v.isNull with
  | true =>
    have isNull : v = .null := by
      cases v with
      | null => rfl
      | _ => cases given
    rw [optional?, trees, found, given, isNull]
    simp [Value.depth, Value.OpensPlainly]
  | false =>
    rw [optional?, trees, found, given]
    exact Value.ofTree?_tree room canonical doubles

end

theorem option?_of_ne_null {t : Tree} (given : t ≠ .null) :
    option? decode t = (decode t).map some := by
  cases t with
  | null => exact absurd rfl given
  | _ => rfl

/-! ## What can be read -/

/-- A table is read from an object whose keys have texts and whose values are decoded. -/
theorem exists_table?_iff {t : Tree} : (∃ table, t.table? decode = some table) ↔
    ∃ members, t = .object members ∧
      ∀ m ∈ members, (∃ key, m.1.text? = some key) ∧ ∃ a, decode m.2 = some a := by
  cases t with
  | object members =>
    have one (m : Literal × Tree) : (∃ e, (do
        let key ← m.1.text?
        let value ← decode m.2
        return (key, value)) = some e) ↔
        (∃ key, m.1.text? = some key) ∧ ∃ a, decode m.2 = some a := by
      cases m.1.text? <;> cases decode m.2 <;> simp
    have all := exists_mapM_eq_some_iff.trans (forall₂_congr fun m (_ : m ∈ members) => one m)
    constructor
    · rintro ⟨_, read⟩
      obtain ⟨entries, found, -⟩ := Option.bind_eq_some_iff.1 read
      exact ⟨members, rfl, all.1 ⟨entries, found⟩⟩
    · rintro ⟨_, same, each⟩
      cases same
      obtain ⟨entries, found⟩ := all.2 each
      exact ⟨_, Option.bind_eq_some_iff.2 ⟨entries, found, rfl⟩⟩
  | _ => simp [table?]

/-- A list is read from an array whose elements are decoded. -/
theorem exists_list?_iff {t : Tree} : (∃ l, t.list? decode = some l) ↔
    ∃ elements, t = .array elements ∧ ∀ t ∈ elements, ∃ a, decode t = some a := by
  cases t with
  | array elements => simp [list?, exists_mapM_eq_some_iff]
  | _ => simp [list?]

end ErrorIntake.Json.Tree
