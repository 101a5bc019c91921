import ErrorIntake.Json.Value

/-!
# Decoding JSON

Decoders read a tree as a value of one type, and have none where it does not fit.  A record is
read from an object, whose unknown members are skipped and whose known members may stand once
only, or from an array that gives its members by position.  What holds of all that a decoder can
give holds of the parts of a list, a table or a record that are read with it.
-/

namespace ErrorIntake

/-- What a list is decoded as was made of its elements. -/
theorem exists_of_mapM_eq_some {α β : Type} {f : α → Option β} {l : List α} {out : List β}
    (h : l.mapM f = some out) {b : β} (hb : b ∈ out) : ∃ a ∈ l, f a = some b := by
  induction l generalizing out with
  | nil =>
    rw [List.mapM_nil] at h
    cases h
    cases hb
  | cons a rest ih =>
    rw [List.mapM_cons] at h
    obtain ⟨first, found, h⟩ := Option.bind_eq_some_iff.1 h
    obtain ⟨others, read, same⟩ := Option.bind_eq_some_iff.1 h
    cases same
    rcases List.mem_cons.1 hb with rfl | hb
    · exact ⟨a, List.mem_cons_self, found⟩
    · obtain ⟨a', member, found'⟩ := ih read hb
      exact ⟨a', List.mem_cons_of_mem _ member, found'⟩

end ErrorIntake

namespace ErrorIntake.Json.Tree

/-- A text. -/
def text? : Tree → Option String
  | .string l => l.text?
  | _ => none

/-- A truth value. -/
def bool? : Tree → Option Bool
  | .bool b => some b
  | _ => none

/-- An integer that fits 64 bits, with sign or without. -/
def integer? : Tree → Option Int
  | .number n => n.toInt?
  | _ => none

/-- An integer of 64 bits with sign. -/
def int64? (t : Tree) : Option Int := t.integer?.filter fun n => IsInt64 n

/-- An integer of 32 bits with sign. -/
def int32? (t : Tree) : Option Int := t.integer?.filter fun n => IsInt32 n

/-- An integer of 32 bits without sign. -/
def nat32? (t : Tree) : Option Nat :=
  (t.integer?.filter fun n => 0 ≤ n ∧ IsNat32 n.toNat).map Int.toNat

/-- The elements of an array, each decoded. -/
def list? (decode : Tree → Option α) : Tree → Option (List α)
  | .array elements => elements.mapM decode
  | _ => none

/-- `null` as nothing, anything else decoded. -/
def option? (decode : Tree → Option α) : Tree → Option (Option α)
  | .null => some none
  | t => (decode t).map some

/-- The members of an object as a table, each decoded; a repeated key keeps its last member. -/
def table? (decode : Tree → Option α) : Tree → Option (Table α)
  | .object members => do
    let entries ← members.mapM fun (l, t) => do
      let key ← l.text?
      let value ← decode t
      return (key, value)
    return Table.ofList entries
  | _ => none

/-- How many members of an object have a name. -/
def occurrences (named : List (String × Tree)) (name : String) : Nat :=
  named.countP fun m => m.1 == name

/-- The members of a record whose names are given in their order.  What stands for a name is found
    by `lookup`, and is nothing for a member that is left out. -/
def record? (names : List String) : Tree → Option (List (String × Tree))
  | .object members => do
    let named ← members.mapM fun (l, t) => l.text?.map fun name => (name, t)
    if names.all fun name => occurrences named name ≤ 1 then some named else none
  | .array elements =>
    if elements.length ≤ names.length then some (names.zip elements) else none
  | _ => none

/-- A member that must be there. -/
def required? (decode : Tree → Option α) (members : List (String × Tree)) (name : String) :
    Option α :=
  match members.lookup name with
  | some t => decode t
  | none => none

/-- A member that may be left out. -/
def optional? (decode : Tree → Option α) (default : α) (members : List (String × Tree))
    (name : String) : Option α :=
  match members.lookup name with
  | some t => decode t
  | none => some default

/-- A member that may be left out, or be `null`, which says the same. -/
def lenient? (decode : Tree → Option α) (default : α) (members : List (String × Tree))
    (name : String) : Option α :=
  match members.lookup name with
  | some .null => some default
  | some t => decode t
  | none => some default

/-! ## Properties of what was read -/

variable {α : Type} {decode : Tree → Option α}

/-- What a table holds was decoded from a member of an object. -/
theorem exists_of_table? {t : Tree} {table : Table α} (read : t.table? decode = some table)
    {e : String × α} (he : e ∈ table.entries) :
    ∃ members, t = .object members ∧ ∃ m ∈ members, decode m.2 = some e.2 := by
  cases t with
  | object members =>
    obtain ⟨entries, inside, same⟩ := Option.bind_eq_some_iff.1 read
    cases same
    obtain ⟨m, hm, found⟩ := exists_of_mapM_eq_some inside (Table.mem_of_mem_ofList he)
    obtain ⟨key, _, found⟩ := Option.bind_eq_some_iff.1 found
    obtain ⟨a, isValue, same⟩ := Option.bind_eq_some_iff.1 found
    cases same
    exact ⟨members, rfl, m, hm, isValue⟩
  | _ => cases read

theorem int64?_range {t : Tree} {n : Int} (read : t.int64? = some n) : IsInt64 n := by
  obtain ⟨_, fits⟩ := Option.filter_eq_some_iff.1 read
  exact of_decide_eq_true fits

variable {p : α → Prop} (values : ∀ t a, decode t = some a → p a)
include values

/-- What holds of everything that is decoded holds of what is not `null`. -/
theorem option?_spec {t : Tree} {a? : Option α} (read : t.option? decode = some a?) :
    ∀ a, a? = some a → p a := by
  rintro a rfl
  unfold option? at read
  split at read
  · cases read
  · obtain ⟨b, found, same⟩ := Option.map_eq_some_iff.1 read
    cases same
    exact values _ _ found

theorem required?_spec {members : List (String × Tree)} {name : String} {a : α}
    (read : required? decode members name = some a) : p a := by
  unfold required? at read
  split at read
  · exact values _ _ read
  · cases read

theorem lenient?_spec {default : α} (given : p default) {members : List (String × Tree)}
    {name : String} {a : α} (read : lenient? decode default members name = some a) : p a := by
  unfold lenient? at read
  split at read
  · cases read
    exact given
  · exact values _ _ read
  · cases read
    exact given

theorem optional?_spec {default : α} (given : p default) {members : List (String × Tree)}
    {name : String} {a : α} (read : optional? decode default members name = some a) : p a := by
  unfold optional? at read
  split at read
  · exact values _ _ read
  · cases read
    exact given

theorem list?_spec {t : Tree} {l : List α} (read : t.list? decode = some l) : ∀ a ∈ l, p a := by
  intro a ha
  cases t with
  | array elements =>
    obtain ⟨t, _, found⟩ := exists_of_mapM_eq_some read ha
    exact values t a found
  | _ => cases read

theorem table?_spec {t : Tree} {table : Table α} (read : t.table? decode = some table) :
    ∀ e ∈ table.entries, p e.2 := by
  intro e he
  obtain ⟨_, _, m, _, isValue⟩ := exists_of_table? read he
  exact values m.2 e.2 isValue

end ErrorIntake.Json.Tree
