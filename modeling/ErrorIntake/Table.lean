/-!
# Tables

A table is a finite map from texts to values, kept in the order of its keys.  Keys are ordered by
code point, which is also the order of their UTF-8 octets.  Two tables with the same entries are
equal, and `get?` after `insert` tells the last value given to a key.
-/

namespace ErrorIntake

/-- A finite map from texts, in key order and with one entry for a key. -/
structure Table (α : Type) where
  entries : List (String × α)
  sorted : entries.Pairwise fun a b => a.1 < b.1

namespace Table

variable {α β : Type}

/-- The entries with one more: it replaces an entry of the same key. -/
def insertEntry (key : String) (value : α) : List (String × α) → List (String × α)
  | [] => [(key, value)]
  | entry :: rest =>
    if key < entry.1 then (key, value) :: entry :: rest
    else if key = entry.1 then (key, value) :: rest
    else entry :: insertEntry key value rest

theorem mem_insertEntry {key : String} {value : α} {entries : List (String × α)}
    {e : String × α} (h : e ∈ insertEntry key value entries) : e = (key, value) ∨ e ∈ entries := by
  induction entries with
  | nil => simpa [insertEntry] using h
  | cons first rest ih =>
    simp only [insertEntry] at h
    split at h
    · simpa using h
    · split at h
      · rcases List.mem_cons.1 h with h | h
        · exact .inl h
        · exact .inr (List.mem_cons_of_mem _ h)
      · rcases List.mem_cons.1 h with h | h
        · exact .inr (h ▸ List.mem_cons_self)
        · exact (ih h).imp_right (List.mem_cons_of_mem _)

theorem insertEntry_sorted (key : String) (value : α) {entries : List (String × α)}
    (h : entries.Pairwise fun a b => a.1 < b.1) :
    (insertEntry key value entries).Pairwise fun a b => a.1 < b.1 := by
  induction entries with
  | nil => simp [insertEntry]
  | cons first rest ih =>
    obtain ⟨below, sortedRest⟩ := List.pairwise_cons.1 h
    simp only [insertEntry]
    split
    · next hlt =>
      refine List.pairwise_cons.2 ⟨fun e he => ?_, h⟩
      rcases List.mem_cons.1 he with he | he
      · exact he ▸ hlt
      · exact String.lt_trans hlt (below e he)
    · next hge =>
      split
      · next heq => exact List.pairwise_cons.2 ⟨fun e he => heq ▸ below e he, sortedRest⟩
      · next hne =>
        have hgt : first.1 < key := Std.lt_of_le_of_ne (String.not_lt.1 hge) (Ne.symm hne)
        refine List.pairwise_cons.2 ⟨fun e he => ?_, ih sortedRest⟩
        rcases mem_insertEntry he with he | he
        · exact he ▸ hgt
        · exact below e he

/-- The table without entries. -/
def empty : Table α := ⟨[], .nil⟩

instance : EmptyCollection (Table α) := ⟨empty⟩

instance : Inhabited (Table α) := ⟨empty⟩

/-- The table with `value` under `key`, in place of any earlier value there. -/
def insert (t : Table α) (key : String) (value : α) : Table α :=
  ⟨insertEntry key value t.entries, insertEntry_sorted key value t.sorted⟩

/-- The value under a key. -/
def get? (t : Table α) (key : String) : Option α := t.entries.lookup key

/-- Some value stands under the key. -/
def contains (t : Table α) (key : String) : Bool := (t.get? key).isSome

/-- The table without the key. -/
def erase (t : Table α) (key : String) : Table α :=
  ⟨t.entries.filter fun entry => entry.1 != key, t.sorted.filter _⟩

/-- The table has no entry. -/
def isEmpty (t : Table α) : Bool := t.entries.isEmpty

/-- The table of some entries; of two with one key the later stays. -/
def ofList (entries : List (String × α)) : Table α :=
  entries.foldl (fun t entry => t.insert entry.1 entry.2) empty

/-- The keys in their order. -/
def keys (t : Table α) : List String := t.entries.map (·.1)

@[ext] theorem ext {a b : Table α} (h : a.entries = b.entries) : a = b := by
  cases a; cases b; cases h; rfl

instance [DecidableEq α] : DecidableEq (Table α) := fun a b =>
  if h : a.entries = b.entries then .isTrue (Table.ext h)
  else .isFalse fun e => h (e ▸ rfl)

instance [Repr α] : Repr (Table α) := ⟨fun t n => reprPrec t.entries n⟩

@[simp] theorem get?_empty (key : String) : (empty : Table α).get? key = none := rfl

theorem lookup_cons_of_ne {key other : String} (value : α) (rest : List (String × α))
    (h : ¬ other = key) : ((key, value) :: rest).lookup other = rest.lookup other := by
  have hb : (other == key) = false := by simpa using h
  simp [List.lookup_cons, hb]

theorem lookup_insertEntry (key other : String) (value : α) (entries : List (String × α)) :
    (insertEntry key value entries).lookup other =
      if other = key then some value else entries.lookup other := by
  induction entries with
  | nil =>
    by_cases h : other = key
    · subst h; simp [insertEntry]
    · simp [insertEntry, lookup_cons_of_ne value [] h, h]
  | cons first rest ih =>
    obtain ⟨k, v⟩ := first
    simp only [insertEntry]
    split
    · by_cases h : other = key
      · subst h; simp
      · simp [lookup_cons_of_ne value _ h, h]
    · split
      · next heq =>
        subst heq
        by_cases h : other = key
        · subst h; simp
        · simp [lookup_cons_of_ne _ _ h, h]
      · next hne =>
        by_cases h : other = k
        · subst h
          have hk : ¬ other = key := fun e => hne e.symm
          simp [hk]
        · simp [lookup_cons_of_ne _ _ h, ih]

/-- A key tells the last value given to it. -/
@[simp] theorem get?_insert (t : Table α) (key other : String) (value : α) :
    (t.insert key value).get? other = if other = key then some value else t.get? other :=
  lookup_insertEntry key other value t.entries

/-- A table of some entries has no others. -/
theorem mem_of_mem_ofList {entries : List (String × α)} {e : String × α}
    (h : e ∈ (ofList entries).entries) : e ∈ entries := by
  have added : ∀ (entries : List (String × α)) (t : Table α),
      e ∈ (entries.foldl (fun t e => t.insert e.1 e.2) t).entries → e ∈ t.entries ∨ e ∈ entries := by
    intro entries
    induction entries with
    | nil => exact fun t h => .inl h
    | cons first rest ih =>
      intro t h
      rcases ih _ h with h | h
      · rcases mem_insertEntry h with h | h
        · exact .inr (h ▸ List.mem_cons_self)
        · exact .inl h
      · exact .inr (List.mem_cons_of_mem _ h)
  rcases added entries empty h with h | h
  · cases h
  · exact h

end Table

end ErrorIntake
