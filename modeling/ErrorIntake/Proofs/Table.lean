import ErrorIntake.Table
import Mathlib.Data.List.Forall2
import Mathlib.Data.List.Nodup

/-!
# Tables of given entries

Entries that are in key order already are the entries of their table.
-/

namespace ErrorIntake

variable {α β : Type}

/-- A list has a meaning if each of its elements has one. -/
theorem mapM_eq_some_iff {f : α → Option β} {l : List α} {out : List β} :
    l.mapM f = some out ↔ List.Forall₂ (fun a b => f a = some b) l out := by
  induction l generalizing out with
  | nil =>
    rw [List.mapM_nil, List.forall₂_nil_left_iff]
    exact ⟨fun h => (Option.some.inj h).symm, fun h => congrArg some h.symm⟩
  | cons a rest ih =>
    rw [List.mapM_cons, List.forall₂_cons_left_iff]
    constructor
    · intro h
      obtain ⟨b, ha, h⟩ := Option.bind_eq_some_iff.1 h
      obtain ⟨bs, hrest, h⟩ := Option.bind_eq_some_iff.1 h
      exact ⟨b, bs, ha, ih.1 hrest, (Option.some.inj h).symm⟩
    · rintro ⟨b, bs, ha, hrest, rfl⟩
      rw [ha, ih.2 hrest]
      rfl

theorem map_eq_of_mapM {f : α → Option β} {l : List α} {out : List β} (h : l.mapM f = some out) :
    l.map f = out.map some := by
  rw [← List.forall₂_eq_eq_eq, List.forall₂_map_left_iff, List.forall₂_map_right_iff]
  exact mapM_eq_some_iff.1 h

/-- A list whose elements were written is read back if each of them is. -/
theorem mapM_map_eq_some_iff {f : α → Option β} {g : β → α} {l : List β} :
    (l.map g).mapM f = some l ↔ ∀ b ∈ l, f (g b) = some b := by
  rw [mapM_eq_some_iff, List.forall₂_map_left_iff, List.forall₂_same]

/-- A list has a meaning exactly if all of its elements have one. -/
theorem exists_mapM_eq_some_iff {f : α → Option β} {l : List α} :
    (∃ out, l.mapM f = some out) ↔ ∀ a ∈ l, ∃ b, f a = some b := by
  simp only [mapM_eq_some_iff]
  induction l with
  | nil => simp
  | cons a rest ih => simp [List.forall₂_cons_left_iff, ← ih]

namespace Table

@[simp] theorem entries_empty : (∅ : Table α).entries = [] := rfl

/-- A key behind all others goes to the end. -/
theorem insertEntry_append {key : String} (value : α) {entries : List (String × α)}
    (behind : ∀ e ∈ entries, e.1 < key) :
    insertEntry key value entries = entries ++ [(key, value)] := by
  induction entries with
  | nil => rfl
  | cons first rest ih =>
    have before := behind first List.mem_cons_self
    have notBehind : ¬ key < first.1 := fun h => String.lt_irrefl _ (String.lt_trans h before)
    have other : ¬ key = first.1 := fun h => String.lt_irrefl _ (h ▸ before)
    rw [insertEntry, if_neg notBehind, if_neg other, List.cons_append,
      ih fun e he => behind e (List.mem_cons_of_mem _ he)]

theorem entries_ofList {entries : List (String × α)}
    (sorted : entries.Pairwise fun a b => a.1 < b.1) : (ofList entries).entries = entries := by
  have added : ∀ (entries : List (String × α)) (t : Table α),
      (t.entries ++ entries).Pairwise (fun a b => a.1 < b.1) →
      (entries.foldl (fun t e => t.insert e.1 e.2) t).entries = t.entries ++ entries := by
    intro entries
    induction entries with
    | nil => simp
    | cons e rest ih =>
      intro t sorted
      have behind : ∀ x ∈ t.entries, x.1 < e.1 :=
        fun x hx => (List.pairwise_append.1 sorted).2.2 x hx e List.mem_cons_self
      have inserted : (t.insert e.1 e.2).entries = t.entries ++ [e] :=
        insertEntry_append e.2 behind
      rw [List.foldl_cons, ih, inserted, List.append_assoc]
      · rfl
      · rw [inserted, List.append_assoc]
        exact sorted
  exact added entries empty sorted

@[simp] theorem ofList_entries (t : Table α) : ofList t.entries = t :=
  ext (entries_ofList t.sorted)

/-! ## What stands under a key -/

variable {t : Table α} {key other : String} {value : α}

theorem nodup_keys (t : Table α) : t.keys.Nodup := by
  refine List.pairwise_map.2 (t.sorted.imp fun {x y} lt same => ?_)
  rw [same] at lt
  exact String.lt_irrefl _ lt

/-- In a list without repeated keys, a key tells its only value. -/
theorem lookup_eq_some_iff {entries : List (String × α)} (once : (entries.map Prod.fst).Nodup) :
    entries.lookup key = some value ↔ (key, value) ∈ entries := by
  induction entries with
  | nil => simp
  | cons first rest ih =>
    obtain ⟨k, v⟩ := first
    obtain ⟨new, once⟩ := List.nodup_cons.1 once
    by_cases same : key = k
    · subst same
      rw [List.lookup_cons_self, List.mem_cons]
      constructor
      · intro found
        cases found
        exact .inl rfl
      · rintro (here | later)
        · cases here
          rfl
        · exact absurd (List.mem_map_of_mem later) new
    · rw [lookup_cons_of_ne _ _ same, ih once, List.mem_cons]
      simp [same]

theorem get?_eq_some_iff : t.get? key = some value ↔ (key, value) ∈ t.entries :=
  lookup_eq_some_iff t.nodup_keys

theorem mem_keys_iff : key ∈ t.keys ↔ ∃ value, t.get? key = some value := by
  simp only [get?_eq_some_iff, keys, List.mem_map]
  constructor
  · rintro ⟨⟨k, v⟩, member, rfl⟩
    exact ⟨v, member⟩
  · rintro ⟨v, member⟩
    exact ⟨(key, v), member, rfl⟩

theorem get?_eq_none_iff : t.get? key = none ↔ key ∉ t.keys := by
  rw [mem_keys_iff, Option.eq_none_iff_forall_ne_some, not_exists]

/-- A key that is erased has no value, and the others keep theirs. -/
theorem get?_erase (t : Table α) (key other : String) :
    (t.erase key).get? other = if other = key then none else t.get? other := by
  by_cases same : other = key
  · subst same
    rw [if_pos rfl, get?_eq_none_iff, keys, List.mem_map]
    rintro ⟨e, member, same⟩
    have apart := (List.mem_filter.1 member).2
    simp [same] at apart
  · rw [if_neg same]
    refine Option.ext fun v => ?_
    rw [get?_eq_some_iff, get?_eq_some_iff, erase, List.mem_filter]
    simp [same]

theorem keys_erase (t : Table α) (key : String) :
    (t.erase key).keys = t.keys.filter (· != key) := by
  rw [keys, keys, erase, List.filter_map]
  rfl

/-- A table with a key has this key and those that it has without it. -/
theorem keys_perm_erase (found : t.get? key = some value) :
    t.keys.Perm (key :: (t.erase key).keys) := by
  refine (List.perm_ext_iff_of_nodup t.nodup_keys ?_).2 fun k => ?_
  · rw [List.nodup_cons, keys_erase]
    exact ⟨by simp, t.nodup_keys.filter _⟩
  · rw [keys_erase, List.mem_cons, List.mem_filter]
    have there : key ∈ t.keys := mem_keys_iff.2 ⟨value, found⟩
    by_cases same : k = key
    · simp [same, there]
    · simp [same]

/-- A new key adds its entry to the others. -/
theorem entries_insert_perm {t : Table α} {key : String} (new : key ∉ t.keys) (value : α) :
    (t.insert key value).entries.Perm ((key, value) :: t.entries) := by
  have once : ((key, value) :: t.entries).Nodup :=
    List.Nodup.of_map Prod.fst (List.nodup_cons.2 ⟨new, t.nodup_keys⟩)
  refine (List.perm_ext_iff_of_nodup (t.insert key value).nodup_keys.of_map once).2 fun e => ?_
  rw [List.mem_cons, ← get?_eq_some_iff, get?_insert, ← get?_eq_some_iff]
  by_cases same : e.1 = key
  · have absent : t.get? e.1 = none := get?_eq_none_iff.2 (same ▸ new)
    rw [if_pos same, absent]
    simp [Prod.ext_iff, same, eq_comm]
  · simp [Prod.ext_iff, same]

theorem eq_empty_of_isEmpty {t : Table α} (empty : t.isEmpty = true) : t = ∅ :=
  ext (List.isEmpty_iff.1 empty)

theorem isEmpty_eq_false_iff {t : Table α} : t.isEmpty = false ↔ t ≠ ∅ := by
  constructor
  · rintro filled rfl
    cases filled
  · intro filled
    exact Bool.eq_false_iff.2 fun empty => filled (eq_empty_of_isEmpty empty)

theorem get?_foldl_erase {β : Type} (name : β → String) (l : List β) (t : Table α) (key : String) :
    (l.foldl (fun t b => t.erase (name b)) t).get? key =
      if key ∈ l.map name then none else t.get? key := by
  induction l generalizing t with
  | nil => simp
  | cons b rest ih =>
    rw [List.foldl_cons, ih, get?_erase]
    by_cases same : key = name b
    · simp [same]
    · simp [same]

/-- Of the values that are inserted under a key in turn, the last one stays. -/
theorem get?_foldl_insert {β : Type} (name : β → String) (value : β → α) (l : List β) (t : Table α)
    (key : String) :
    (l.foldl (fun t b => t.insert (name b) (value b)) t).get? key =
      ((l.map fun b => (name b, value b)).reverse.lookup key).or (t.get? key) := by
  induction l generalizing t with
  | nil => rfl
  | cons b rest ih =>
    rw [List.foldl_cons, ih, get?_insert, List.map_cons, List.reverse_cons, List.lookup_append,
      Option.or_assoc]
    congr 1
    by_cases same : key = name b
    · simp [same]
    · rw [if_neg same, lookup_cons_of_ne _ _ same]
      rfl

theorem get?_ofList (entries : List (String × α)) (key : String) :
    (ofList entries).get? key = entries.reverse.lookup key := by
  have last := get?_foldl_insert Prod.fst Prod.snd entries (empty : Table α) key
  rw [get?_empty, Option.or_none, List.map_id''] at last
  · exact last
  · exact fun _ => rfl

theorem lookup_reverse {entries : List (String × α)} (once : (entries.map Prod.fst).Nodup)
    (key : String) : entries.reverse.lookup key = entries.lookup key := by
  have onceReversed : (entries.reverse.map Prod.fst).Nodup := by
    rw [List.map_reverse]
    exact List.nodup_reverse.2 once
  refine Option.ext fun v => ?_
  rw [lookup_eq_some_iff onceReversed, lookup_eq_some_iff once, List.mem_reverse]

theorem lookup_map (f : α → β) (entries : List (String × α)) (key : String) :
    (entries.map fun e => (e.1, f e.2)).lookup key = (entries.lookup key).map f := by
  induction entries with
  | nil => rfl
  | cons e rest ih =>
    by_cases same : key = e.1
    · subst same
      rw [List.map_cons, List.lookup_cons_self, List.lookup_cons_self, Option.map_some]
    · rw [List.map_cons, lookup_cons_of_ne _ _ same, lookup_cons_of_ne _ _ same, ih]

/-- Tables that tell the same under every key are the same. -/
theorem ext_get? {t t' : Table α} (same : ∀ key, t.get? key = t'.get? key) : t = t' := by
  have entries : t.entries.Perm t'.entries := by
    refine (List.perm_ext_iff_of_nodup t.nodup_keys.of_map t'.nodup_keys.of_map).2 fun e => ?_
    rw [← get?_eq_some_iff, ← get?_eq_some_iff, same]
  refine ext (entries.eq_of_pairwise (fun a b _ _ before behind => ?_) t.sorted t'.sorted)
  exact absurd (String.lt_trans before behind) (String.lt_irrefl _)

/-- Values under keys of their own may be inserted in any order. -/
theorem foldl_insert_perm {β : Type} (name : β → String) (value : β → α) {l l' : List β}
    (same : l.Perm l') (once : (l.map name).Nodup) (t : Table α) :
    l.foldl (fun t b => t.insert (name b) (value b)) t =
      l'.foldl (fun t b => t.insert (name b) (value b)) t := by
  have turned {l : List β} (once : (l.map name).Nodup) :
      ((l.map fun b => (name b, value b)).reverse.map Prod.fst).Nodup := by
    rw [List.map_reverse, List.map_map]
    exact List.nodup_reverse.2 once
  refine ext_get? fun key => ?_
  rw [get?_foldl_insert, get?_foldl_insert]
  congr 1
  refine Option.ext fun v => ?_
  rw [lookup_eq_some_iff (turned once), lookup_eq_some_iff (turned ((same.map name).nodup once)),
    List.mem_reverse, List.mem_reverse]
  exact (same.map _).mem_iff

/-- Of the entries with a key, the last one tells its value. -/
theorem get?_ofList_eq_some_iff {entries : List (String × α)} {key : String} {value : α} :
    (ofList entries).get? key = some value ↔
      ∃ before after, entries = before ++ (key, value) :: after ∧ ∀ e ∈ after, e.1 ≠ key := by
  rw [get?_ofList, List.lookup_eq_some_iff]
  constructor
  · rintro ⟨after, before, split, others⟩
    refine ⟨before.reverse, after.reverse, ?_, fun e member same => ?_⟩
    · rw [← List.reverse_reverse entries, split]
      simp
    · have other := others e (List.mem_reverse.1 member)
      simp [same] at other
  · rintro ⟨before, after, rfl, others⟩
    refine ⟨after.reverse, before.reverse, by simp, fun e member => ?_⟩
    simpa using Ne.symm (others e (List.mem_reverse.1 member))

/-- A table of entries under keys of their own has these entries. -/
theorem entries_ofList_perm {entries : List (String × α)} (once : (entries.map Prod.fst).Nodup) :
    (ofList entries).entries.Perm entries := by
  refine (List.perm_ext_iff_of_nodup (ofList entries).nodup_keys.of_map once.of_map).2 fun e => ?_
  rw [← get?_eq_some_iff, get?_ofList, lookup_reverse once, lookup_eq_some_iff once]

end Table

end ErrorIntake
