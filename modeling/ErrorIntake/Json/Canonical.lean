import ErrorIntake.Json.Decode

/-!
# Canonical values

Every value of the program has its keys in order, and its integers fit 64 bits, with sign or without.
`Each p` says that `p` holds of a value and of everything inside it; a value is canonical throughout
if it was read, and so is one that is put together of canonical values.
-/

namespace ErrorIntake.Json

namespace Number

/-- The integer is one that numerals can spell. -/
def IsSpelled (n : Int) : Prop := -9223372036854775808 ≤ n ∧ n ≤ 18446744073709551615

/-- The integer of a numeral is one that numerals can spell. -/
theorem isSpelled_of_toInt? {m : Numeral} {n : Int} (h : m.toInt? = some n) : IsSpelled n := by
  have limit : Numeral.significandLimit = 18446744073709551616 := rfl
  simp only [Numeral.toInt?, Option.ite_none_right_eq_some] at h
  obtain ⟨_, h⟩ := h
  simp only [IsSpelled]
  split at h
  · rw [Option.ite_none_right_eq_some, Option.some.injEq] at h
    omega
  · rw [Option.ite_none_right_eq_some, Option.some.injEq] at h
    omega

end Number

namespace Value

/-! ## Everything inside a value -/

/-- A value stands inside another, or is that value. -/
inductive Occurs (w : Value) : Value → Prop
  | here : Occurs w w
  | element {elements : List Value} {v : Value} (member : v ∈ elements) (inside : Occurs w v) :
      Occurs w (.array elements)
  | member {members : List (String × Value)} {m : String × Value} (member : m ∈ members)
      (inside : Occurs w m.2) : Occurs w (.object members)

/-- Something holds of a value and of everything inside it. -/
def Each (p : Value → Prop) (v : Value) : Prop := ∀ w, Occurs w v → p w

variable {p : Value → Prop}

theorem Each.self {v : Value} (h : v.Each p) : p v := h v .here

@[simp] theorem each_null : null.Each p ↔ p .null := by
  refine ⟨Each.self, fun h w inside => ?_⟩
  cases inside
  exact h

@[simp] theorem each_bool {b : Bool} : (bool b).Each p ↔ p (.bool b) := by
  refine ⟨Each.self, fun h w inside => ?_⟩
  cases inside
  exact h

@[simp] theorem each_number {n : Number} : (number n).Each p ↔ p (.number n) := by
  refine ⟨Each.self, fun h w inside => ?_⟩
  cases inside
  exact h

@[simp] theorem each_string {s : String} : (string s).Each p ↔ p (.string s) := by
  refine ⟨Each.self, fun h w inside => ?_⟩
  cases inside
  exact h

@[simp] theorem each_array {elements : List Value} :
    (array elements).Each p ↔ p (.array elements) ∧ ∀ v ∈ elements, v.Each p := by
  constructor
  · intro h
    exact ⟨h.self, fun v member w inside => h w (.element member inside)⟩
  · rintro ⟨self, inner⟩ w inside
    cases inside with
    | here => exact self
    | element member inside => exact inner _ member w inside

@[simp] theorem each_object {members : List (String × Value)} :
    (object members).Each p ↔ p (.object members) ∧ ∀ m ∈ members, m.2.Each p := by
  constructor
  · intro h
    exact ⟨h.self, fun m member w inside => h w (.member member inside)⟩
  · rintro ⟨self, inner⟩ w inside
    cases inside with
    | here => exact self
    | member member inside => exact inner _ member w inside

mutual

/-- Whether something holds of a value and of everything inside it. -/
def decEach (p : Value → Prop) [DecidablePred p] : (v : Value) → Decidable (v.Each p)
  | .null => decidable_of_iff _ each_null.symm
  | .bool _ => decidable_of_iff _ each_bool.symm
  | .number _ => decidable_of_iff _ each_number.symm
  | .string _ => decidable_of_iff _ each_string.symm
  | .array elements =>
    let _ := decElements p elements
    decidable_of_iff _ each_array.symm
  | .object members =>
    let _ := decMembers p members
    decidable_of_iff _ each_object.symm

/-- Whether something holds of some elements and of everything inside them. -/
def decElements (p : Value → Prop) [DecidablePred p] :
    (vs : List Value) → Decidable (∀ v ∈ vs, v.Each p)
  | [] => .isTrue (List.forall_mem_nil _)
  | v :: rest =>
    let _ := decEach p v
    let _ := decElements p rest
    decidable_of_iff _ List.forall_mem_cons.symm

/-- Whether something holds of some members and of everything inside them. -/
def decMembers (p : Value → Prop) [DecidablePred p] :
    (ms : List (String × Value)) → Decidable (∀ m ∈ ms, m.2.Each p)
  | [] => .isTrue (List.forall_mem_nil _)
  | (key, v) :: rest =>
    let _ := decEach p v
    let _ := decMembers p rest
    decidable_of_iff (v.Each p ∧ ∀ m ∈ rest, m.2.Each p) (by simp)

end

instance [DecidablePred p] : DecidablePred (Each p) := decEach p

/-! ## Canonical values -/

/-- An object has its keys in order, and an integer is one that numerals can spell. -/
def IsCanonical : Value → Prop
  | .object members => members.Pairwise fun a b => a.1 < b.1
  | .number (.integer n) => Number.IsSpelled n
  | _ => True

theorem isCanonical_string (s : String) : (string s).Each IsCanonical :=
  each_string.2 trivial

theorem isCanonical_bool (b : Bool) : (bool b).Each IsCanonical :=
  each_bool.2 trivial

theorem isCanonical_ofInt {n : Int} (h : IsInt64 n) : (ofInt n).Each IsCanonical := by
  have spelled : Number.IsSpelled n := ⟨h.1, by omega⟩
  exact each_number.2 spelled

theorem isCanonical_array {elements : List Value} (h : ∀ v ∈ elements, v.Each IsCanonical) :
    (array elements).Each IsCanonical :=
  each_array.2 ⟨trivial, h⟩

theorem isCanonical_strings (texts : List String) :
    (array (texts.map string)).Each IsCanonical := by
  refine isCanonical_array fun v hv => ?_
  obtain ⟨s, _, rfl⟩ := List.mem_map.1 hv
  exact isCanonical_string s

theorem isCanonical_ofTexts (t : Table String) : (ofTexts t).Each IsCanonical := by
  refine each_object.2 ⟨List.pairwise_map.2 t.sorted, fun m hm => ?_⟩
  obtain ⟨e, _, rfl⟩ := List.mem_map.1 hm
  exact isCanonical_string e.2

theorem isCanonical_ofTable {entries : List (String × Value)}
    (h : ∀ e ∈ entries, e.2.Each IsCanonical) :
    (ofTable (.ofList entries)).Each IsCanonical :=
  each_object.2 ⟨(Table.ofList entries).sorted, fun m hm => h m (Table.mem_of_mem_ofList hm)⟩

/-! ## Values that were read -/

variable {embedded : Option (String → Option Value)} {room : Nat}

theorem ofElements?_eq_mapM (ts : List Tree) :
    ofElements? embedded room ts = ts.mapM (ofTreeWith? embedded room) := by
  induction ts with
  | nil => rfl
  | cons t rest ih =>
    rw [ofElements?, ih, List.mapM_cons]

/-- What a tree can mean, with room for so many containers inside one another. -/
inductive Means (embedded : Option (String → Option Value)) : Nat → Value → Prop
  | null {room : Nat} : Means embedded room .null
  | bool {room : Nat} (b : Bool) : Means embedded room (.bool b)
  | number {room : Nat} (m : Numeral) (n : Number) (stands : m.value? = some n) :
      Means embedded room (.number n)
  | string {room : Nat} (s : String) : Means embedded room (.string s)
  | array {room : Nat} (ts : List Tree) (vs : List Value)
      (inside : ts.mapM (ofTreeWith? embedded room) = some vs) :
      Means embedded (room + 1) (.array vs)
  | object {room : Nat} (ts : List (Literal × Tree)) (out : List (String × Value))
      (plain : embedded.isSome → isEmbedding ts = false)
      (inside : ofMembers? embedded room [] ts = some out) :
      Means embedded (room + 1) (.object out)
  /-- An object means what the text in it means. -/
  | embedding {room : Nat} (valueOf : String → Option Value) (same : embedded = some valueOf)
      (s : String) (v : Value) (inside : valueOf s = some v) : Means embedded (room + 1) v

theorem means_of_ofTreeWith? {t : Tree} {v : Value} (read : ofTreeWith? embedded room t = some v) :
    Means embedded room v := by
  cases t with
  | null =>
    cases read
    exact .null
  | bool b =>
    cases read
    exact .bool b
  | number m =>
    obtain ⟨n, stands, same⟩ := Option.map_eq_some_iff.1 read
    subst same
    exact .number m n stands
  | string l =>
    obtain ⟨s, _, same⟩ := Option.map_eq_some_iff.1 read
    subst same
    exact .string s
  | array ts =>
    cases room with
    | zero => cases read
    | succ room =>
      obtain ⟨vs, inside, same⟩ := Option.map_eq_some_iff.1 read
      subst same
      rw [ofElements?_eq_mapM] at inside
      exact .array ts vs inside
  | object ts =>
    cases room with
    | zero => cases read
    | succ room =>
      cases embedded with
      | none =>
        obtain ⟨out, inside, same⟩ := Option.map_eq_some_iff.1 read
        subst same
        exact .object ts out (by simp) inside
      | some valueOf =>
        rw [ofTreeWith?] at read
        split at read
        · obtain ⟨s, _, inside⟩ := Option.bind_eq_some_iff.1 read
          exact .embedding valueOf rfl s v inside
        · next plain =>
          obtain ⟨out, inside, same⟩ := Option.map_eq_some_iff.1 read
          subst same
          exact .object ts out (by simpa using plain) inside

/-- What holds of the members that were read before, and of every value that is read, holds of all
    members; they are in key order, and no key is lost. -/
theorem ofMembers?_members {p : Value → Prop}
    (values : ∀ t v, ofTreeWith? embedded room t = some v → p v) {ts : List (Literal × Tree)}
    {before out : List (String × Value)} (sorted : before.Pairwise fun a b => a.1 < b.1)
    (given : ∀ m ∈ before, p m.2) (h : ofMembers? embedded room before ts = some out) :
    out.Pairwise (fun a b => a.1 < b.1) ∧ (∀ m ∈ out, p m.2) ∧
      ∀ key, (before.lookup key).isSome → (out.lookup key).isSome := by
  induction ts generalizing before with
  | nil =>
    rw [ofMembers?] at h
    cases h
    exact ⟨sorted, given, fun key kept => kept⟩
  | cons t rest ih =>
    obtain ⟨l, t⟩ := t
    rw [ofMembers?] at h
    obtain ⟨key, _, h⟩ := Option.bind_eq_some_iff.1 h
    obtain ⟨v, found, h⟩ := Option.bind_eq_some_iff.1 h
    have given' : ∀ m ∈ Table.insertEntry key v before, p m.2 := by
      intro m hm
      rcases Table.mem_insertEntry hm with rfl | hm
      · exact values t v found
      · exact given m hm
    obtain ⟨sortedOut, holds, keys⟩ := ih (Table.insertEntry_sorted key v sorted) given' h
    refine ⟨sortedOut, holds, fun other kept => keys other ?_⟩
    rw [Table.lookup_insertEntry]
    split
    · rfl
    · exact kept

theorem isCanonical_of_value? {m : Numeral} {n : Number} (stands : m.value? = some n) :
    (number n).IsCanonical := by
  cases n with
  | float x => trivial
  | integer n =>
    rw [Numeral.value?] at stands
    split at stands
    · next found =>
      cases stands
      exact Number.isSpelled_of_toInt? found
    · obtain ⟨_, _, same⟩ := Option.map_eq_some_iff.1 stands
      cases same

theorem isCanonical_of_ofTreeWith?
    (inner : ∀ valueOf, embedded = some valueOf → ∀ s v, valueOf s = some v → v.Each IsCanonical)
    {t : Tree} {v : Value} (read : ofTreeWith? embedded room t = some v) :
    v.Each IsCanonical := by
  induction room generalizing t v with
  | zero =>
    cases means_of_ofTreeWith? read with
    | null => exact each_null.2 trivial
    | bool b => exact each_bool.2 trivial
    | number m n stands => exact each_number.2 (isCanonical_of_value? stands)
    | string s => exact each_string.2 trivial
  | succ room ih =>
    cases means_of_ofTreeWith? read with
    | null => exact each_null.2 trivial
    | bool b => exact each_bool.2 trivial
    | number m n stands => exact each_number.2 (isCanonical_of_value? stands)
    | string s => exact each_string.2 trivial
    | array ts vs inside =>
      refine each_array.2 ⟨trivial, fun v hv => ?_⟩
      obtain ⟨t, _, found⟩ := exists_of_mapM_eq_some inside hv
      exact ih found
    | object ts out _ inside =>
      obtain ⟨sorted, each, _⟩ :=
        ofMembers?_members (fun t v found => ih found) .nil (by simp) inside
      exact each_object.2 ⟨sorted, each⟩
    | embedding valueOf same s _ inside => exact inner valueOf same s v inside

theorem isCanonical_of_ofTextWithin? {fuel : Nat} {s : String} {v : Value}
    (read : ofTextWithin? fuel s = some v) : v.Each IsCanonical := by
  induction fuel generalizing s v with
  | zero => cases read
  | succ fuel ih =>
    obtain ⟨t, _, read⟩ := Option.bind_eq_some_iff.1 read
    refine isCanonical_of_ofTreeWith? (fun valueOf same s v read => ?_) read
    cases same
    exact ih read

/-- A value that was read is canonical. -/
theorem isCanonical_of_ofTree? {t : Tree} {v : Value} (read : ofTree? room t = some v) :
    v.Each IsCanonical := by
  refine isCanonical_of_ofTreeWith? (fun valueOf same s v read => ?_) read
  cases same
  exact isCanonical_of_ofTextWithin? read

end Value

end ErrorIntake.Json
