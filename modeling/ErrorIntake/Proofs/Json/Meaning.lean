import ErrorIntake.Proofs.Json.Text
import ErrorIntake.Proofs.Table

/-!
# The meaning of printed values

A value has back the meaning of its text where it is not nested too deep for the reader and no
object in it opens like an embedded text.  No text means an object that embeds a text itself.
-/

namespace ErrorIntake.Json

namespace Value

variable {embedded : Option (String → Option Value)} {room : Nat}

/-- Members that stand in key order are read one by one. -/
theorem ofMembers?_memberTrees (before members : List (String × Value))
    (sorted : ((before ++ members).map Prod.fst).Pairwise (· < ·)) :
    ofMembers? embedded room before (memberTrees members) =
      (members.mapM fun m => (ofTreeWith? embedded room m.2.tree).map fun v => (m.1, v)).map
        (before ++ ·) := by
  induction members generalizing before with
  | nil => simp [memberTrees, ofMembers?]
  | cons m rest ih =>
    obtain ⟨key, v⟩ := m
    rw [memberTrees, ofMembers?, Literal.text?_ofText, List.mapM_cons]
    simp only [Option.bind_eq_bind, Option.bind_some]
    cases found : ofTreeWith? embedded room v.tree with
    | none => rfl
    | some w =>
      rw [List.map_append, List.map_cons] at sorted
      have behind : ∀ e ∈ before, e.1 < key := by
        intro e he
        exact (List.pairwise_append.1 sorted).2.2 e.1 (List.mem_map_of_mem he) key
          List.mem_cons_self
      have sorted' : ((before ++ [(key, w)] ++ rest).map Prod.fst).Pairwise (· < ·) := by
        simpa using sorted
      simp only [Option.bind_some, Option.map_some]
      rw [Table.insertEntry_append w behind, ih _ sorted']
      cases rest.mapM fun m => (ofTreeWith? embedded room m.2.tree).map fun v => (m.1, v) with
      | none => rfl
      | some out => simp

/-! ## Embedded texts -/

/-- No text means an object whose only member has the key of embedded texts. -/
def EmbedsNothing (valueOf : String → Option Value) : Prop :=
  ∀ s x, valueOf s ≠ some (.object [(embeddingKey, x)])

/-- An object that does not open like an embedded text keeps its first key. -/
theorem EmbedsNothing.ofTreeWith? {valueOf : String → Option Value} (h : EmbedsNothing valueOf)
    (t : Tree) (x : Value) :
    ofTreeWith? (some valueOf) room t ≠ some (.object [(embeddingKey, x)]) := by
  intro read
  cases means_of_ofTreeWith? read with
  | embedding _ same s _ inside =>
    cases same
    exact h s x inside
  | object ts _ plain inside =>
    have plain := plain rfl
    cases ts with
    | nil => cases inside
    | cons first rest =>
      obtain ⟨l, t⟩ := first
      rw [ofMembers?] at inside
      obtain ⟨key, named, inside⟩ := Option.bind_eq_some_iff.1 inside
      obtain ⟨v, _, inside⟩ := Option.bind_eq_some_iff.1 inside
      have kept := (ofMembers?_members (p := fun _ => True) (fun _ _ _ => trivial)
        (Table.insertEntry_sorted key v .nil) (fun _ _ => trivial) inside).2.2 key
      have apart : (key == embeddingKey) = false := by
        simpa [isEmbedding, named] using plain
      simp [Table.insertEntry, List.lookup_cons, apart] at kept

theorem embedsNothing_ofTextWithin? (fuel : Nat) : EmbedsNothing (ofTextWithin? fuel) := by
  induction fuel with
  | zero =>
    intro s x read
    cases read
  | succ fuel ih =>
    intro s x read
    rw [ofTextWithin?] at read
    obtain ⟨t, _, read⟩ := Option.bind_eq_some_iff.1 read
    exact ih.ofTreeWith? t x read

theorem embedsNothing_ofText? : EmbedsNothing ofText? :=
  fun s x => embedsNothing_ofTextWithin? _ s x

/-! ## Reading a value back -/

/-- Numbers read back in values whose doubles do. -/
theorem numberReadsBack {v : Value} (canonical : v.IsCanonical) (doubles : v.ReadsBack) :
    v.NumberReadsBack := by
  cases v with
  | number n =>
    cases n with
    | integer n => exact canonical
    | float x => exact doubles
  | _ => trivial

theorem isEmbedding_memberTrees (members : List (String × Value)) :
    isEmbedding (memberTrees members) = true ↔ ¬ (object members).OpensPlainly := by
  cases members with
  | nil => simp [memberTrees, isEmbedding, OpensPlainly]
  | cons m rest => simp [memberTrees, isEmbedding, OpensPlainly, Literal.text?_ofText]

/-- An object that opens like an embedded text is not read back. -/
theorem embedded_ne_some {valueOf : String → Option Value} (h : EmbedsNothing valueOf)
    {members : List (String × Value)} (opens : ¬ (object members).OpensPlainly) :
    (embeddedText? (memberTrees members)).bind valueOf ≠ some (.object members) := by
  intro read
  obtain ⟨s, text, read⟩ := Option.bind_eq_some_iff.1 read
  cases members with
  | nil => exact opens trivial
  | cons m rest =>
    obtain ⟨key, v⟩ := m
    have isKey : key = embeddingKey := not_not.1 opens
    subst isKey
    cases rest with
    | nil => exact h s v read
    | cons m rest => cases v <;> cases text

/-- With room for its containers, a value has its own meaning back unless an object in it opens like
    an embedded text. -/
theorem ofTreeWith?_tree {valueOf : String → Option Value} (h : EmbedsNothing valueOf) (v : Value)
    (room : Nat) (canonical : v.Each IsCanonical) (doubles : v.Each ReadsBack) :
    ofTreeWith? (some valueOf) room v.tree = some v ↔ v.depth ≤ room ∧ v.Each OpensPlainly := by
  induction v using Value.induct generalizing room with
  | null => simp [tree, ofTreeWith?, depth, OpensPlainly]
  | bool b => simp [tree, ofTreeWith?, depth, OpensPlainly]
  | number n =>
    have reads := numberReadsBack canonical.self doubles.self
    have stands := (Number.read_toText (n := n) reads).2
    simp [tree, ofTreeWith?, depth, OpensPlainly, stands]
  | string s => simp [tree, ofTreeWith?, depth, OpensPlainly, Literal.text?_ofText]
  | array elements ih =>
    cases room with
    | zero => simp [tree, ofTreeWith?, depth]
    | succ room =>
      have inner : ∀ v ∈ elements, ofTreeWith? (some valueOf) room v.tree = some v ↔
          v.depth ≤ room ∧ v.Each OpensPlainly := fun v hv =>
        ih v hv room ((each_array.1 canonical).2 v hv) ((each_array.1 doubles).2 v hv)
      rw [tree, ofTreeWith?, elementTrees_eq_map, ofElements?_eq_mapM, depth_array_le, each_array]
      have whole : ((elements.map tree).mapM (ofTreeWith? (some valueOf) room)).map array =
          some (.array elements) ↔
          (elements.map tree).mapM (ofTreeWith? (some valueOf) room) = some elements := by
        simp [Option.map_eq_some_iff]
      rw [whole, mapM_map_eq_some_iff, forall₂_congr inner]
      simp [OpensPlainly, forall_and]
  | object members ih =>
    cases room with
    | zero => simp [tree, ofTreeWith?, depth]
    | succ room =>
      have inner : ∀ m ∈ members, ofTreeWith? (some valueOf) room m.2.tree = some m.2 ↔
          m.2.depth ≤ room ∧ m.2.Each OpensPlainly := fun m hm =>
        ih m hm room ((each_object.1 canonical).2 m hm) ((each_object.1 doubles).2 m hm)
      rw [tree, ofTreeWith?, depth_object_le, each_object]
      by_cases opens : (object members).OpensPlainly
      · have plain : ¬ isEmbedding (memberTrees members) = true := by
          rw [isEmbedding_memberTrees]
          exact not_not.2 opens
        have sorted : (([] ++ members).map Prod.fst).Pairwise (· < ·) :=
          List.pairwise_map.2 canonical.self
        have whole : ((members.mapM fun m =>
            (ofTreeWith? (some valueOf) room m.2.tree).map fun v => (m.1, v)).map
              ([] ++ ·)).map object = some (.object members) ↔
            (members.map id).mapM (fun m =>
              (ofTreeWith? (some valueOf) room m.2.tree).map fun v => (m.1, v)) =
                some members := by
          simp [Option.map_eq_some_iff]
        have one : ∀ m ∈ members,
            (ofTreeWith? (some valueOf) room (id m).2.tree).map (fun v => ((id m).1, v)) = some m ↔
              m.2.depth ≤ room ∧ m.2.Each OpensPlainly := by
          intro m hm
          rw [← inner m hm]
          simp [Option.map_eq_some_iff, Prod.ext_iff]
        rw [if_neg plain, ofMembers?_memberTrees [] members sorted, whole, mapM_map_eq_some_iff,
          forall₂_congr one]
        simp [opens, forall_and]
      · have embeds := (isEmbedding_memberTrees members).2 opens
        rw [if_pos embeds]
        exact iff_of_false (embedded_ne_some h opens) fun legible => opens legible.2.1

/-- What a reader with so much room makes of the text of a value. -/
theorem ofTree?_tree {v : Value} (room : Nat) (canonical : v.Each IsCanonical)
    (doubles : v.Each ReadsBack) :
    ofTree? room v.tree = some v ↔ v.depth ≤ room ∧ v.Each OpensPlainly :=
  ofTreeWith?_tree embedsNothing_ofText? v room canonical doubles

end Value

end ErrorIntake.Json
