import ErrorIntake.Proofs.Json.AsWritten
import ErrorIntake.Proofs.Json.Decode
import ErrorIntake.Submission.Body

/-!
# Two forms of tags

Clients write tags as an object of strings or as a list of pairs, and both forms mean the same.  In
a list, the last pair with a key counts, and elements that are no pair of strings do not count; they
only have to be readable.  Tags are stored in the second form, from which they are read back.
-/

namespace ErrorIntake.Submission

open Json (Tree Value)

/-- A tag as an element of a list. -/
def pair (key value : String) : Value := .array [.string key, .string value]

/-- Tags as a list of pairs. -/
def pairList (tags : List (String × String)) : Value :=
  .array (tags.map fun tag => pair tag.1 tag.2)

/-- How many containers a reader follows into an element of a list. -/
def elementRoom : Nat := Json.nestingLimit - 1

/-- The element of a list is read as this value. -/
def IsElement (t : Tree) (v : Value) : Prop := Value.ofTree? elementRoom t = some v

/-- The text is an object of strings. -/
def IsStringObject (text : String) : Prop :=
  ∃ members, Tree.ofText? text = some (.object members) ∧
    ∀ m ∈ members, (∃ key, m.1.text? = some key) ∧ ∃ value, m.2.text? = some value

/-- The text is a list of readable elements. -/
def IsReadableList (text : String) : Prop :=
  ∃ elements, Tree.ofText? text = some (.array elements) ∧ ∀ t ∈ elements, ∃ v, IsElement t v

namespace Field

/-! ## Lists -/

theorem tag?_eq_some_iff {v : Value} {key value : String} :
    tag? v = some (key, value) ↔ v = pair key value := by
  constructor
  · intro found
    unfold tag? at found
    split at found
    · cases found
      rfl
    · cases found
  · rintro rfl
    rfl

/-- The last pair with a key tells the value under it. -/
theorem get?_tags_iff {vs : List Value} {key value : String} :
    (Table.ofList (vs.filterMap tag?)).get? key = some value ↔
      ∃ before after, vs = before ++ pair key value :: after ∧ ∀ other, pair key other ∉ after := by
  rw [Table.get?_ofList_eq_some_iff]
  constructor
  · rintro ⟨before, after, split, others⟩
    obtain ⟨front, back, rfl, -, back'⟩ := List.filterMap_eq_append_iff.1 split
    obtain ⟨gap, v, rest, rfl, -, isPair, rfl⟩ := List.filterMap_eq_cons_iff.1 back'
    rw [tag?_eq_some_iff] at isPair
    refine ⟨front ++ gap, rest, by rw [isPair, List.append_assoc], fun other member => ?_⟩
    exact others (key, other) (List.mem_filterMap.2 ⟨_, member, tag?_eq_some_iff.2 rfl⟩) rfl
  · rintro ⟨before, after, rfl, others⟩
    refine ⟨before.filterMap tag?, after.filterMap tag?, ?_, ?_⟩
    · rw [List.filterMap_append, List.filterMap_cons_some (tag?_eq_some_iff.2 rfl)]
    · rintro ⟨_, other⟩ member rfl
      obtain ⟨v, inside, isPair⟩ := List.mem_filterMap.1 member
      rw [tag?_eq_some_iff] at isPair
      exact others other (isPair ▸ inside)

/-- A list gives the tags among the values of its elements. -/
theorem tags?_list {text : String} {elements : List Tree} {vs : List Value}
    (isList : Tree.ofText? text = some (.array elements))
    (read : List.Forall₂ IsElement elements vs) :
    tags? text = some (.ofList (vs.filterMap tag?)) := by
  have values : (Tree.array elements).list? (Value.ofTree? elementRoom) = some vs :=
    mapM_eq_some_iff.2 read
  rw [tags?, isList]
  exact Tree.bind_of_some values _

/-! ## Tags that were written -/

/-- What holds of strings and of arrays holds of everything in a pair. -/
theorem each_pair {p : Value → Prop} (strings : ∀ s, p (.string s)) (arrays : ∀ vs, p (.array vs))
    (key value : String) : (pair key value).Each p := by
  simp [pair, strings, arrays]

theorem isElement_pair (key value : String) :
    IsElement (pair key value).tree (pair key value) := by
  have shallow : (pair key value).depth ≤ elementRoom := by
    rw [pair, elementRoom]
    exact Value.depth_array_le.2 (by simp [Value.depth])
  exact (Value.ofTree?_tree elementRoom (each_pair (fun _ => trivial) (fun _ => trivial) key value)
    (each_pair (fun _ => trivial) (fun _ => trivial) key value)).2
      ⟨shallow, each_pair (fun _ => trivial) (fun _ => trivial) key value⟩

/-- A list of pairs that was written is read as these pairs. -/
theorem tags?_pairList (tags : List (String × String)) :
    tags? (pairList tags).toText = some (.ofList tags) := by
  have numbers : ∀ v ∈ tags.map (fun tag => pair tag.1 tag.2), v.Each Value.NumberReadsBack :=
    List.forall_mem_map.2 fun tag _ =>
      each_pair (fun _ => trivial) (fun _ => trivial) tag.1 tag.2
  have read : List.Forall₂ IsElement ((tags.map fun tag => pair tag.1 tag.2).map Value.tree)
      (tags.map fun tag => pair tag.1 tag.2) := by
    rw [List.forall₂_map_left_iff, List.forall₂_same, List.forall_mem_map]
    exact fun tag _ => isElement_pair tag.1 tag.2
  rw [pairList, tags?_list (Value.ofText?_array numbers) read, List.filterMap_map]
  exact congrArg (fun tags => some (Table.ofList tags)) List.filterMap_some

/-- An object of strings that was written is read as their table. -/
theorem tags?_ofTexts (tags : Table String) : tags? (Value.ofTexts tags).toText = some tags := by
  have written : (Value.ofTexts tags).Each Value.NumberReadsBack :=
    Value.each_object.2 ⟨trivial, List.forall_mem_map.2 fun _ _ => Value.each_string.2 trivial⟩
  have read : (Value.ofTexts tags).tree.table? Tree.text? = some tags :=
    (Tree.table?_tree Tree.text? .string tags).2 fun e _ => Tree.text?_tree e.2
  rw [tags?, Value.ofText?_toText written, Option.bind_eq_bind, Option.bind_some, read]
  rfl

/-! ## Refusals -/

/-- Only objects of strings and lists of readable elements are tags. -/
theorem exists_tags?_iff {text : String} :
    (∃ table, tags? text = some table) ↔ IsStringObject text ∨ IsReadableList text := by
  unfold tags? IsStringObject IsReadableList
  cases Tree.ofText? text with
  | none => simp
  | some t =>
    have tables : (∃ table, t.table? Tree.text? = some table) ↔ _ := Tree.exists_table?_iff
    have lists : (∃ vs, t.list? (Value.ofTree? elementRoom) = some vs) ↔ _ := Tree.exists_list?_iff
    simp only [Option.some.injEq, IsElement, Option.bind_eq_bind, Option.bind_some, ← tables,
      ← lists]
    cases t.table? Tree.text? with
    | some given => simp
    | none =>
      dsimp only
      rw [← elementRoom]
      cases t.list? (Value.ofTree? elementRoom) <;> simp

end Field

theorem decodeField_tags_eq_ok {payload : Payload} {text : String} {tags : Table String}
    (stands : payload.get? "tags" = some text) (found : Field.tags? text = some tags) :
    decodeField payload .tags Field.tags? ∅ = .ok tags := by
  rw [decodeField, show Field.tags.name = "tags" from rfl, stands]
  dsimp only
  rw [found]

/-- A text that is refused is named in the refusal. -/
theorem decodeField_tags_eq_error_iff {payload : Payload} {text : String}
    (stands : payload.get? "tags" = some text) :
    decodeField payload .tags Field.tags? ∅ = .error (.invalidField "tags" text) ↔
      ¬ IsStringObject text ∧ ¬ IsReadableList text := by
  rw [← not_or, ← Field.exists_tags?_iff, decodeField, show Field.tags.name = "tags" from rfl,
    stands]
  dsimp only
  cases Field.tags? text <;> simp

/-- The tags of a report are stored as a list of pairs. -/
theorem get?_snapshot_tags {r : Report} (tagged : r.tags.isEmpty = false) :
    r.snapshot.get? "tags" = some (pairList r.tags.entries) := by
  have pairs : (r.data.insert "tags" (Report.tagPairs r.tags)).get? "tags" =
      some (pairList r.tags.entries) := by
    rw [Table.get?_insert, if_pos rfl]
    rfl
  unfold Report.snapshot
  simp only [tagged, Bool.false_eq_true, if_false]
  split
  · exact pairs
  · rw [Table.get?_insert, if_neg (by decide)]
    exact pairs

/-- Tags are read from an object of strings and from a list of its pairs in any order.  A list of
    readable elements gives the pairs of strings among their values, of which the last with a key
    counts.  An element has the value that is written there, unless an object in it opens like an
    embedded text: that one has the value of the text, if it embeds one, and is not readable
    otherwise.  Any other text is refused.  The tags of a report are read back from its snapshot. -/
theorem tags_of_both_forms {payload : Payload} {text : String}
    (stands : payload.get? "tags" = some text) :
    (∀ (tags : Table String) (pairs : List (String × String)), pairs.Perm tags.entries →
      text = (Value.ofTexts tags).toText ∨ text = (pairList pairs).toText →
      decodeField payload .tags Field.tags? ∅ = .ok tags) ∧
    (∀ elements vs, Tree.ofText? text = some (.array elements) →
      List.Forall₂ IsElement elements vs →
      ∃ tags, decodeField payload .tags Field.tags? ∅ = .ok tags ∧
        ∀ key value, tags.get? key = some value ↔
          ∃ before after, vs = before ++ pair key value :: after ∧
            ∀ other, pair key other ∉ after) ∧
    (∀ t v, t.StandsForItself → (IsElement t v ↔ Value.plainOfTree? elementRoom t = some v)) ∧
    (∀ members v, Json.isEmbedding members = true → (IsElement (.object members) v ↔
      ∃ s, Json.embeddedText? members = some s ∧ Value.ofText? s = some v)) ∧
    (decodeField payload .tags Field.tags? ∅ = .error (.invalidField "tags" text) ↔
      ¬ IsStringObject text ∧ ¬ IsReadableList text) ∧
    ∀ r : Report, r.tags.isEmpty = false → ∃ v, r.snapshot.get? "tags" = some v ∧
      (text = v.toText → decodeField payload .tags Field.tags? ∅ = .ok r.tags) := by
  have listed {tags : Table String} {pairs : List (String × String)}
      (same : pairs.Perm tags.entries) (written : text = (pairList pairs).toText) :
      decodeField payload .tags Field.tags? ∅ = .ok tags := by
    have once : (pairs.map Prod.fst).Nodup := (same.map Prod.fst).nodup_iff.2 tags.nodup_keys
    refine decodeField_tags_eq_ok stands ?_
    rw [written, Field.tags?_pairList, Table.ofList,
      Table.foldl_insert_perm Prod.fst Prod.snd same once]
    exact congrArg some (Table.ofList_entries tags)
  refine ⟨?_, ?_, ?_, ?_, decodeField_tags_eq_error_iff stands, ?_⟩
  · rintro tags pairs same (written | written)
    · exact decodeField_tags_eq_ok stands (written ▸ Field.tags?_ofTexts tags)
    · exact listed same written
  · intro elements vs isList read
    exact ⟨_, decodeField_tags_eq_ok stands (Field.tags?_list isList read),
      fun key value => Field.get?_tags_iff⟩
  · intro t v itself
    rw [IsElement, Value.ofTree?_eq_plainOfTree? itself]
  · exact fun members v embeds => Value.ofTree?_embedding_iff embeds
  · exact fun r tagged => ⟨_, get?_snapshot_tags tagged, listed (List.Perm.refl _)⟩

/-- A payload with these tags. -/
def payloadOf (tags : List Value) : Payload := .ofList [("tags", (Value.array tags).toText)]

theorem get?_payloadOf (tags : List Value) :
    (payloadOf tags).get? "tags" = some (Value.array tags).toText := by
  simp [payloadOf, Table.get?_ofList]

/-- A list in which a key stands twice, among elements that are no pairs of strings. -/
def motley : List Value :=
  [pair "a" "1", .array [.string "b"], .object [("x", .null)], .bool true, pair "a" "2",
   .string "c"]

/-- A list with an object that opens like an embedded text, but embeds none. -/
def opening : List Value := [.object [(Json.embeddingKey, .bool true)], pair "a" "b"]

theorem tags_of_both_forms_motley :
    (∃ tags, decodeField (payloadOf motley) .tags Field.tags? ∅ = .ok tags ∧
      tags.get? "a" = some "2") ∧
    decodeField (payloadOf opening) .tags Field.tags? ∅ =
      .error (.invalidField "tags" (Value.array opening).toText) := by
  constructor
  · obtain ⟨-, lists, -⟩ := tags_of_both_forms (get?_payloadOf motley)
    have numbers : ∀ v ∈ motley, v.Each Value.NumberReadsBack := by
      simp [motley, pair, Value.NumberReadsBack]
    have read : List.Forall₂ IsElement (motley.map Value.tree) motley := by
      have legible : ∀ v ∈ motley, v.depth ≤ elementRoom ∧ v.Each Value.OpensPlainly := by decide
      have canonical : ∀ v ∈ motley, v.Each Value.IsCanonical := by
        simp [motley, pair, Value.IsCanonical]
      have doubles : ∀ v ∈ motley, v.Each Value.ReadsBack := by decide
      rw [List.forall₂_map_left_iff, List.forall₂_same]
      exact fun v member => (Value.ofTree?_tree elementRoom (canonical v member)
        (doubles v member)).2 (legible v member)
    obtain ⟨tags, found, tells⟩ := lists _ _ (Value.ofText?_array numbers) read
    refine ⟨tags, found, (tells "a" "2").2 ⟨motley.take 4, [.string "c"], rfl, ?_⟩⟩
    simp [pair]
  · obtain ⟨-, -, -, embeds, refused, -⟩ := tags_of_both_forms (get?_payloadOf opening)
    have numbers : ∀ v ∈ opening, v.Each Value.NumberReadsBack := by
      simp [opening, pair, Value.NumberReadsBack]
    have isList := Value.ofText?_array numbers
    refine refused.2 ⟨?_, ?_⟩
    · rintro ⟨members, isObject, -⟩
      rw [isList] at isObject
      cases isObject
    · rintro ⟨elements, isArray, read⟩
      rw [isList] at isArray
      cases isArray
      obtain ⟨v, first⟩ := read _ List.mem_cons_self
      obtain ⟨s, embedded, -⟩ := (embeds _ v (by decide)).1 first
      cases embedded

end ErrorIntake.Submission
