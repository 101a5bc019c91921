import ErrorIntake.Interface.Basic
import ErrorIntake.Proofs.Json.AsWritten
import ErrorIntake.Proofs.Json.Decode

/-!
# Headers and environment

A request has two tables of texts, its headers and its environment.  Clients write each of them as
an object, as a list of pairs or as `null`, and where an object and a list have the same entries the
request is the same.  What such a table is read from does not touch the rest of the request.
-/

namespace ErrorIntake

open Json (Tree Literal Value)
open Json.Tree (bind_of_some)

/-! ## Records with a gap -/

namespace Json.Tree

/-- A record with a gap where one of its members stands: under the name of the member, or at its
    place in an array. -/
inductive Gap (names : List String) (name : String)
  | named (before : List (Literal × Tree)) (key : Literal) (isName : key.text? = some name)
      (after : List (Literal × Tree))
  | placed (before after : List Tree) (isPlace : names[before.length]? = some name)

namespace Gap

variable {α : Type} {decode : Tree → Option α} {default : α} {names : List String} {name : String}

/-- The record with a tree in its gap. -/
def fill : Gap names name → Tree → Tree
  | named before key _ after, t => .object (before ++ (key, t) :: after)
  | placed before after _, t => .array (before ++ t :: after)

theorem fill_ne_null (gap : Gap names name) (t : Tree) : gap.fill t ≠ .null := by
  cases gap <;> exact Tree.noConfusion

theorem lookup_eq_none {members : List (String × Tree)} (never : ∀ m ∈ members, m.1 ≠ name) :
    members.lookup name = none :=
  List.lookup_eq_none_iff.2 fun m member => by simpa using (never m member).symm

/-- What stands in the gap is one member of the record and does not decide about the others. -/
theorem record?_fill (once : names.Nodup) (known : name ∈ names) (gap : Gap names name) :
    (∀ t, (gap.fill t).record? names = none) ∨
      ∃ before after, before.lookup name = none ∧
        ∀ t, (gap.fill t).record? names = some (before ++ (name, t) :: after) := by
  cases gap with
  | named before key isName after =>
    simp only [fill, record?, List.mapM_append, List.mapM_cons, isName]
    cases before.mapM fun m => m.1.text?.map fun name => (name, m.2) with
    | none => exact .inl fun t => rfl
    | some front =>
      cases after.mapM fun m => m.1.text?.map fun name => (name, m.2) with
      | none => exact .inl fun t => rfl
      | some back =>
        have counts (t : Tree) (other : String) : occurrences (front ++ (name, t) :: back) other =
            occurrences (front ++ (name, .null) :: back) other := by
          simp [occurrences, List.countP_append, List.countP_cons]
        by_cases single : ∀ n ∈ names, occurrences (front ++ (name, .null) :: back) n ≤ 1
        · refine .inr ⟨front, back, lookup_eq_none fun m member same => ?_, fun t => ?_⟩
          · have twice := single name known
            have here : 0 < front.countP fun m => m.1 == name :=
              List.countP_pos_iff.2 ⟨m, member, by simp [same]⟩
            simp only [occurrences, List.countP_append, List.countP_cons, beq_self_eq_true,
              if_true] at twice
            omega
          · simpa [counts] using single
        · exact .inl fun t => by simpa [counts] using single
  | placed before after isPlace =>
    obtain ⟨inside, isName⟩ := List.getElem?_eq_some_iff.1 isPlace
    have split : names = names.take before.length ++ name :: names.drop (before.length + 1) := by
      rw [← isName, List.getElem_cons_drop, List.take_append_drop]
    have front : (names.take before.length).length = before.length :=
      List.length_take_of_le (Nat.le_of_lt inside)
    by_cases short : before.length + (after.length + 1) ≤ names.length
    · refine .inr ⟨(names.take before.length).zip before,
        (names.drop (before.length + 1)).zip after, lookup_eq_none fun m member => ?_,
        fun t => ?_⟩
      · have left := (List.of_mem_zip (show (m.1, m.2) ∈ _ from member)).1
        rw [split] at once
        exact (List.nodup_append.1 once).2.2 m.1 left name List.mem_cons_self
      · have zipped : (names.take before.length ++ name :: names.drop (before.length + 1)).zip
            (before ++ t :: after) = _ := List.zip_append front
        rw [← split, List.zip_cons_cons] at zipped
        rw [fill, record?, if_pos (by simpa using short), zipped]
    · exact .inl fun t => by rw [fill, record?, if_neg (by simpa using short)]

/-! What is read of a record whose gap is filled. -/

section

variable {before after : List (String × Tree)} {other : String}
  (first : before.lookup name = none) (t : Tree)
include first

theorem lookup_fill :
    (before ++ (name, t) :: after).lookup other =
      if other = name then some t else (before ++ after).lookup other := by
  rw [List.lookup_append, List.lookup_append]
  by_cases same : other = name
  · rw [same, first, if_pos rfl, List.lookup_cons_self, Option.none_or]
  · rw [if_neg same, Table.lookup_cons_of_ne _ _ same]

theorem optional?_self :
    optional? decode default (before ++ (name, t) :: after) name = decode t := by
  rw [optional?, lookup_fill first, if_pos rfl]

theorem lenient?_self (given : t ≠ .null) :
    lenient? decode default (before ++ (name, t) :: after) name = decode t := by
  rw [lenient?, lookup_fill first, if_pos rfl]
  cases t with
  | null => exact absurd rfl given
  | _ => rfl

theorem optional?_other (apart : other ≠ name) :
    optional? decode default (before ++ (name, t) :: after) other =
      optional? decode default (before ++ after) other := by
  rw [optional?, optional?, lookup_fill first, if_neg apart]

theorem lenient?_other (apart : other ≠ name) :
    lenient? decode default (before ++ (name, t) :: after) other =
      lenient? decode default (before ++ after) other := by
  rw [lenient?, lenient?, lookup_fill first, if_neg apart]

end

end Gap

end Json.Tree

namespace Request

/-! ## The rest of a request -/

/-- A part of a request that is a table of texts. -/
inductive Part
  | headers
  | env

namespace Part

/-- The name of a part. -/
def name : Part → String
  | headers => "headers"
  | env => "env"

/-- The request with another table as the part. -/
def set (table : Table String) : Part → Request → Request
  | headers, r => { r with headers := table }
  | env, r => { r with env := table }

theorem name_mem (part : Part) : part.name ∈ memberNames := by
  cases part <;> decide

end Part

/-- A request from which one part is missing. -/
abbrev Fragment (part : Part) : Type := Tree.Gap memberNames part.name

theorem texts?_null (room : Nat) : texts? room .null = some ∅ := by
  cases room <;> rfl

/-- A part is read by itself, and the rest of the request as if the part were `null`. -/
theorem ofTree?_fill {part : Part} (fragment : Fragment part) (room : Nat) (t : Tree) :
    ofTree? (room + 1) (fragment.fill t) = (texts? room t).bind fun table =>
      (ofTree? (room + 1) (fragment.fill .null)).map (part.set table) := by
  have gap := fragment.record?_fill (by decide) part.name_mem
  rcases gap with refused | ⟨before, after, first, reads⟩
  · simp [ofTree?, refused]
  · rw [ofTree?, ofTree?, bind_of_some (reads t), bind_of_some (reads .null)]
    -- Both sides read the other members from what stands around the gap.
    cases part <;> dsimp only [Part.name] at first ⊢ <;>
      simp (disch := decide) only [Tree.Gap.optional?_self first, Tree.Gap.optional?_other first,
        Tree.Gap.lenient?_other first, texts?_null]
    all_goals
      cases texts? room t with
      | none => simp
      | some table => simp [Option.map_bind, Part.set, Function.comp_def]

/-! ## What a table keeps -/

/-- The table keeps these values: a string as it is, `null` not at all, and anything else as its
    text. -/
structure Keeps (table : Table String) (values : List (String × Value)) : Prop where
  only : ∀ key, key ∉ values.map Prod.fst → table.get? key = none
  null : ∀ key, (key, .null) ∈ values → table.get? key = none
  string : ∀ key s, (key, .string s) ∈ values → table.get? key = some s
  other : ∀ key v, (key, v) ∈ values → v ≠ .null → (∀ s, v ≠ .string s) →
    table.get? key = some v.toText

/-- An entry of a table, if its value is kept. -/
def kept? (e : String × Value) : Option (String × String) :=
  (textOf? e.2).map fun text => (e.1, text)

/-- The table that keeps these values. -/
def keptTable (values : List (String × Value)) : Table String := .ofList (values.filterMap kept?)

theorem nodup_kept {values : List (String × Value)} (once : (values.map Prod.fst).Nodup) :
    ((values.filterMap kept?).map Prod.fst).Nodup := by
  rw [List.Nodup, List.pairwise_map] at once ⊢
  refine once.filterMap kept? fun e e' apart a found a' found' => ?_
  obtain ⟨_, -, rfl⟩ := Option.map_eq_some_iff.1 found
  obtain ⟨_, -, rfl⟩ := Option.map_eq_some_iff.1 found'
  exact apart

theorem keptTable_perm {values values' : List (String × Value)}
    (once : (values.map Prod.fst).Nodup) (same : values'.Perm values) :
    keptTable values' = keptTable values :=
  (Table.foldl_insert_perm Prod.fst Prod.snd (same.filterMap kept?).symm (nodup_kept once) ∅).symm

/-- A key of its own tells what is kept of its value. -/
theorem get?_keptTable {values : List (String × Value)} (once : (values.map Prod.fst).Nodup)
    {key : String} {v : Value} (member : (key, v) ∈ values) :
    (keptTable values).get? key = textOf? v := by
  refine Option.ext fun text => ?_
  rw [keptTable, Table.get?_ofList, Table.lookup_reverse (nodup_kept once),
    Table.lookup_eq_some_iff (nodup_kept once), List.mem_filterMap]
  constructor
  · rintro ⟨⟨k, w⟩, inside, isKept⟩
    obtain ⟨_, found, same⟩ := Option.map_eq_some_iff.1 isKept
    cases same
    have unique := List.inj_on_of_nodup_map once inside member rfl
    cases unique
    exact found
  · exact fun found => ⟨_, member, by rw [kept?, found]; rfl⟩

theorem keeps_keptTable {values : List (String × Value)} (once : (values.map Prod.fst).Nodup) :
    Keeps (keptTable values) values where
  only key absent := by
    rw [Table.get?_eq_none_iff]
    intro member
    obtain ⟨text, found⟩ := Table.mem_keys_iff.1 member
    have entry := Table.mem_of_mem_ofList (Table.get?_eq_some_iff.1 found)
    obtain ⟨e, inside, isKept⟩ := List.mem_filterMap.1 entry
    obtain ⟨_, -, same⟩ := Option.map_eq_some_iff.1 isKept
    cases same
    exact absent (List.mem_map_of_mem inside)
  null key member := get?_keptTable once member
  string key s member := get?_keptTable once member
  other key v member notNull notString := by
    rw [get?_keptTable once member]
    cases v with
    | null => exact absurd rfl notNull
    | string s => exact absurd rfl (notString s)
    | _ => rfl

/-! ## Both forms of a table -/

/-- How many containers a reader follows into a value of a table. -/
def valueRoom : Nat := Json.nestingLimit - 2

/-- What a value of a table is read as. -/
def IsMeant (t : Tree) (v : Value) : Prop := Value.ofTree? valueRoom t = some v

/-- What an entry of a table is read as. -/
def IsEntry (m : Literal × Tree) (e : String × Value) : Prop :=
  m.1.text? = some e.1 ∧ IsMeant m.2 e.2

/-- The entry that an element of a list stands for, if it is a pair that a string begins. -/
def keyed? : Value → Option (String × Value)
  | .array [.string key, v] => some (key, v)
  | _ => none

theorem pair?_eq_bind (v : Value) : pair? v = (keyed? v).bind kept? := by
  cases v with
  | array elements =>
    rcases elements with _ | ⟨first, _ | ⟨second, _ | ⟨third, rest⟩⟩⟩
    · rfl
    all_goals cases first <;> rfl
  | _ => rfl

/-- An object keeps the values of its entries. -/
theorem texts?_object {entries : List (Literal × Tree)} {values : List (String × Value)}
    (once : (values.map Prod.fst).Nodup) (read : List.Forall₂ IsEntry entries values) :
    texts? (valueRoom + 1) (.object entries) = some (keptTable values) := by
  have found : (Tree.object entries).table? (Value.ofTree? valueRoom) = some (.ofList values) := by
    refine Option.bind_eq_some_iff.2 ⟨values, mapM_eq_some_iff.2 (read.imp ?_), rfl⟩
    rintro m e ⟨isKey, means⟩
    exact (bind_of_some isKey _).trans (bind_of_some means _)
  rw [texts?, bind_of_some found]
  exact congrArg some (keptTable_perm once (Table.entries_ofList_perm once))

/-- A list keeps the values of the entries among its elements. -/
theorem texts?_list {elements : List Tree} {vs : List Value} {values : List (String × Value)}
    (once : (values.map Prod.fst).Nodup) (read : List.Forall₂ IsMeant elements vs)
    (same : (vs.filterMap keyed?).Perm values) :
    texts? (valueRoom + 1) (.array elements) = some (keptTable values) := by
  rw [texts?, bind_of_some (mapM_eq_some_iff.2 read), funext pair?_eq_bind,
    ← List.filterMap_filterMap]
  exact congrArg some (keptTable_perm once same)

/-- A part that can be read: an object of readable values, a list of readable elements, or
    `null`. -/
def IsReadable : Tree → Prop
  | .null => True
  | .object entries => ∀ m ∈ entries, ∃ e, IsEntry m e
  | .array elements => ∀ t ∈ elements, ∃ v, IsMeant t v
  | _ => False

theorem exists_texts?_iff {x : Tree} :
    (∃ table, texts? (valueRoom + 1) x = some table) ↔ IsReadable x := by
  cases x with
  | null => exact ⟨fun _ => trivial, fun _ => ⟨∅, texts?_null _⟩⟩
  | object entries =>
    have tables : (∃ values, (Tree.object entries).table? (Value.ofTree? valueRoom) = some values) ↔
        _ := Tree.exists_table?_iff
    have read : (∃ table, texts? (valueRoom + 1) (.object entries) = some table) ↔
        ∃ values, (Tree.object entries).table? (Value.ofTree? valueRoom) = some values := by
      simp [texts?, Option.bind_eq_some_iff]
    rw [read, tables]
    simp [IsReadable, IsEntry, IsMeant]
  | array elements =>
    have read : (∃ table, texts? (valueRoom + 1) (.array elements) = some table) ↔
        ∃ vs, elements.mapM (Value.ofTree? valueRoom) = some vs := by
      simp [texts?, Option.bind_eq_some_iff]
    exact read.trans exists_mapM_eq_some_iff
  | bool b => simp [texts?, IsReadable]
  | number n => simp [texts?, IsReadable]
  | string l => simp [texts?, IsReadable]

/-- A pair is read where there is room for its value, which stands one container deeper there than
    in an object. -/
theorem isMeant_pair_iff {l : Literal} {t : Tree} {w : Value} :
    IsMeant (.array [.string l, t]) w ↔ ∃ key v, l.text? = some key ∧
      Value.ofTree? (valueRoom - 1) t = some v ∧ w = .array [.string key, v] := by
  rw [IsMeant, Value.ofTree?, valueRoom, Json.nestingLimit, Value.ofTreeWith?,
    Value.ofElements?_eq_mapM]
  simp only [Option.map_eq_some_iff, mapM_eq_some_iff]
  constructor
  · rintro ⟨_, inside, rfl⟩
    obtain ⟨_, _, isKey, others, rfl⟩ := List.forall₂_cons_left_iff.1 inside
    obtain ⟨v, _, isValue, nothing, rfl⟩ := List.forall₂_cons_left_iff.1 others
    obtain ⟨key, named, rfl⟩ := Option.map_eq_some_iff.1 isKey
    cases nothing
    exact ⟨key, v, named, isValue, rfl⟩
  · rintro ⟨key, v, named, isValue, rfl⟩
    exact ⟨_, .cons (congrArg (Option.map Value.string) named) (.cons isValue .nil), rfl⟩

namespace Fragment

variable {part : Part} (fragment : Fragment part)

/-- The request with nothing as the missing part. -/
def rest : Option Request := ofTree? Json.nestingLimit (fragment.fill .null)

theorem decode?_fill {text : String} {t : Tree}
    (written : Tree.ofText? text = some (fragment.fill t)) :
    Interface.Kind.request.decode? text = (texts? (valueRoom + 1) t).bind fun table =>
      fragment.rest.map fun r => .request (part.set table r) := by
  have read : ofTree? Json.nestingLimit (fragment.fill t) = _ :=
    ofTree?_fill fragment (valueRoom + 1) t
  rw [Interface.Kind.decode?, written, Option.bind_some, Interface.Kind.ofTree?, read,
    Option.map_bind]
  refine congrArg _ (funext fun table => ?_)
  rw [Function.comp_apply, Option.map_map]
  rfl

/-- A request is read if the missing part and the rest of it are. -/
theorem exists_decode?_iff {text : String} {t : Tree}
    (written : Tree.ofText? text = some (fragment.fill t)) :
    (∃ i, Interface.Kind.request.decode? text = some i) ↔
      IsReadable t ∧ ∃ r, fragment.rest = some r := by
  rw [fragment.decode?_fill written, ← exists_texts?_iff]
  cases texts? (valueRoom + 1) t <;> simp

theorem decodedFrom_fill {text : String} {t : Tree}
    (written : Tree.ofText? text = some (fragment.fill t)) (unreadable : ¬ IsReadable t)
    (previous : Request) : (Interface.request previous).decodedFrom text = .request previous := by
  have refused : Interface.Kind.request.decode? text = none :=
    Option.eq_none_iff_forall_ne_some.2 fun i decoded =>
      unreadable ((fragment.exists_decode?_iff written).1 ⟨i, decoded⟩).1
  rw [Interface.decodedFrom, Interface.kind, refused, Option.getD_none]

end Fragment

/-- Headers and environment are read alike from an object of entries with keys of their own and from
    a list that has these entries in any order among elements that are no entries: both keep what is
    not `null`, strings as they are and other values as their texts.  `null` keeps nothing, and what
    is no readable object or list is refused and leaves an interface as it is.  The rest of the
    request is read as if the part were `null`.  A value is the one that is written there, with its
    keys in order, unless an object in it opens like an embedded text: that one has the value of the
    text, if it embeds one, and is not readable otherwise. -/
theorem tables_of_both_forms (part : Part) (fragment : Fragment part) :
    (∀ values : List (String × Value), (values.map Prod.fst).Nodup →
      ∃ table, Keeps table values ∧
        (∀ entries text, List.Forall₂ IsEntry entries values →
          Tree.ofText? text = some (fragment.fill (.object entries)) →
          Interface.Kind.request.decode? text =
            fragment.rest.map fun r => .request (part.set table r)) ∧
        ∀ elements vs text, List.Forall₂ IsMeant elements vs →
          (vs.filterMap keyed?).Perm values →
          Tree.ofText? text = some (fragment.fill (.array elements)) →
          Interface.Kind.request.decode? text =
            fragment.rest.map fun r => .request (part.set table r)) ∧
    (∀ text, Tree.ofText? text = some (fragment.fill .null) →
      Interface.Kind.request.decode? text =
        fragment.rest.map fun r => .request (part.set ∅ r)) ∧
    (∀ t text, Tree.ofText? text = some (fragment.fill t) →
      ((∃ i, Interface.Kind.request.decode? text = some i) ↔
        IsReadable t ∧ ∃ r, fragment.rest = some r) ∧
      (¬ IsReadable t → ∀ previous,
        (Interface.request previous).decodedFrom text = .request previous)) ∧
    (∀ m w, IsMeant (.array [.string m.1, m.2]) w → ∃ e, IsEntry m e ∧ keyed? w = some e) ∧
    (∀ t v, t.StandsForItself → (IsMeant t v ↔ Value.plainOfTree? valueRoom t = some v)) ∧
    (∀ members v, Json.isEmbedding members = true → (IsMeant (.object members) v ↔
      ∃ s, Json.embeddedText? members = some s ∧ Value.ofText? s = some v)) ∧
    ∀ t v, IsMeant t v → v.Each Value.IsCanonical := by
  refine ⟨fun values once => ⟨keptTable values, keeps_keptTable once, ?_, ?_⟩,
    ?_, ?_, ?_, ?_, ?_, ?_⟩
  · intro entries text read written
    rw [fragment.decode?_fill written, texts?_object once read, Option.bind_some]
  · intro elements vs text read same written
    rw [fragment.decode?_fill written, texts?_list once read same, Option.bind_some]
  · intro text written
    rw [fragment.decode?_fill written, texts?_null, Option.bind_some]
  · intro t text written
    exact ⟨fragment.exists_decode?_iff written, fragment.decodedFrom_fill written⟩
  · intro m w read
    obtain ⟨key, v, named, isValue, rfl⟩ := isMeant_pair_iff.1 read
    exact ⟨(key, v), ⟨named, Value.ofTreeWith?_mono (by decide) isValue⟩, rfl⟩
  · intro t v itself
    rw [IsMeant, Value.ofTree?_eq_plainOfTree? itself]
  · exact fun members v embeds => Value.ofTree?_embedding_iff embeds
  · exact fun t v => Value.isCanonical_of_ofTree?

/-- A request to `/x` from which the headers are missing. -/
def toX : Fragment .headers :=
  .named [(Literal.ofText "url", (Value.string "/x").tree)] (Literal.ofText "headers")
    (Literal.text?_ofText "headers") []

/-- A request to `/x` with these headers. -/
def textToX (headers : Value) : String :=
  (Value.object [("url", .string "/x"), ("headers", headers)]).toText

theorem written_toX {headers : Value} (numbers : headers.Each Value.NumberReadsBack) :
    Tree.ofText? (textToX headers) = some (toX.fill headers.tree) := by
  refine (Value.ofText?_toText ?_).trans rfl
  simp [Value.NumberReadsBack, numbers]

theorem rest_toX : toX.rest = some { url := "/x" } := rfl

/-- Headers of every sort, the last one with an object that opens like an embedded text. -/
def sorts : List (String × Value) :=
  [("Host", .string "a"), ("Length", .ofInt 12), ("Via", .null),
   ("X", .object [(Json.embeddingKey, .string (Value.ofInt 5).toText)])]

/-- What they are read as. -/
def sortsMeant : List (String × Value) :=
  [("Host", .string "a"), ("Length", .ofInt 12), ("Via", .null), ("X", .ofInt 5)]

/-- These headers as elements of a list, behind an element that is no entry. -/
def listed (headers : List (String × Value)) : List Value :=
  .bool true :: headers.map fun e => .array [.string e.1, e.2]

theorem ofText?_ofInt {n : Int} (spelled : Json.Number.IsSpelled n) :
    Value.ofText? (Value.ofInt n).toText = some (.ofInt n) := by
  have written : Tree.ofText? (Value.ofInt n).toText = some (Value.ofInt n).tree :=
    Value.ofText?_toText (Value.each_number.2 spelled)
  rw [Value.ofText?, Value.ofTextWithin?, bind_of_some written]
  exact congrArg (Option.map Value.number) (Json.Number.value?_integer spelled)

theorem ofTree?_sorts (room : Nat) : List.Forall₂ (fun e e' => e'.1 = e.1 ∧
    Value.ofTree? (room + 1) e.2.tree = some e'.2) sorts sortsMeant := by
  have number (n : Int) (spelled : Json.Number.IsSpelled n) :
      Value.ofTree? (room + 1) (Value.ofInt n).tree = some (.ofInt n) :=
    congrArg (Option.map Value.number) (Json.Number.value?_integer spelled)
  refine .cons ⟨rfl, ?_⟩ (.cons ⟨rfl, number 12 ⟨by decide, by decide⟩⟩ (.cons ⟨rfl, rfl⟩
    (.cons ⟨rfl, ?_⟩ .nil)))
  · exact congrArg (Option.map Value.string) (Literal.text?_ofText "a")
  · exact (Value.ofTree?_embedding_iff (by decide)).2
      ⟨_, Literal.text?_ofText _, ofText?_ofInt ⟨by decide, by decide⟩⟩

theorem tables_of_both_forms_sorts :
    ∃ table : Table String, table.get? "Host" = some "a" ∧ table.get? "Length" = some "12" ∧
      table.get? "Via" = none ∧ table.get? "X" = some "5" ∧
      Interface.Kind.request.decode? (textToX (.object sorts)) =
        some (.request { url := "/x", headers := table }) ∧
      Interface.Kind.request.decode? (textToX (.array (listed sorts))) =
        some (.request { url := "/x", headers := table }) ∧
      (Interface.request { headers := table }).decodedFrom (textToX (.bool true)) =
        .request { headers := table } := by
  obtain ⟨forms, -, refused, -⟩ := tables_of_both_forms .headers toX
  obtain ⟨table, keeps, object, list⟩ := forms sortsMeant (by decide)
  have number (name : String) (n : Int) (member : (name, Value.ofInt n) ∈ sortsMeant) :
      table.get? name = some (Value.ofInt n).toText :=
    keeps.other name (.ofInt n) member (by simp [Value.ofInt]) (by simp [Value.ofInt])
  have numbers : ∀ e ∈ sorts, e.2.Each Value.NumberReadsBack := by
    simp [sorts, Value.NumberReadsBack, Value.ofInt, Json.Number.ReadsBack, Json.Number.IsSpelled]
  refine ⟨table, keeps.string "Host" "a" (by simp [sortsMeant]),
    number "Length" 12 (by simp [sortsMeant]), keeps.null "Via" (by simp [sortsMeant]),
    number "X" 5 (by simp [sortsMeant]), ?_, ?_, ?_⟩
  · have written := written_toX (Value.each_object.2 ⟨trivial, numbers⟩)
    rw [object _ _ ?_ written, rest_toX]
    · rfl
    · rw [Value.memberTrees_eq_map, List.forall₂_map_left_iff]
      refine (ofTree?_sorts 124).imp ?_
      rintro e e' ⟨same, read⟩
      exact ⟨(Literal.text?_ofText e.1).trans (congrArg some same.symm), read⟩
  · have inside : ∀ v ∈ listed sorts, v.Each Value.NumberReadsBack := by
      refine List.forall_mem_cons.2
        ⟨Value.each_bool.2 trivial, List.forall_mem_map.2 fun e member => ?_⟩
      simpa [Value.NumberReadsBack] using numbers e member
    have written := written_toX (Value.each_array.2 ⟨trivial, inside⟩)
    rw [list _ (listed sortsMeant) _ ?_ (.refl _) written, rest_toX]
    · rfl
    · rw [Value.elementTrees_eq_map, listed, listed, List.map_cons, List.map_map]
      refine .cons rfl ?_
      rw [List.forall₂_map_left_iff, List.forall₂_map_right_iff]
      refine (ofTree?_sorts 123).imp ?_
      rintro e e' ⟨same, read⟩
      have named := (Literal.text?_ofText e.1).trans (congrArg some same.symm)
      exact isMeant_pair_iff.2 ⟨e'.1, e'.2, named, read, rfl⟩
  · exact (refused (.bool true) _ (written_toX (Value.each_bool.2 trivial))).2 id _

end Request

end ErrorIntake
