import ErrorIntake.Proofs.Interface.Headers
import Mathlib.Data.List.Perm.Basic
import Mathlib.Logic.Relation

/-!
# What is not set

Clients leave out what is not set, write it as `null`, or write members that nobody knows.  An object
without such members, and with the others in any order, is read as the same record: under every name
that the record knows the two have the same, but for a `null` where the other has nothing.  The
frames of a stacktrace and the stacktrace of an exception are objects of their own, which may be
written either way wherever they stand.
-/

namespace ErrorIntake

open Json (Tree Literal Value)
open Json.Tree (bind_of_some)

/-! ## Objects with keys of their own -/

namespace Json.Tree

/-- Every key of an object is a text, and no two of them are the same text. -/
structure Apart (members : List (Literal × Tree)) : Prop where
  named : ∀ m ∈ members, ∃ key, m.1.text? = some key
  once : (members.map fun m => m.1.text?).Nodup

theorem Apart.perm {members members' : List (Literal × Tree)} (apart : Apart members)
    (same : members.Perm members') : Apart members' where
  named m member := apart.named m (same.mem_iff.2 member)
  once := (same.map _).nodup_iff.1 apart.once

theorem Apart.left {members others : List (Literal × Tree)} (apart : Apart (members ++ others)) :
    Apart members where
  named m member := apart.named m (List.mem_append_left _ member)
  once := by
    have once := apart.once
    rw [List.map_append] at once
    exact once.of_append_left

/-- What is written under different keys has keys of its own. -/
theorem apart_memberTrees {members : List (String × Value)}
    (once : (members.map Prod.fst).Nodup) : Apart (Value.memberTrees members) where
  named m member := by
    rw [Value.memberTrees_eq_map] at member
    obtain ⟨e, -, rfl⟩ := List.mem_map.1 member
    exact ⟨e.1, Literal.text?_ofText e.1⟩
  once := by
    rw [Value.memberTrees_eq_map, List.map_map]
    have keys : members.map ((fun m => m.1.text?) ∘ fun e => (Literal.ofText e.1, e.2.tree)) =
        (members.map Prod.fst).map some := by
      simp [Function.comp_def, Literal.text?_ofText]
    exact keys ▸ once.map fun _ _ => Option.some.inj

/-- A member of an object with the text of its key. -/
def named? (m : Literal × Tree) : Option (String × Tree) := m.1.text?.map fun name => (name, m.2)

/-- An object with keys of its own is a record of any names, and gives under a name what stands
    there. -/
theorem exists_record?_of_apart {members : List (Literal × Tree)} (apart : Apart members)
    (names : List String) :
    ∃ named, (object members).record? names = some named ∧
      ∀ name t, named.lookup name = some t ↔ ∃ m ∈ members, named? m = some (name, t) := by
  have each : ∀ m ∈ members, ∃ e, named? m = some e := fun m member => by
    obtain ⟨key, isKey⟩ := apart.named m member
    exact ⟨_, congrArg _ isKey⟩
  obtain ⟨named, read⟩ := exists_mapM_eq_some_iff.2 each
  have entries : members.map named? = named.map some := map_eq_of_mapM read
  have keys : (members.map fun m => m.1.text?) = (named.map Prod.fst).map some := by
    have firsts := congrArg (List.map (Option.map Prod.fst)) entries
    simpa [named?, Function.comp_def] using firsts
  have once : (named.map Prod.fst).Nodup := (keys ▸ apart.once).of_map some
  refine ⟨named, ?_, fun name t => ?_⟩
  · have single : ∀ name ∈ names, occurrences named name ≤ 1 := fun name _ => by
      have count := List.nodup_iff_count_le_one.1 once name
      rwa [List.count, List.countP_map] at count
    exact (bind_of_some read _).trans (if_pos (by simpa using single))
  · have member : (name, t) ∈ named ↔ some (name, t) ∈ members.map named? := by
      rw [entries, List.mem_map_of_injective fun _ _ => Option.some.inj]
    rw [Table.lookup_eq_some_iff once, member, List.mem_map]

/-! ## Records that say the same -/

/-- Under each of the names the second record has what the first has, or has nothing where the first
    has `null`. -/
def SaysSame (names : List String) (named named' : List (String × Tree)) : Prop :=
  ∀ name ∈ names, named'.lookup name = named.lookup name ∨
    named.lookup name = some .null ∧ named'.lookup name = none

namespace SaysSame

variable {α : Type} {decode : Tree → Option α} {default : α} {names : List String}
  {named named' : List (String × Tree)} {name : String}

theorem lenient?_eq (same : SaysSame names named named') (known : name ∈ names) :
    Tree.lenient? decode default named' name = Tree.lenient? decode default named name := by
  rcases same name known with equal | ⟨isNull, left⟩
  · rw [Tree.lenient?, equal, Tree.lenient?]
  · rw [Tree.lenient?, left, Tree.lenient?, isNull]

/-- Where `null` stands for the default, it says the same as nothing. -/
theorem optional?_eq (same : SaysSame names named named') (null : decode .null = some default)
    (known : name ∈ names) :
    Tree.optional? decode default named' name = Tree.optional? decode default named name := by
  rcases same name known with equal | ⟨isNull, left⟩
  · rw [Tree.optional?, equal, Tree.optional?]
  · rw [Tree.optional?, left, Tree.optional?, isNull]
    exact null.symm

end SaysSame

end Json.Tree

theorem Json.Value.ofTree?_null (room : Nat) : Value.ofTree? room .null = some .null := by
  cases room <;> rfl

section

variable {t t' : Tree} {named named' : List (String × Tree)}

/-- A request is read from what stands under its names, and so are the other records. -/
theorem Request.ofTree?_eq (read : t.record? memberNames = some named)
    (read' : t'.record? memberNames = some named')
    (same : Tree.SaysSame memberNames named named') (room : Nat) :
    ofTree? room t = ofTree? room t' := by
  cases room with
  | zero => rfl
  | succ room =>
    rw [ofTree?, ofTree?, bind_of_some read, bind_of_some read']
    simp (disch := decide) only [same.lenient?_eq, same.optional?_eq (texts?_null room),
      same.optional?_eq (Value.ofTree?_null room)]

theorem Frame.ofTree?_eq (read : t.record? memberNames = some named)
    (read' : t'.record? memberNames = some named')
    (same : Tree.SaysSame memberNames named named') (room : Nat) :
    ofTree? room t = ofTree? room t' := by
  cases room with
  | zero => rfl
  | succ room =>
    rw [ofTree?, ofTree?, bind_of_some read, bind_of_some read']
    simp (disch := decide) only [same.lenient?_eq, same.optional?_eq (Value.ofTree?_null room)]

theorem Stacktrace.ofTree?_eq (read : t.record? ["frames"] = some named)
    (read' : t'.record? ["frames"] = some named')
    (same : Tree.SaysSame ["frames"] named named') (room : Nat) :
    ofTree? room t = ofTree? room t' := by
  cases room with
  | zero => rfl
  | succ room =>
    rw [ofTree?, ofTree?, bind_of_some read, bind_of_some read']
    simp (disch := decide) only [same.lenient?_eq]

theorem Exception.ofTree?_eq (read : t.record? memberNames = some named)
    (read' : t'.record? memberNames = some named')
    (same : Tree.SaysSame memberNames named named') (room : Nat) :
    ofTree? room t = ofTree? room t' := by
  cases room with
  | zero => rfl
  | succ room =>
    have null : Tree.option? (Stacktrace.ofTree? room) .null = some none := rfl
    rw [ofTree?, ofTree?, bind_of_some read, bind_of_some read']
    simp (disch := decide) only [same.lenient?_eq, same.optional?_eq null]

end

/-! ## Records inside records -/

section

variable {t t' : Tree}

/-- A stacktrace is the same whatever its frames are written as, if they are the same frames. -/
theorem Stacktrace.ofTree?_fill_eq (gap : Tree.Gap ["frames"] "frames") (given : t ≠ .null)
    (given' : t' ≠ .null) (same : ∀ room, ofTree?.frames? room t = ofTree?.frames? room t')
    (room : Nat) : ofTree? room (gap.fill t) = ofTree? room (gap.fill t') := by
  cases room with
  | zero => rfl
  | succ room =>
    rcases gap.record?_fill (by decide) (by decide) with refused | ⟨before, after, first, reads⟩
    · rw [ofTree?, ofTree?, refused, refused]
    · rw [ofTree?, ofTree?, bind_of_some (reads t), bind_of_some (reads t'),
        Tree.Gap.lenient?_self first t given, Tree.Gap.lenient?_self first t' given', same]

/-- An exception is the same whatever its stacktrace is written as, if it is the same stacktrace. -/
theorem Exception.ofTree?_fill_eq (gap : Tree.Gap memberNames "stacktrace") (given : t ≠ .null)
    (given' : t' ≠ .null) (same : ∀ room, Stacktrace.ofTree? room t = Stacktrace.ofTree? room t')
    (room : Nat) : ofTree? room (gap.fill t) = ofTree? room (gap.fill t') := by
  cases room with
  | zero => rfl
  | succ room =>
    rcases gap.record?_fill (by decide) (by decide) with refused | ⟨before, after, first, reads⟩
    · rw [ofTree?, ofTree?, refused, refused]
    · rw [ofTree?, ofTree?, bind_of_some (reads t), bind_of_some (reads t')]
      simp (disch := decide) only [Tree.Gap.lenient?_other first, Tree.Gap.optional?_self first,
        Tree.option?_of_ne_null given, Tree.option?_of_ne_null given', same]

end

namespace Interface

/-! ## Leaving out what is not set -/

/-- The records that interfaces are made of. -/
inductive Record
  | request
  | exception
  | stacktrace
  | frame
  deriving DecidableEq, Repr

/-- The record that an interface of a kind is. -/
def Kind.record : Kind → Record
  | .exception => .exception
  | .stacktrace => .stacktrace
  | .request => .request

namespace Record

/-- The names of the members that a record knows. -/
def names : Record → List String
  | request => Request.memberNames
  | exception => Exception.memberNames
  | stacktrace => ["frames"]
  | frame => Frame.memberNames

/-- What a record is read as. -/
def Content : Record → Type
  | request => Request
  | exception => Exception
  | stacktrace => Stacktrace
  | frame => Frame

/-- A record from JSON. -/
def ofTree? : (r : Record) → (room : Nat) → Tree → Option r.Content
  | request => Request.ofTree?
  | exception => Exception.ofTree?
  | stacktrace => Stacktrace.ofTree?
  | frame => Frame.ofTree?

/-- The record that a JSON text describes. -/
def decode? (r : Record) (text : String) : Option r.Content :=
  (Tree.ofText? text).bind (r.ofTree? Json.nestingLimit)

/-- What a record adds to a fingerprint. -/
def fingerprint : (r : Record) → r.Content → String
  | request => Request.fingerprint
  | exception => Exception.fingerprint
  | stacktrace => Stacktrace.fingerprint
  | frame => Frame.fingerprint

/-- The member sets nothing: it is `null`, or the record knows no member of its name. -/
def IsUnset (r : Record) (m : Literal × Tree) : Prop :=
  m.2 = .null ∨ ∀ name ∈ r.names, m.1.text? ≠ some name

/-- The second tree is the first one where one object, the record itself or a record inside it, has
    lost some members that set nothing and has the others in any order. -/
inductive Trimmed : Record → Tree → Tree → Prop
  | members {r : Record} {members kept dropped : List (Literal × Tree)} (apart : Tree.Apart members)
      (split : members.Perm (kept ++ dropped)) (unset : ∀ m ∈ dropped, r.IsUnset m) :
      Trimmed r (.object members) (.object kept)
  | frame (gap : Tree.Gap ["frames"] "frames") (before after : List Tree) {t t' : Tree}
      (inside : Trimmed frame t t') :
      Trimmed stacktrace (gap.fill (.array (before ++ t :: after)))
        (gap.fill (.array (before ++ t' :: after)))
  | stacktrace (gap : Tree.Gap Exception.memberNames "stacktrace") {t t' : Tree}
      (inside : Trimmed stacktrace t t') : Trimmed exception (gap.fill t) (gap.fill t')

theorem ne_null_of_trimmed {r : Record} {t t' : Tree} (trimmed : r.Trimmed t t') :
    t ≠ .null ∧ t' ≠ .null := by
  cases trimmed with
  | members => exact ⟨Tree.noConfusion, Tree.noConfusion⟩
  | frame gap => exact ⟨gap.fill_ne_null _, gap.fill_ne_null _⟩
  | stacktrace gap => exact ⟨gap.fill_ne_null _, gap.fill_ne_null _⟩

/-- What is left of an object says the same as the whole object. -/
theorem saysSame_of_split {r : Record} {members kept dropped : List (Literal × Tree)}
    (apart : Tree.Apart members) (split : members.Perm (kept ++ dropped))
    (unset : ∀ m ∈ dropped, r.IsUnset m) :
    ∃ named named', (Tree.object members).record? r.names = some named ∧
      (Tree.object kept).record? r.names = some named' ∧ Tree.SaysSame r.names named named' := by
  obtain ⟨named, read, whole⟩ := Tree.exists_record?_of_apart apart r.names
  obtain ⟨named', read', left⟩ := Tree.exists_record?_of_apart (apart.perm split).left r.names
  have stays {name : String} {t : Tree} (found : named'.lookup name = some t) :
      named.lookup name = some t := by
    obtain ⟨m, member, isEntry⟩ := (left name t).1 found
    exact (whole name t).2 ⟨m, split.mem_iff.2 (List.mem_append_left _ member), isEntry⟩
  refine ⟨named, named', read, read', fun name known => ?_⟩
  cases found' : named'.lookup name with
  | some t => exact .inl (stays found').symm
  | none =>
    cases found : named.lookup name with
    | none => exact .inl rfl
    | some t =>
      obtain ⟨m, member, isEntry⟩ := (whole name t).1 found
      obtain ⟨_, isKey, same⟩ := Option.map_eq_some_iff.1 isEntry
      cases same
      rcases List.mem_append.1 (split.mem_iff.1 member) with isKept | isDropped
      · have found := (left name m.2).2 ⟨m, isKept, isEntry⟩
        cases found'.symm.trans found
      -- The name is known, so the member was dropped because it is `null`.
      · rcases unset m isDropped with isNull | unknown
        · exact .inr ⟨congrArg some isNull, rfl⟩
        · exact absurd isKey (unknown name known)

/-- A trimmed tree is read as the same record. -/
theorem ofTree?_of_trimmed {r : Record} {t t' : Tree} (trimmed : r.Trimmed t t') (room : Nat) :
    r.ofTree? room t = r.ofTree? room t' := by
  induction trimmed generalizing room with
  | @members r _ _ _ apart split unset =>
    obtain ⟨named, named', read, read', same⟩ := saysSame_of_split apart split unset
    cases r with
    | request => exact Request.ofTree?_eq read read' same room
    | exception => exact Exception.ofTree?_eq read read' same room
    | stacktrace => exact Stacktrace.ofTree?_eq read read' same room
    | frame => exact Frame.ofTree?_eq read read' same room
  | frame gap before after inside ih =>
    refine Stacktrace.ofTree?_fill_eq gap Tree.noConfusion Tree.noConfusion (fun room => ?_) room
    cases room with
    | zero => rfl
    | succ room =>
      have same : Frame.ofTree? room _ = Frame.ofTree? room _ := ih room
      simp only [Stacktrace.ofTree?.frames?, Tree.list?, List.mapM_append, List.mapM_cons, same]
  | stacktrace gap inside ih =>
    obtain ⟨given, given'⟩ := ne_null_of_trimmed inside
    exact Exception.ofTree?_fill_eq gap given given' ih room

/-- Trees that are trimmed and filled up again, one step after another, are read as the same
    record. -/
theorem ofTree?_of_eqvGen {r : Record} {t t' : Tree} (alike : Relation.EqvGen r.Trimmed t t')
    (room : Nat) : r.ofTree? room t = r.ofTree? room t' := by
  induction alike with
  | rel _ _ trimmed => exact ofTree?_of_trimmed trimmed room
  | refl _ => rfl
  | symm _ _ _ ih => exact ih.symm
  | trans _ _ _ _ _ first second => exact first.trans second

/-- However a client spells what is not set, a record is read the same.  In the object of a request,
    an exception, a stacktrace or a frame, and in the stacktraces and frames inside one, members that
    are `null` or have an unknown name may be left out, whatever stands under that name, and members
    may change places: if every key is a text of its own, the record is read from neither or from
    both, and is the same in its content and its fingerprint. -/
theorem unset_members_say_nothing {r : Record} {s s' : String} {t t' : Tree}
    (written : Tree.ofText? s = some t) (written' : Tree.ofText? s' = some t')
    (alike : Relation.EqvGen r.Trimmed t t') :
    r.decode? s = r.decode? s' ∧
    (r.decode? s).map r.fingerprint = (r.decode? s').map r.fingerprint ∧
    ∀ kind : Kind, kind.record = r →
      kind.decode? s = kind.decode? s' ∧
      (kind.decode? s).map Interface.fingerprint = (kind.decode? s').map Interface.fingerprint ∧
      ∀ previous : Interface, previous.kind = kind →
        previous.decodedFrom s = previous.decodedFrom s' := by
  have read : r.ofTree? Json.nestingLimit t = r.ofTree? Json.nestingLimit t' :=
    ofTree?_of_eqvGen alike _
  have same : r.decode? s = r.decode? s' := by
    rw [decode?, decode?, written, written', Option.bind_some, Option.bind_some, read]
  refine ⟨same, congrArg _ same, ?_⟩
  rintro kind rfl
  have sameKind : kind.decode? s = kind.decode? s' := by
    rw [Kind.decode?, Kind.decode?, written, written', Option.bind_some, Option.bind_some]
    cases kind <;> exact congrArg (Option.map _) read
  refine ⟨sameKind, congrArg _ sameKind, ?_⟩
  rintro previous rfl
  rw [decodedFrom, decodedFrom, sameKind]

/-- What is written without some members that set nothing, and in any order, is trimmed. -/
theorem trimmed_of_written {r : Record} {members : List (String × Value)}
    (kept dropped : List (String × Value)) (once : (members.map Prod.fst).Nodup)
    (split : members.Perm (kept ++ dropped))
    (unset : ∀ m ∈ dropped, m.2 = .null ∨ m.1 ∉ r.names) :
    r.Trimmed (Value.object members).tree (Value.object kept).tree := by
  have trees : (Value.memberTrees members).Perm
      (Value.memberTrees kept ++ Value.memberTrees dropped) := by
    simp only [Value.memberTrees_eq_map, ← List.map_append]
    exact split.map _
  refine .members (Tree.apart_memberTrees once) trees fun m member => ?_
  rw [Value.memberTrees_eq_map] at member
  obtain ⟨e, isDropped, rfl⟩ := List.mem_map.1 member
  rcases unset e isDropped with isNull | unknown
  · exact .inl (by rw [isNull, Value.tree])
  · refine .inr fun name known isKey => unknown ?_
    rw [Literal.text?_ofText] at isKey
    cases isKey
    exact known

/-- A stacktrace with one frame. -/
def traceOf (frame : Value) : Value := .object [("frames", .array [frame])]

/-- An exception with a stacktrace. -/
def raised (trace : Value) : Value := .object [("type", .string "E"), ("stacktrace", trace)]

/-- A frame with nothing but a function. -/
def bareFrame : Value := .object [("function", .string "f")]

/-- The frame with variables that are `null` and a member that frames do not have. -/
def paddedFrame : Value :=
  .object [("vars", .null), ("function", .string "f"), ("symbol", .array [.bool true])]

/-- An exception with a stacktrace, in another order and with a value that is `null`. -/
def padded (trace : Value) : Value :=
  .object [("stacktrace", trace), ("type", .string "E"), ("value", .null)]

theorem unset_members_say_nothing_padded :
    Kind.exception.decode? (padded (traceOf paddedFrame)).toText =
      Kind.exception.decode? (raised (traceOf bareFrame)).toText ∧
    Kind.exception.decode? (raised (traceOf bareFrame)).toText =
      some (.exception { type := "E", stacktrace := some { frames := [{ function := "f" }] } }) := by
  have inFrame : frame.Trimmed paddedFrame.tree bareFrame.tree :=
    trimmed_of_written [("function", .string "f")]
      [("vars", .null), ("symbol", .array [.bool true])] (by decide) (.swap _ _ _)
      (by simp [names, Frame.memberNames])
  have inTrace : stacktrace.Trimmed (traceOf paddedFrame).tree (traceOf bareFrame).tree :=
    .frame (.named [] (Literal.ofText "frames") (Literal.text?_ofText _) []) [] [] inFrame
  have inside : exception.Trimmed (padded (traceOf paddedFrame)).tree
      (padded (traceOf bareFrame)).tree :=
    .stacktrace (.named [] (Literal.ofText "stacktrace") (Literal.text?_ofText _)
      (Value.memberTrees [("type", .string "E"), ("value", .null)])) inTrace
  have outside : exception.Trimmed (padded (traceOf bareFrame)).tree
      (raised (traceOf bareFrame)).tree :=
    trimmed_of_written [("type", .string "E"), ("stacktrace", traceOf bareFrame)]
      [("value", .null)] (by simp) (.swap _ _ _) (by simp)
  have written : Tree.ofText? (padded (traceOf paddedFrame)).toText =
      some (padded (traceOf paddedFrame)).tree :=
    Value.ofText?_toText (by simp [padded, traceOf, paddedFrame, Value.NumberReadsBack])
  have written' : Tree.ofText? (raised (traceOf bareFrame)).toText =
      some (raised (traceOf bareFrame)).tree :=
    Value.ofText?_toText (by simp [raised, traceOf, bareFrame, Value.NumberReadsBack])
  obtain ⟨-, -, kinds⟩ := unset_members_say_nothing written written'
    (.trans _ _ _ (.rel _ _ inside) (.rel _ _ outside))
  refine ⟨(kinds .exception rfl).1, ?_⟩
  rw [Kind.decode?, written']
  rfl

end Record

end Interface

end ErrorIntake
