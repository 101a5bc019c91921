import ErrorIntake.Proofs.Interface.Claiming
import Mathlib.Data.List.ReduceOption

/-!
# Who gets which key

Descriptors compete for keys: what one of them takes is gone for those behind it.  `IsGreedy` says
who takes what without a payload that shrinks.  There is one such matching only, `takenInTurn`, and
the claims of a registry, its warnings and what it leaves are told by it.
-/

namespace ErrorIntake.Interface

namespace Descriptor

/-- The first key of a descriptor that is in the payload and that nobody took yet. -/
def free? (payload : Table String) (taken : List (Option String)) (d : Descriptor) :
    Option String :=
  d.keys.find? fun key => payload.contains key && !taken.contains (some key)

/-- The claim of a descriptor that took a key, if it took one: what stands there as the descriptor
    decodes it, or the blank interface if it cannot be decoded. -/
def claimOn? (payload : Table String) (d : Descriptor) (key? : Option String) : Option Claim := do
  let key ← key?
  let text ← payload.get? key
  return { id := d.id, score := d.score, key
           value := (d.factory.decode? text).getD d.factory.blank
           malformed := (d.factory.decode? text).isNone }

/-- The warning about a descriptor that took a key and cannot decode what stands there. -/
def warningOn? (payload : Table String) (d : Descriptor) (key? : Option String) :
    Option LogRecord := do
  let key ← key?
  let text ← payload.get? key
  if (d.factory.decode? text).isNone then some (.malformedInterface d.id key) else none

theorem free?_nil (payload : Table String) (d : Descriptor) : d.free? payload [] = d.key? payload := by
  simp only [free?, key?, List.contains_nil, Bool.not_false, Bool.and_true]

/-- What is erased from the payload counts as taken. -/
theorem free?_erase (payload : Table String) (key : String) (taken : List (Option String))
    (d : Descriptor) : d.free? (payload.erase key) taken = d.free? payload (some key :: taken) := by
  rw [free?, free?]
  congr 1
  funext other
  rw [Table.contains, Table.get?_erase]
  by_cases same : other = key
  · simp [same]
  · simp [same, Table.contains]

theorem free?_cons_none (payload : Table String) (taken : List (Option String)) (d : Descriptor) :
    d.free? payload (none :: taken) = d.free? payload taken := by
  simp [free?]

theorem claimOn?_some {payload : Table String} {key raw : String}
    (found : payload.get? key = some raw) (d : Descriptor) :
    d.claimOn? payload (some key) = some (d.claim key raw) := by
  simp only [claimOn?, Option.bind_eq_bind, Option.bind_some, found, claim]
  cases d.factory.decode? raw <;> rfl

theorem warningOn?_eq_bind (payload : Table String) (d : Descriptor) (key? : Option String) :
    d.warningOn? payload key? = (d.claimOn? payload key?).bind Claim.warning? := by
  cases key? with
  | none => rfl
  | some key =>
    cases found : payload.get? key with
    | none => simp [warningOn?, claimOn?, found]
    | some raw => simp [warningOn?, claimOn?, found, Claim.warning?]

end Descriptor

/-- Which key each descriptor takes, in their order: the first of its keys that is in the payload
    and that no descriptor before it took, and none if there is no such key. -/
structure IsGreedy (descriptors : List Descriptor) (payload : Table String)
    (taken : List (Option String)) : Prop where
  length_eq : taken.length = descriptors.length
  takes_free : ∀ i (d : Descriptor), descriptors[i]? = some d →
    taken[i]? = some (d.free? payload (taken.take i))

namespace IsGreedy

variable {descriptors : List Descriptor} {payload : Table String} {taken other : List (Option String)}

/-- What a descriptor takes is settled by what those before it took. -/
theorem unique (h : IsGreedy descriptors payload taken) (h' : IsGreedy descriptors payload other) :
    other = taken := by
  have same : ∀ i ≤ descriptors.length, other.take i = taken.take i := by
    intro i
    induction i with
    | zero => exact fun _ => rfl
    | succ i ih =>
      intro within
      have here : descriptors[i]? = some descriptors[i] := List.getElem?_eq_getElem within
      have before := ih (Nat.le_of_succ_le within)
      rw [List.take_add_one, List.take_add_one, h.takes_free i _ here, h'.takes_free i _ here,
        before]
  have whole := same descriptors.length (Nat.le_refl _)
  rwa [← h.length_eq, List.take_length, h.length_eq, ← h'.length_eq, List.take_length] at whole

/-- A descriptor in front takes its key, and the others choose as if it was taken. -/
theorem cons {d : Descriptor} {key? : Option String} {left : Table String}
    (h : IsGreedy descriptors left taken) (isFirst : d.free? payload [] = key?)
    (gone : ∀ d before, Descriptor.free? left before d = d.free? payload (key? :: before)) :
    IsGreedy (d :: descriptors) payload (key? :: taken) where
  length_eq := congrArg (· + 1) h.length_eq
  takes_free := by
    intro i d' there
    cases i with
    | zero =>
      cases there
      rw [List.take_zero, isFirst]
      rfl
    | succ i =>
      rw [List.getElem?_cons_succ] at there ⊢
      rw [h.takes_free i d' there, List.take_succ_cons, gone]

end IsGreedy

namespace Registry

variable {payload whole : Table String}

/-- The keys that descriptors take in turn, each out of what those before it left. -/
def takenInTurn : List Descriptor → Table String → List (Option String)
  | [], _ => []
  | d :: rest, payload =>
    match d.key? payload with
    | none => none :: takenInTurn rest payload
    | some key => some key :: takenInTurn rest (payload.erase key)

theorem isGreedy_takenInTurn (descriptors : List Descriptor) (payload : Table String) :
    IsGreedy descriptors payload (takenInTurn descriptors payload) := by
  induction descriptors generalizing payload with
  | nil => exact ⟨rfl, by simp⟩
  | cons d rest ih =>
    rw [takenInTurn]
    have isFirst := d.free?_nil payload
    cases key : d.key? payload with
    | none =>
      rw [key] at isFirst
      exact (ih payload).cons isFirst fun d before => (d.free?_cons_none payload before).symm
    | some key =>
      rw [key] at isFirst
      exact (ih _).cons isFirst fun d before => d.free?_erase payload _ before

/-- A descriptor in front claims what it takes. -/
theorem claimInTurn_takes (d : Descriptor) (rest : List Descriptor) (payload : Table String) :
    (takenInTurn (d :: rest) payload = none :: takenInTurn rest payload ∧
      claimInTurn (d :: rest) payload = claimInTurn rest payload) ∨
    ∃ key raw, payload.get? key = some raw ∧
      takenInTurn (d :: rest) payload = some key :: takenInTurn rest (payload.erase key) ∧
      claimInTurn (d :: rest) payload =
        (d.claim key raw :: (claimInTurn rest (payload.erase key)).1,
          (claimInTurn rest (payload.erase key)).2) := by
  rcases claimInTurn_cons d rest payload with ⟨absent, made⟩ | ⟨key, raw, isFirst, -, found, made⟩
  · have nothing : d.key? payload = none := by
      refine List.find?_eq_none.2 fun key member => ?_
      simp [Table.contains, absent key member]
    refine .inl ⟨?_, made⟩
    rw [takenInTurn, nothing]
  · refine .inr ⟨key, raw, found, ?_, made⟩
    rw [takenInTurn, isFirst]

/-- Claims are told by the keys that were taken and by what stands there in a payload that has all
    that the descriptors see. -/
theorem claimInTurn_fst (descriptors : List Descriptor)
    (sees : ∀ key raw, payload.get? key = some raw → whole.get? key = some raw) :
    (claimInTurn descriptors payload).1 =
      (List.zipWith (Descriptor.claimOn? whole) descriptors
        (takenInTurn descriptors payload)).reduceOption := by
  induction descriptors generalizing payload with
  | nil => rfl
  | cons d rest ih =>
    rcases claimInTurn_takes d rest payload with ⟨taken, made⟩ | ⟨key, raw, found, taken, made⟩
    · rw [made, taken, List.zipWith_cons_cons, ih sees]
      rfl
    · have fewer : ∀ other raw, (payload.erase key).get? other = some raw →
          whole.get? other = some raw := by
        intro other raw there
        rw [Table.get?_erase] at there
        split at there
        · cases there
        · exact sees other raw there
      rw [made, taken, List.zipWith_cons_cons, Descriptor.claimOn?_some (sees key raw found),
        List.reduceOption_cons_of_some, ih fewer]

theorem keys_claimInTurn (descriptors : List Descriptor) (payload : Table String) :
    (claimInTurn descriptors payload).1.map Claim.key =
      (takenInTurn descriptors payload).reduceOption := by
  induction descriptors generalizing payload with
  | nil => rfl
  | cons d rest ih =>
    rcases claimInTurn_takes d rest payload with ⟨taken, made⟩ | ⟨key, raw, -, taken, made⟩
    · rw [made, taken, List.reduceOption_cons_of_none, ih]
    · rw [made, taken, List.reduceOption_cons_of_some, List.map_cons, Descriptor.claim_key, ih]

/-- What was not taken is left as it was. -/
theorem entries_claimInTurn (descriptors : List Descriptor) (payload : Table String) :
    (claimInTurn descriptors payload).2.entries =
      payload.entries.filter fun e => !(takenInTurn descriptors payload).contains (some e.1) := by
  induction descriptors generalizing payload with
  | nil => exact (List.filter_eq_self.2 fun _ _ => rfl).symm
  | cons d rest ih =>
    rcases claimInTurn_takes d rest payload with ⟨taken, made⟩ | ⟨key, raw, -, taken, made⟩
    · rw [made, taken, ih]
      simp
    · rw [made, taken, ih, Table.erase, List.filter_filter]
      refine List.filter_congr fun e _ => ?_
      by_cases same : e.1 = key
      · simp [same]
      · simp [same]

/-- Warnings are told by the keys that were taken, as claims are. -/
theorem warnings_claimInTurn (descriptors : List Descriptor) (payload : Table String) :
    (claimInTurn descriptors payload).1.filterMap Claim.warning? =
      (List.zipWith (Descriptor.warningOn? payload) descriptors
        (takenInTurn descriptors payload)).reduceOption := by
  rw [claimInTurn_fst descriptors fun _ _ => id, List.reduceOption, List.filterMap_filterMap,
    List.reduceOption]
  generalize takenInTurn descriptors payload = taken
  induction descriptors generalizing taken with
  | nil => rfl
  | cons d rest ih =>
    cases taken with
    | nil => rfl
    | cons key? taken =>
      rw [List.zipWith_cons_cons, List.zipWith_cons_cons, List.filterMap_cons, List.filterMap_cons,
        ih, Descriptor.warningOn?_eq_bind]
      rfl

/-- Claiming is a greedy matching of descriptors, the most important first, with keys of the
    payload: each takes the first of its keys that is there and that no other took before, and there
    is one such matching only.  A descriptor that takes a key makes one claim, with its id and score
    and with what stands under the key as it decodes it; if it cannot, the claim is blank, and then
    only there is a warning with its id and the key.  No key is claimed twice, scores do not rise
    from one claim to the next, and what is left is the payload without the claimed keys. -/
theorem claim_is_greedy (r : Registry) (payload : Table String) :
    ∃ taken : List (Option String),
      IsGreedy r.descriptors payload taken ∧
      (∀ other, IsGreedy r.descriptors payload other → other = taken) ∧
      (r.claim payload).1 =
        (List.zipWith (Descriptor.claimOn? payload) r.descriptors taken).reduceOption ∧
      (r.claim payload).1.map Claim.key = taken.reduceOption ∧
      taken.reduceOption.Nodup ∧
      (r.claim payload).1.Pairwise (fun c later => later.score ≤ c.score) ∧
      (r.claim payload).1.filterMap Claim.warning? =
        (List.zipWith (Descriptor.warningOn? payload) r.descriptors taken).reduceOption ∧
      (r.claim payload).2.entries =
        payload.entries.filter fun e => !taken.contains (some e.1) := by
  have greedy := isGreedy_takenInTurn r.descriptors payload
  have keys := keys_claimInTurn r.descriptors payload
  have distinct : (takenInTurn r.descriptors payload).reduceOption.Nodup := by
    have perm := keys_perm r.descriptors payload
    rw [keys] at perm
    exact (perm.nodup payload.nodup_keys).of_append_left
  have scores : ((r.claim payload).1.map Claim.score).Pairwise fun s later => later ≤ s :=
    (List.pairwise_map.2 r.ordered).sublist
      (map_sublist Claim.score Descriptor.score Descriptor.claim_score r.descriptors payload)
  exact ⟨_, greedy, fun _ => greedy.unique, claimInTurn_fst r.descriptors fun _ _ => id, keys,
    distinct, List.pairwise_map.1 scores, warnings_claimInTurn r.descriptors payload,
    entries_claimInTurn r.descriptors payload⟩

/-- A kind of interface that does not come with the program: a note is any text, as it is written. -/
def note : Factory where
  blank := ⟨"", "note.html", .null, Json.Value.each_null.2 trivial⟩
  decode? text := some ⟨text, "note.html", .string text, Json.Value.isCanonical_string text⟩

/-- Two descriptors with each other's keys, and one of notes that finds its first key taken. -/
def contested : Registry := .ofList
  [⟨"a", ["b"], 3, .ofKind .request⟩, ⟨"b", ["a", "c"], 3, .ofKind .stacktrace⟩,
   ⟨"c", ["d"], 1, note⟩]

example :
    let (claims, left) :=
      contested.claim (.ofList [("b", "[]"), ("c", "7"), ("d", "[ 1 ]"), ("e", " 1")])
    (claims.map fun c => (c.id, c.key), claims.getLast?.map fun c => c.value.fingerprint,
        claims.filterMap Claim.warning?, left.entries) =
      ([("a", "b"), ("b", "c"), ("c", "d")], some "[ 1 ]", [.malformedInterface "b" "c"],
        [("e", " 1")]) := by
  decide +kernel

end Registry

end ErrorIntake.Interface
