import ErrorIntake.Proofs.Interface.Claiming
import ErrorIntake.Proofs.Submission.Members
import ErrorIntake.Proofs.Submission.Parsed

/-!
# The data of a report

What a payload has beside the known fields is found again in the data of its report, each member
once: under the id of the descriptor that claimed it, or under its own key as it was written.
-/

namespace ErrorIntake.Submission

open Interface (Claim Descriptor Registry)
open Json (Value)

variable {interfaces : Registry} {payload : Payload} {key raw : String}

theorem Field.mem_all (field : Field) : field ∈ Field.all := by
  cases field <;> decide

theorem get?_unknownMembers (payload : Payload) (key : String) :
    (unknownMembers payload).get? key =
      if key ∈ Field.all.map Field.name then none else payload.get? key :=
  Table.get?_foldl_erase Field.name Field.all payload key

/-! ## Data under its keys -/

section

variable {claims : List Claim} {left : Payload}

/-- Under a key stands what was left there, or else what was claimed with that id. -/
theorem get?_dataOf (once : (claims.map Claim.id).Nodup) {v : Value} :
    (dataOf claims left).get? key = some v ↔
      (∃ raw, left.get? key = some raw ∧ v = .string raw) ∨
      left.get? key = none ∧ ∃ c ∈ claims, c.id = key ∧ v = c.value.toValue := by
  have onceLeft : ((left.entries.map fun e => (e.1, Value.string e.2)).reverse.map
      Prod.fst).Nodup := by
    rw [List.map_reverse, List.map_map]
    exact List.nodup_reverse.2 left.nodup_keys
  have onceClaimed : ((claims.map fun c => (c.id, c.value.toValue)).reverse.map
      Prod.fst).Nodup := by
    rw [List.map_reverse, List.map_map]
    exact List.nodup_reverse.2 once
  have ofLeft {w : Value} : (left.entries.map fun e => (e.1, Value.string e.2)).reverse.lookup key =
      some w ↔ ∃ raw, left.get? key = some raw ∧ w = .string raw := by
    rw [Table.lookup_eq_some_iff onceLeft, List.mem_reverse, List.mem_map]
    constructor
    · rintro ⟨⟨k, raw⟩, member, same⟩
      cases same
      exact ⟨raw, Table.get?_eq_some_iff.2 member, rfl⟩
    · rintro ⟨raw, found, rfl⟩
      exact ⟨(key, raw), Table.get?_eq_some_iff.1 found, rfl⟩
  have ofClaims {w : Value} :
      (claims.map fun c => (c.id, c.value.toValue)).reverse.lookup key = some w ↔
        ∃ c ∈ claims, c.id = key ∧ w = c.value.toValue := by
    rw [Table.lookup_eq_some_iff onceClaimed, List.mem_reverse, List.mem_map]
    constructor
    · rintro ⟨c, member, same⟩
      cases same
      exact ⟨c, member, rfl, rfl⟩
    · rintro ⟨c, member, rfl, rfl⟩
      exact ⟨c, member, rfl⟩
  rw [dataOf, Table.get?_foldl_insert, Table.get?_foldl_insert]
  have nothing : (∅ : Table Value).get? key = none := rfl
  rw [nothing, Option.or_none, Option.or_eq_some_iff, ofLeft, ofClaims]
  refine or_congr_right (and_congr_left fun _ => ?_)
  cases found : left.get? key with
  | none =>
    refine iff_of_true (Option.eq_none_iff_forall_ne_some.2 fun w some => ?_) rfl
    obtain ⟨raw, there, -⟩ := ofLeft.1 some
    rw [found] at there
    cases there
  | some raw =>
    have some := ofLeft.2 ⟨raw, found, rfl⟩
    rw [some]
    simp

/-- The keys of the data are the ids of the claims and what is left, when these are apart. -/
theorem keys_dataOf_perm (once : (claims.map Claim.id ++ left.keys).Nodup) :
    (dataOf claims left).keys.Perm (claims.map Claim.id ++ left.keys) := by
  have onceClaimed := (List.nodup_append.1 once).1
  refine (List.perm_ext_iff_of_nodup (dataOf claims left).nodup_keys once).2 fun key => ?_
  rw [List.mem_append, List.mem_map, Table.mem_keys_iff, Table.mem_keys_iff]
  simp only [get?_dataOf onceClaimed]
  constructor
  · rintro ⟨v, ⟨raw, found, -⟩ | ⟨-, c, member, same, -⟩⟩
    · exact .inr ⟨raw, found⟩
    · exact .inl ⟨c, member, same⟩
  · rintro (⟨c, member, same⟩ | ⟨raw, found⟩)
    · cases found : left.get? key with
      | none => exact ⟨_, .inr ⟨rfl, c, member, same, rfl⟩⟩
      | some raw => exact ⟨_, .inl ⟨raw, rfl, rfl⟩⟩
    · exact ⟨_, .inl ⟨raw, found, rfl⟩⟩

end

/-! ## Data of a payload -/

/-- The ids of the claims and the keys that are left are apart, if no two descriptors share an id. -/
theorem nodup_claims_left (once : (interfaces.descriptors.map Descriptor.id).Nodup)
    (payload : Payload) :
    ((interfaces.claim payload).1.map Claim.id ++ (interfaces.claim payload).2.keys).Nodup := by
  have ids := once.sublist (Registry.ids_sublist interfaces.descriptors payload)
  refine List.nodup_append.2 ⟨ids, Table.nodup_keys _, ?_⟩
  rintro id claimed key isLeft rfl
  obtain ⟨c, member, rfl⟩ := List.mem_map.1 claimed
  obtain ⟨d, listed, raw, -, -, same⟩ := Registry.claim_origin member
  have gone : (interfaces.claim payload).2.get? d.id = none := Registry.get?_id listed
  rw [Table.get?_eq_none_iff] at gone
  rw [same, Descriptor.claim_id] at isLeft
  exact gone isLeft

/-- Every member of an accepted body beside the known fields is accounted for once: an interface
    claims it, or it is archived under its own key as it was written.  Nothing is overwritten, and no
    known field is among the data. -/
theorem members_accounted (interfaces : Registry) (occasion : Occasion) (body : Bytes) (r : Report)
    (logs : List LogRecord) (once : (interfaces.descriptors.map Descriptor.id).Nodup)
    (foreign : ∀ d ∈ interfaces.descriptors, ∀ field : Field, d.id ≠ field.name)
    (read : readBody interfaces occasion body = .ok (r, logs)) :
    ∃ (members : List (String × String)) (payload : Payload),
      Body.IsWritten body members ∧
      (∀ key, payload.get? key =
        if key ∈ Field.all.map Field.name then none else members.reverse.lookup key) ∧
      payload.keys.Perm ((interfaces.claim payload).1.map Claim.key ++
        (interfaces.claim payload).2.keys) ∧
      r.data.keys.Perm ((interfaces.claim payload).1.map Claim.id ++
        (interfaces.claim payload).2.keys) ∧
      ((interfaces.claim payload).1.map Claim.id ++ (interfaces.claim payload).2.keys).Nodup ∧
      (∀ c ∈ (interfaces.claim payload).1, ∃ d ∈ interfaces.descriptors, ∃ raw,
        c.id = d.id ∧ c.key ∈ d.keys ∧ payload.get? c.key = some raw ∧
        r.data.get? d.id = some ((d.factory.decode? raw).getD d.factory.blank).toValue) ∧
      (∀ key raw, (interfaces.claim payload).2.get? key = some raw →
        payload.get? key = some raw ∧ r.data.get? key = some (.string raw)) ∧
      ∀ field : Field, field.name ∉ r.data.keys := by
  unfold readBody at read
  split at read
  · next whole isWhole =>
    obtain ⟨members, written, rfl⟩ := Body.isWritten_of_payload? isWhole
    have data := (readFrom_of_readPayload read).data
    generalize unknown : unknownMembers (Table.ofList members) = payload at data
    have apart := nodup_claims_left once payload
    have ids := (List.nodup_append.1 apart).1
    have known (key : String) : payload.get? key =
        if key ∈ Field.all.map Field.name then none else members.reverse.lookup key := by
      rw [← unknown, get?_unknownMembers, Table.get?_ofList]
    have keys := keys_dataOf_perm apart
    rw [← data] at keys
    refine ⟨members, payload, written, known, Registry.keys_perm interfaces.descriptors payload, keys,
      apart, ?_, ?_, ?_⟩
    · intro c member
      obtain ⟨d, listed, raw, own, found, same⟩ := Registry.claim_origin member
      have id : c.id = d.id := by rw [same, Descriptor.claim_id]
      have value : c.value = (d.factory.decode? raw).getD d.factory.blank := by
        rw [same, Descriptor.claim_value, Interface.Factory.read]
      refine ⟨d, listed, raw, id, own, found, ?_⟩
      rw [data, ← value]
      exact (get?_dataOf ids).2 (.inr ⟨Registry.get?_id listed, c, member, id, rfl⟩)
    · intro key raw isLeft
      refine ⟨Registry.get?_of_left isLeft, ?_⟩
      rw [data]
      exact (get?_dataOf ids).2 (.inl ⟨raw, isLeft, rfl⟩)
    · intro field member
      rcases List.mem_append.1 (keys.mem_iff.1 member) with claimed | isLeft
      · obtain ⟨c, inside, same⟩ := List.mem_map.1 claimed
        obtain ⟨d, listed, raw, -, -, isClaim⟩ := Registry.claim_origin inside
        rw [isClaim, Descriptor.claim_id] at same
        exact foreign d listed field same
      · obtain ⟨raw, found⟩ := Table.mem_keys_iff.1 isLeft
        have there := Registry.get?_of_left found
        rw [known, if_pos (List.mem_map_of_mem field.mem_all)] at there
        cases there
  · cases read

/-- A body with a known field, an interface under an alias, and a key that stands in it twice. -/
def mixedBody : Bytes :=
  Text.toBytes "\x7b\"message\":\"m\",\"exception\":\x7b\x7d, \"a\" : 1,\"a\": [ 2 ] \x7d"

theorem members_accounted_mixedBody :
    (Registry.standard.descriptors.map Descriptor.id).Nodup ∧
    (∀ d ∈ Registry.standard.descriptors, ∀ field : Field, d.id ≠ field.name) ∧
    ∃ r logs, readBody .standard ⟨.epoch, "e1"⟩ mixedBody = .ok (r, logs) ∧
      r.data.keys = ["a", "sentry.interfaces.Exception"] ∧
      (r.data.get? "a").map Value.toText = some "\"[ 2 ]\"" ∧
      (∃ members, Body.IsWritten mixedBody members) ∧ ∀ field : Field, field.name ∉ r.data.keys := by
  have once : (Registry.standard.descriptors.map Descriptor.id).Nodup := by decide +kernel
  have foreign : ∀ d ∈ Registry.standard.descriptors, ∀ field : Field, d.id ≠ field.name := by
    intro d listed field
    have apart : ∀ d ∈ Registry.standard.descriptors, ∀ field ∈ Field.all, d.id ≠ field.name := by
      decide +kernel
    exact apart d listed field field.mem_all
  have seen : ((readBody .standard ⟨.epoch, "e1"⟩ mixedBody).toOption.map fun read =>
      (read.1.data.keys, (read.1.data.get? "a").map Value.toText)) =
        some (["a", "sentry.interfaces.Exception"], some "\"[ 2 ]\"") := by
    decide +kernel
  cases read : readBody .standard ⟨.epoch, "e1"⟩ mixedBody with
  | error e =>
    rw [read] at seen
    cases seen
  | ok found =>
    obtain ⟨r, logs⟩ := found
    rw [read] at seen
    obtain ⟨keys, archived⟩ := Prod.mk.inj (Option.some.inj seen)
    obtain ⟨members, -, written, -, -, -, -, -, -, known⟩ :=
      members_accounted .standard ⟨.epoch, "e1"⟩ mixedBody r logs once foreign read
    exact ⟨once, foreign, r, logs, rfl, keys, archived, ⟨members, written⟩, known⟩

end ErrorIntake.Submission
