import ErrorIntake.Interface.Registry
import ErrorIntake.Proofs.Table

/-!
# What descriptors claim

Descriptors claim in turn.  `claimInTurn_cons` has the two things that one of them can do, and the
others follow by induction on the descriptors: no key is claimed twice, what is not claimed is left
as it was, and the id of a descriptor is never left.
-/

namespace ErrorIntake.Interface

namespace Descriptor

@[simp] theorem factory_ofKind (kind : Kind) : (ofKind kind).factory = .ofKind kind := by
  cases kind <;> rfl

@[simp] theorem claim_id (d : Descriptor) (key text : String) : (d.claim key text).id = d.id := by
  unfold claim
  split <;> rfl

@[simp] theorem claim_key (d : Descriptor) (key text : String) : (d.claim key text).key = key := by
  unfold claim
  split <;> rfl

@[simp] theorem claim_score (d : Descriptor) (key text : String) :
    (d.claim key text).score = d.score := by
  unfold claim
  split <;> rfl

/-- What has no meaning for the descriptor is claimed as the blank interface. -/
theorem claim_value (d : Descriptor) (key text : String) :
    (d.claim key text).value = d.factory.read text := by
  unfold claim Factory.read
  split
  · next decoded => rw [decoded, Option.getD_some]
  · next decoded => rw [decoded, Option.getD_none]

end Descriptor

namespace Registry

variable {descriptors : List Descriptor} {payload : Table String} {d : Descriptor}
  {key raw : String}

theorem descriptors_standard :
    standard.descriptors = [.ofKind .exception, .ofKind .stacktrace, .ofKind .request] :=
  rfl

theorem exists_kind_of_mem_standard (member : d ∈ standard.descriptors) :
    ∃ kind, d = .ofKind kind := by
  rw [descriptors_standard] at member
  simp only [List.mem_cons, List.not_mem_nil, or_false] at member
  rcases member with rfl | rfl | rfl
  · exact ⟨.exception, rfl⟩
  · exact ⟨.stacktrace, rfl⟩
  · exact ⟨.request, rfl⟩

/-- A descriptor claims the first of its keys that is there, or finds none of them. -/
theorem claimInTurn_cons (d : Descriptor) (rest : List Descriptor) (payload : Table String) :
    ((∀ key ∈ d.keys, payload.get? key = none) ∧
      claimInTurn (d :: rest) payload = claimInTurn rest payload) ∨
    ∃ key raw, d.key? payload = some key ∧ key ∈ d.keys ∧ payload.get? key = some raw ∧
      claimInTurn (d :: rest) payload =
        (d.claim key raw :: (claimInTurn rest (payload.erase key)).1,
          (claimInTurn rest (payload.erase key)).2) := by
  rw [claimInTurn]
  cases first : d.key? payload with
  | none =>
    refine .inl ⟨fun key member => ?_, rfl⟩
    have absent := List.find?_eq_none.1 first key member
    simpa [Table.contains] using absent
  | some key =>
    have present : payload.contains key = true := List.find?_some first
    obtain ⟨raw, found⟩ := Option.isSome_iff_exists.1 present
    refine .inr ⟨key, raw, rfl, List.mem_of_find?_eq_some first, found, ?_⟩
    simp only [found]

/-- Every key of the payload is claimed once, or left. -/
theorem keys_perm (descriptors : List Descriptor) (payload : Table String) :
    payload.keys.Perm ((claimInTurn descriptors payload).1.map Claim.key ++
      (claimInTurn descriptors payload).2.keys) := by
  induction descriptors generalizing payload with
  | nil => exact .refl _
  | cons d rest ih =>
    rcases claimInTurn_cons d rest payload with ⟨-, made⟩ | ⟨key, raw, -, -, found, made⟩
    · rw [made]
      exact ih payload
    · rw [made]
      rw [List.map_cons, List.cons_append, Descriptor.claim_key]
      exact (Table.keys_perm_erase found).trans ((ih _).cons key)

/-- What is left was there. -/
theorem get?_of_left (left : (claimInTurn descriptors payload).2.get? key = some raw) :
    payload.get? key = some raw := by
  induction descriptors generalizing payload with
  | nil => exact left
  | cons d rest ih =>
    rcases claimInTurn_cons d rest payload with ⟨-, made⟩ | ⟨claimed, _, -, -, -, made⟩
    · rw [made] at left
      exact ih left
    · rw [made] at left
      have there := ih left
      rw [Table.get?_erase] at there
      split at there
      · cases there
      · exact there

/-- The id of a descriptor is never left. -/
theorem get?_id (member : d ∈ descriptors) :
    (claimInTurn descriptors payload).2.get? d.id = none := by
  have gone {rest : List Descriptor} {table : Table String} (absent : table.get? d.id = none) :
      (claimInTurn rest table).2.get? d.id = none := by
    cases left : (claimInTurn rest table).2.get? d.id with
    | none => rfl
    | some raw =>
      rw [get?_of_left left] at absent
      cases absent
  induction descriptors generalizing payload with
  | nil => cases member
  | cons first rest ih =>
    rcases claimInTurn_cons first rest payload with ⟨absent, made⟩ | ⟨key, raw, isFirst, -, -, made⟩
    · rw [made]
      rcases List.mem_cons.1 member with rfl | later
      · exact gone (absent d.id List.mem_cons_self)
      · exact ih later
    · rw [made]
      rcases List.mem_cons.1 member with rfl | later
      · apply gone
        rw [Table.get?_erase]
        split
        · rfl
        · next apart =>
          -- Its id is its first key, and was not claimed, so it was not there.
          cases there : payload.get? d.id with
          | none => rfl
          | some raw' =>
            have present : payload.contains d.id = true := by
              rw [Table.contains, there]
              rfl
            rw [Descriptor.key?, Descriptor.keys, List.find?_cons_of_pos present] at isFirst
            exact absurd (Option.some.inj isFirst) apart
      · exact ih later

/-- A claim is what its descriptor makes of the text under one of its keys. -/
theorem claim_origin {c : Claim} (member : c ∈ (claimInTurn descriptors payload).1) :
    ∃ d ∈ descriptors, ∃ raw, c.key ∈ d.keys ∧ payload.get? c.key = some raw ∧
      c = d.claim c.key raw := by
  induction descriptors generalizing payload with
  | nil => cases member
  | cons first rest ih =>
    rcases claimInTurn_cons first rest payload with ⟨-, made⟩ | ⟨key, raw, -, own, found, made⟩
    · rw [made] at member
      obtain ⟨d, inside, origin⟩ := ih member
      exact ⟨d, List.mem_cons_of_mem _ inside, origin⟩
    · rw [made] at member
      rcases List.mem_cons.1 member with rfl | later
      · rw [Descriptor.claim_key]
        exact ⟨first, List.mem_cons_self, raw, own, found, rfl⟩
      · obtain ⟨d, inside, raw', own', found', isClaim⟩ := ih later
        rw [Table.get?_erase] at found'
        split at found'
        · cases found'
        · exact ⟨d, List.mem_cons_of_mem _ inside, raw', own', found', isClaim⟩

/-- Descriptors claim in their order, each at most once, so what a claim has of its descriptor stands
    in the order of the descriptors. -/
theorem map_sublist {α : Type} (ofClaim : Claim → α) (ofDescriptor : Descriptor → α)
    (same : ∀ d key raw, ofClaim (d.claim key raw) = ofDescriptor d) (descriptors : List Descriptor)
    (payload : Table String) :
    ((claimInTurn descriptors payload).1.map ofClaim).Sublist (descriptors.map ofDescriptor) := by
  induction descriptors generalizing payload with
  | nil => exact .slnil
  | cons d rest ih =>
    rcases claimInTurn_cons d rest payload with ⟨-, made⟩ | ⟨key, raw, -, -, -, made⟩
    · rw [made]
      exact (ih payload).cons _
    · rw [made]
      rw [List.map_cons, List.map_cons, same]
      exact (ih _).cons_cons _

theorem ids_sublist (descriptors : List Descriptor) (payload : Table String) :
    ((claimInTurn descriptors payload).1.map Claim.id).Sublist (descriptors.map Descriptor.id) :=
  map_sublist _ _ Descriptor.claim_id descriptors payload

/-- The first claim is that of the first descriptor that claims something. -/
theorem first_claim {isClaimed : Descriptor → Bool} (once : (descriptors.map Descriptor.id).Nodup)
    (tells : ∀ d ∈ descriptors,
      isClaimed d = true ↔ d.id ∈ (claimInTurn descriptors payload).1.map Claim.id) :
    (descriptors.find? isClaimed = none ∧ (claimInTurn descriptors payload).1 = []) ∨
    ∃ d key raw rest, descriptors.find? isClaimed = some d ∧
      (claimInTurn descriptors payload).1 = d.claim key raw :: rest := by
  induction descriptors with
  | nil => exact .inl ⟨rfl, rfl⟩
  | cons d rest ih =>
    obtain ⟨fresh, onceRest⟩ := List.nodup_cons.1 once
    obtain ⟨tellsFirst, tellsRest⟩ := List.forall_mem_cons.1 tells
    rcases claimInTurn_cons d rest payload with ⟨-, made⟩ | ⟨key, raw, -, -, -, made⟩
    · rw [made] at tellsFirst tellsRest ⊢
      have unclaimed : ¬ isClaimed d = true := fun claimed =>
        fresh ((ids_sublist rest payload).subset (tellsFirst.1 claimed))
      rw [List.find?_cons_of_neg unclaimed]
      exact ih onceRest tellsRest
    · rw [made] at tellsFirst ⊢
      have claimed : isClaimed d = true := tellsFirst.2 (by simp)
      exact .inr ⟨d, key, raw, _, List.find?_cons_of_pos claimed, rfl⟩

end Registry

end ErrorIntake.Interface
