import ErrorIntake.Proofs.Interface.ReadBack
import ErrorIntake.Proofs.Submission.Data

/-!
# Fingerprints recomputed

The fingerprint of a report is that of the first interface in its data, in the order of the
registry, and that of its message if it has none.  So it can be recomputed from the data wherever
that interface is read back.
-/

namespace ErrorIntake.Submission

open Interface (Claim Descriptor Factory Kind Registry View)
open Json (Value)

variable {interfaces : Registry} {payload : Payload}

/-- The id of a descriptor is among the keys of the data exactly if the descriptor claimed. -/
theorem contains_dataOf (once : (interfaces.descriptors.map Descriptor.id).Nodup) {d : Descriptor}
    (listed : d ∈ interfaces.descriptors) :
    (dataOf (interfaces.claim payload).1 (interfaces.claim payload).2).contains d.id = true ↔
      d.id ∈ (interfaces.claim payload).1.map Claim.id := by
  have apart := nodup_claims_left once payload
  have gone : d.id ∉ (interfaces.claim payload).2.keys :=
    Table.get?_eq_none_iff.1 (Registry.get?_id listed)
  rw [Table.contains, Option.isSome_iff_exists, ← Table.mem_keys_iff,
    (keys_dataOf_perm apart).mem_iff, List.mem_append]
  exact or_iff_left gone

/-- The first descriptor whose id is in the data decides the fingerprint, or else the message. -/
theorem checksum_cases {occasion : Occasion} {body : Bytes} {r : Report} {logs : List LogRecord}
    (once : (interfaces.descriptors.map Descriptor.id).Nodup)
    (read : readBody interfaces occasion body = .ok (r, logs)) :
    (interfaces.descriptors.find? (fun d => r.data.contains d.id) = none ∧
      r.checksum = Digest.fingerprint r.message) ∨
    ∃ (d : Descriptor) (raw : String),
      interfaces.descriptors.find? (fun d => r.data.contains d.id) = some d ∧
      r.data.get? d.id = some (d.factory.read raw).toValue ∧
      r.checksum = (d.factory.read raw).fingerprint := by
  obtain ⟨payload, -, parts⟩ := exists_readFrom_of_readBody read
  have data := parts.data
  have checksum := parts.checksum
  generalize unknownMembers payload = payload at data checksum
  have ids := (List.nodup_append.1 (nodup_claims_left once payload)).1
  have tells : ∀ d ∈ interfaces.descriptors, r.data.contains d.id = true ↔
      d.id ∈ (interfaces.claim payload).1.map Claim.id := by
    intro d listed
    rw [data]
    exact contains_dataOf once listed
  rcases Registry.first_claim once tells with ⟨nothing, empty⟩ |
    ⟨d, key, raw, rest, first, claims⟩
  · refine .inl ⟨nothing, ?_⟩
    rw [checksum, Registry.claim, empty]
    rfl
  · change (interfaces.claim payload).1 = _ at claims
    refine .inr ⟨d, raw, first, ?_, ?_⟩
    · rw [data, ← d.claim_value key raw]
      refine (get?_dataOf ids).2 (.inr ⟨Registry.get?_id (List.mem_of_find?_eq_some first),
        d.claim key raw, ?_, d.claim_id key raw, rfl⟩)
      rw [claims]
      exact List.mem_cons_self
    · rw [checksum, claims, ← d.claim_value key raw]
      rfl

/-- A decoded interface is read back from what is stored of it if and only if it is legible.  The
    fingerprint of a report is that of the first interface stored in its data, which is read back
    so, or that of its message if none is stored. -/
theorem fingerprint_recoverable :
    (∀ (kind : Kind) (text : String) (i : Interface), kind.decode? text = some i →
      i.toValue.Each Value.ReadsBack →
      (kind.decode? i.toValue.toText = some i ↔ i.IsLegible)) ∧
    ∀ (occasion : Occasion) (body : Bytes) (r : Report) (logs : List LogRecord),
      readBody .standard occasion body = .ok (r, logs) →
      (∀ d, Registry.standard.descriptors.find? (fun d => r.data.contains d.id) = some d →
        ∃ i : Interface, d = .ofKind i.kind ∧ r.data.get? d.id = some i.toValue ∧
          r.checksum = i.fingerprint ∧
          (i.toValue.Each Value.ReadsBack →
            (i.kind.decode? i.toValue.toText = some i ↔ i.IsLegible))) ∧
      (Registry.standard.descriptors.find? (fun d => r.data.contains d.id) = none →
        r.checksum = Digest.fingerprint r.message) := by
  constructor
  · intro kind text i decoded doubles
    obtain ⟨canonical, rfl⟩ := Interface.isCanonical_of_decode? decoded
    exact Interface.decode?_toText canonical doubles
  · intro occasion body r logs read
    have once : (Registry.standard.descriptors.map Descriptor.id).Nodup := by decide +kernel
    rcases checksum_cases once read with ⟨nothing, ofMessage⟩ |
      ⟨first, raw, found, stored, same⟩
    · refine ⟨fun d found => ?_, fun _ => ofMessage⟩
      rw [nothing] at found
      cases found
    · refine ⟨fun d isFirst => ?_, fun nothing => ?_⟩
      · rw [found] at isFirst
        cases isFirst
        obtain ⟨kind, rfl⟩ :=
          Registry.exists_kind_of_mem_standard (List.mem_of_find?_eq_some found)
        rw [Descriptor.factory_ofKind] at stored same
        obtain ⟨i, canonical, rfl, -, seen⟩ := Factory.exists_ofKind_read kind raw
        rw [seen] at stored same
        exact ⟨i, rfl, stored, same, Interface.decode?_toText canonical⟩
      · rw [found] at nothing
        cases nothing

/-- A stacktrace whose frame has one variable. -/
def oneVariable : String :=
  "\x7b\"frames\":[\x7b\"function\":\"f\",\"vars\":\x7b\"a\":[1.5]\x7d\x7d]\x7d"

/-- A body with that stacktrace. -/
def oneVariableBody : Bytes := Text.toBytes ("\x7b\"stacktrace\":" ++ oneVariable ++ "\x7d")

theorem fingerprint_recoverable_oneVariable :
    (∃ i, Kind.stacktrace.decode? oneVariable = some i ∧
      Kind.stacktrace.decode? i.toValue.toText = some i) ∧
    ∃ r logs, ∃ i : Interface,
      readBody .standard ⟨.epoch, "e1"⟩ oneVariableBody = .ok (r, logs) ∧
      r.data.get? "sentry.interfaces.Stacktrace" = some i.toValue ∧
      r.checksum = i.fingerprint ∧ Kind.stacktrace.decode? i.toValue.toText = some i := by
  obtain ⟨ofKinds, ofBodies⟩ := fingerprint_recoverable
  constructor
  · have seen : ((Kind.stacktrace.decode? oneVariable).map fun i =>
        decide (i.toValue.Each Value.ReadsBack) && decide i.IsLegible) = some true := by
      decide +kernel
    obtain ⟨i, decoded, good⟩ := Option.map_eq_some_iff.1 seen
    rw [Bool.and_eq_true, decide_eq_true_iff, decide_eq_true_iff] at good
    exact ⟨i, decoded, (ofKinds .stacktrace oneVariable i decoded good.1).2 good.2⟩
  · have seen : ((readBody .standard ⟨.epoch, "e1"⟩ oneVariableBody).toOption.map fun read =>
        ((Registry.standard.descriptors.find? (fun d => read.1.data.contains d.id)).map
            Descriptor.id, (read.1.data.get? "sentry.interfaces.Stacktrace").map fun v =>
            decide (v.Each Value.ReadsBack) && decide (v.Each (Value.IsLegible 100)))) =
          some (some "sentry.interfaces.Stacktrace", some true) := by
      decide +kernel
    cases read : readBody .standard ⟨.epoch, "e1"⟩ oneVariableBody with
    | error e =>
      rw [read] at seen
      cases seen
    | ok found =>
      obtain ⟨r, logs⟩ := found
      rw [read] at seen
      obtain ⟨first, good⟩ := Prod.mk.inj (Option.some.inj seen)
      obtain ⟨d, isFirst, named⟩ := Option.map_eq_some_iff.1 first
      obtain ⟨i, rfl, stored, same, back⟩ :=
        (ofBodies ⟨.epoch, "e1"⟩ oneVariableBody r logs read).1 d isFirst
      have isStacktrace : i.kind = .stacktrace := by
        cases kind : i.kind with
        | stacktrace => rfl
        | exception =>
          rw [kind] at named
          exact absurd named (by decide)
        | request =>
          rw [kind] at named
          exact absurd named (by decide)
      rw [named] at stored
      rw [isStacktrace] at back
      rw [stored, Option.map_some, Option.some.injEq, Bool.and_eq_true, decide_eq_true_iff,
        decide_eq_true_iff] at good
      -- Every kind of interface leaves room for more than 100 containers.
      have legible : i.IsLegible := by
        intro v free
        obtain ⟨shallow, opens⟩ :=
          (Interface.each_free (Value.isLegible_null 100) good.2 v free).self
        have deep : 100 ≤ i.kind.freeRoom := by cases i.kind <;> decide
        exact ⟨shallow.trans deep, opens⟩
      exact ⟨r, logs, i, rfl, stored, same, (back good.1).2 legible⟩

/-- A stacktrace with variables whose least key, though not their first, is that of embedded
    texts. -/
def lateEmbedding : String :=
  "\x7b\"frames\":[\x7b\"vars\":\x7b\"a\":1,\"$serde_json::private::RawValue\":\"2\"\x7d\x7d]\x7d"

/-- What is stored opens with the key that came later, and is not read back. -/
theorem fingerprint_lost_lateEmbedding :
    ∃ i, Kind.stacktrace.decode? lateEmbedding = some i ∧ i.toValue.Each Value.ReadsBack ∧
      Kind.stacktrace.decode? i.toValue.toText = none := by
  have seen : ((Kind.stacktrace.decode? lateEmbedding).map fun i =>
      decide (i.toValue.Each Value.ReadsBack) &&
        (Kind.stacktrace.decode? i.toValue.toText).isNone) = some true := by
    decide +kernel
  obtain ⟨i, decoded, good⟩ := Option.map_eq_some_iff.1 seen
  rw [Bool.and_eq_true, decide_eq_true_iff, Option.isNone_iff_eq_none] at good
  exact ⟨i, decoded, good⟩

end ErrorIntake.Submission
