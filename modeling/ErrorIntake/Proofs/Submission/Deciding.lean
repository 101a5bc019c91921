import ErrorIntake.Proofs.Digest.Digits
import ErrorIntake.Proofs.Submission.Data

/-!
# Which interface decides

Reports are grouped by their checksum.  It is the fingerprint of one interface, the most important
of those that a submission has a key of, or of the message if it has none.  All else that the
submission says does not count.
-/

namespace ErrorIntake

open Interface (Claim Descriptor Kind Registry)

/-! ## What a fingerprint reads -/

/-- What the fingerprint of a frame reads: module, filename, line of code, function and line
    number. -/
def Frame.marks (f : Frame) : String × String × String × String × Int :=
  (f.moduleName, f.filename, f.contextLine, f.function, f.lineno)

theorem Frame.fingerprint_of_marks {f g : Frame} (same : f.marks = g.marks) :
    f.fingerprint = g.fingerprint := by
  cases f
  cases g
  simp only [marks, Prod.mk.injEq] at same
  obtain ⟨rfl, rfl, rfl, rfl, rfl⟩ := same
  rfl

theorem Stacktrace.fingerprint_of_marks {s t : Stacktrace}
    (same : s.frames.map Frame.marks = t.frames.map Frame.marks) :
    s.fingerprint = t.fingerprint := by
  have frames : s.frames.map Frame.fingerprint = t.frames.map Frame.fingerprint := by
    generalize s.frames = frames at same ⊢
    generalize t.frames = others at same ⊢
    induction frames generalizing others with
    | nil =>
      rw [List.map_nil, List.nil_eq, List.map_eq_nil_iff] at same
      rw [same]
    | cons f rest ih =>
      cases others with
      | nil => cases same
      | cons g others =>
        obtain ⟨first, further⟩ := List.cons.inj same
        rw [List.map_cons, List.map_cons, Frame.fingerprint_of_marks first, ih others further]
  rw [fingerprint, fingerprint, fingerprintText, fingerprintText, frames]

namespace Interface

/-- The stacktrace of an interface, its own or that of its exception. -/
def trace? : Interface → Option Stacktrace
  | .exception e => e.stacktrace
  | .stacktrace s => some s
  | .request _ => none

/-- Two interfaces that tell the same error: the frames of their stacktraces have the same marks, or
    they are requests with the same address, method and query. -/
inductive Alike : Interface → Interface → Prop
  | traces {i j : Interface} (s t : Stacktrace) (here : i.trace? = some s)
      (there : j.trace? = some t) (same : s.frames.map Frame.marks = t.frames.map Frame.marks) : Alike i j
  | requests (a b : Request) (url : a.url = b.url) (method : a.method = b.method)
      (query : a.queryString = b.queryString) : Alike (.request a) (.request b)

theorem fingerprint_of_trace? {i : Interface} {s : Stacktrace} (traces : i.trace? = some s) :
    i.fingerprint = s.fingerprint := by
  cases i with
  | exception e =>
    change e.stacktrace = some s at traces
    rw [fingerprint, Exception.fingerprint, traces]
  | stacktrace t =>
    cases traces
    rfl
  | request r => cases traces

theorem Alike.fingerprint_eq {i j : Interface} (alike : Alike i j) :
    i.fingerprint = j.fingerprint := by
  cases alike with
  | traces s t here there same =>
    rw [fingerprint_of_trace? here, fingerprint_of_trace? there,
      Stacktrace.fingerprint_of_marks same]
  | requests a b url method query =>
    show Digest.fingerprint _ = Digest.fingerprint _
    rw [url, method, query]

/-- The fingerprint of an interface is a digest, but for that of an exception without stacktrace,
    which is empty. -/
theorem fingerprint_cases (i : Interface) :
    (∃ e : Exception, i = .exception e ∧ e.stacktrace = none ∧ i.fingerprint = "") ∨
    ((∀ e : Exception, i = .exception e → e.stacktrace ≠ none) ∧
      Text.IsHexDigest i.fingerprint) := by
  cases i with
  | exception e =>
    cases traced : e.stacktrace with
    | none =>
      refine .inl ⟨e, rfl, traced, ?_⟩
      rw [fingerprint, Exception.fingerprint, traced]
    | some s =>
      refine .inr ⟨fun e' is => ?_, ?_⟩
      · cases is
        rw [traced]
        exact Option.some_ne_none s
      · rw [fingerprint, Exception.fingerprint, traced]
        exact Digest.isHexDigest_fingerprint _
  | stacktrace s => exact .inr ⟨fun _ => nofun, Digest.isHexDigest_fingerprint _⟩
  | request r => exact .inr ⟨fun _ => nofun, Digest.isHexDigest_fingerprint _⟩

end Interface

namespace Interface

/-- The text that a descriptor claims: that under the first of its keys that is there. -/
def Descriptor.fragment? (d : Descriptor) (payload : Table String) : Option String :=
  d.keys.findSome? payload.get?

/-- What the factory of a kind reads has the fingerprint of the interface that the kind decodes. -/
theorem Factory.fingerprint_ofKind_read (kind : Kind) (text : String) :
    ((ofKind kind).read text).fingerprint = (kind.blank.decodedFrom text).fingerprint := by
  obtain ⟨i, canonical, -, decoded, same⟩ := exists_ofKind_read kind text
  rw [same, decodedFrom, (isCanonical_blank kind).2, ← decoded]
  rfl

/-- The first claim is that of the first descriptor that has a key in the payload. -/
theorem Registry.head?_claimInTurn (descriptors : List Descriptor) (payload : Table String) :
    (claimInTurn descriptors payload).1.head?.map Claim.value =
      descriptors.findSome? fun d => (d.fragment? payload).map d.factory.read := by
  induction descriptors with
  | nil => rfl
  | cons d rest ih =>
    rcases claimInTurn_cons d rest payload with ⟨absent, made⟩ | ⟨key, raw, isFirst, -, found, made⟩
    · have none : d.fragment? payload = none := List.findSome?_eq_none_iff.2 absent
      rw [made, List.findSome?_cons, none]
      exact ih
    · have fragment : d.fragment? payload = some raw := by
        obtain ⟨-, before, after, keys, earlier⟩ := List.find?_eq_some_iff_append.1 isFirst
        refine List.findSome?_eq_some_iff.2
          ⟨before, key, after, keys, found, fun other member => ?_⟩
        simpa [Table.contains] using earlier other member
      rw [made, List.findSome?_cons, fragment]
      exact congrArg some (d.claim_value key raw)

end Interface

namespace Submission

/-- What stands under the first of two keys that a payload has. -/
def fragment? (payload : Payload) (id other : String) : Option String :=
  (payload.get? id).or (payload.get? other)

/-- The interface that decides the checksum of a payload, if the payload has a key of one.  What has
    no meaning counts as an interface with nothing set. -/
def deciding? (payload : Payload) : Option Interface :=
  match fragment? payload "sentry.interfaces.Exception" "exception",
    fragment? payload "sentry.interfaces.Stacktrace" "stacktrace",
    fragment? payload "sentry.interfaces.Http" "request" with
  | some text, _, _ => some (Interface.decodedFrom (.exception {}) text)
  | none, some text, _ => some (Interface.decodedFrom (.stacktrace {}) text)
  | none, none, some text => some (Interface.decodedFrom (.request {}) text)
  | none, none, none => none

/-- The checksum that a payload decides. -/
def checksumOf (payload : Payload) (message : String) : String :=
  match deciding? payload with
  | some i => i.fingerprint
  | none => Digest.fingerprint message

/-- A descriptor with two keys that no known field has claims what stands under the first of
    them. -/
theorem fragment?_unknownMembers (payload : Payload) (id other : String) (score : Int)
    (factory : Interface.Factory)
    (unknown : id ∉ Field.all.map Field.name ∧ other ∉ Field.all.map Field.name) :
    Descriptor.fragment? ⟨id, [other], score, factory⟩ (unknownMembers payload) =
      fragment? payload id other := by
  simp only [Descriptor.fragment?, Descriptor.keys, List.findSome?_cons, List.findSome?_nil,
    get?_unknownMembers, if_neg unknown.1, if_neg unknown.2, fragment?]
  cases payload.get? id with
  | some raw => rfl
  | none => cases payload.get? other <;> rfl

/-- The most important claim has the fingerprint of the deciding interface. -/
theorem head?_claim_standard (payload : Payload) :
    (Registry.standard.claim (unknownMembers payload)).1.head?.map (fun c => c.value.fingerprint) =
      (deciding? payload).map Interface.fingerprint := by
  have known : ∀ key ∈ ["sentry.interfaces.Exception", "exception", "sentry.interfaces.Stacktrace",
      "stacktrace", "sentry.interfaces.Http", "request"], key ∉ Field.all.map Field.name := by
    decide +kernel
  have ofException : (Descriptor.ofKind .exception).fragment? (unknownMembers payload) =
      fragment? payload "sentry.interfaces.Exception" "exception" :=
    fragment?_unknownMembers _ _ _ _ _ ⟨known _ (by simp), known _ (by simp)⟩
  have ofStacktrace : (Descriptor.ofKind .stacktrace).fragment? (unknownMembers payload) =
      fragment? payload "sentry.interfaces.Stacktrace" "stacktrace" :=
    fragment?_unknownMembers _ _ _ _ _ ⟨known _ (by simp), known _ (by simp)⟩
  have ofRequest : (Descriptor.ofKind .request).fragment? (unknownMembers payload) =
      fragment? payload "sentry.interfaces.Http" "request" :=
    fragment?_unknownMembers _ _ _ _ _ ⟨known _ (by simp), known _ (by simp)⟩
  have first := Registry.head?_claimInTurn Registry.standard.descriptors (unknownMembers payload)
  rw [Registry.descriptors_standard, List.findSome?_cons, List.findSome?_cons, List.findSome?_cons,
    List.findSome?_nil, ofException, ofStacktrace, ofRequest] at first
  have fingerprints := congrArg (Option.map Interface.View.fingerprint) first
  rw [Option.map_map] at fingerprints
  refine fingerprints.trans ?_
  rw [deciding?]
  cases fragment? payload "sentry.interfaces.Exception" "exception" with
  | some text => exact congrArg some (Interface.Factory.fingerprint_ofKind_read .exception text)
  | none =>
    cases fragment? payload "sentry.interfaces.Stacktrace" "stacktrace" with
    | some text => exact congrArg some (Interface.Factory.fingerprint_ofKind_read .stacktrace text)
    | none =>
      cases fragment? payload "sentry.interfaces.Http" "request" with
      | some text => exact congrArg some (Interface.Factory.fingerprint_ofKind_read .request text)
      | none => rfl

theorem fingerprintOf_eq (claims : List Claim) (message : String) : fingerprintOf claims message =
    (claims.head?.map fun c => c.value.fingerprint).getD (Digest.fingerprint message) := by
  cases claims <;> rfl

theorem checksumOf_eq (payload : Payload) (message : String) : checksumOf payload message =
    ((deciding? payload).map Interface.fingerprint).getD (Digest.fingerprint message) := by
  unfold checksumOf
  cases deciding? payload <;> rfl

/-- The checksum of an accepted body is the one that its payload decides. -/
theorem checksum_eq {occasion : Occasion} {body : Bytes} {r : Report} {logs : List LogRecord}
    (read : readBody .standard occasion body = .ok (r, logs)) :
    ∃ payload, Body.payload? body = some payload ∧ r.checksum = checksumOf payload r.message := by
  obtain ⟨payload, found, parts⟩ := exists_readFrom_of_readBody read
  refine ⟨payload, found, ?_⟩
  rw [parts.checksum, fingerprintOf_eq, head?_claim_standard, checksumOf_eq]

/-- A checksum is a digest, but for that of an exception without stacktrace, which is empty. -/
theorem checksumOf_cases (payload : Payload) (message : String) :
    (checksumOf payload message = "" ∨ Text.IsHexDigest (checksumOf payload message)) ∧
    (checksumOf payload message = "" ↔
      ∃ e : Exception, deciding? payload = some (.exception e) ∧ e.stacktrace = none) := by
  unfold checksumOf
  cases deciding? payload with
  | none =>
    have digest := Digest.isHexDigest_fingerprint message
    exact ⟨.inr digest, iff_of_false digest.ne_empty nofun⟩
  | some i =>
    rcases i.fingerprint_cases with ⟨e, rfl, untraced, empty⟩ | ⟨traced, digest⟩
    · exact ⟨.inl empty, iff_of_true empty ⟨e, rfl, untraced⟩⟩
    · refine ⟨.inr digest, iff_of_false digest.ne_empty ?_⟩
      rintro ⟨e, is, untraced⟩
      exact traced e (Option.some.inj is) untraced

/-- The checksum of an accepted body is that of the first of exception, stacktrace and request that
    it has a key of, and that of its message if it has none.  It is empty if that is an exception
    without stacktrace, and else a digest.  Two accepted bodies whose deciding interfaces tell the
    same error have the same checksum, whatever else they say. -/
theorem checksum_decided (occasion : Occasion) (body : Bytes) (r : Report) (logs : List LogRecord)
    (read : readBody .standard occasion body = .ok (r, logs)) :
    ∃ payload, Body.payload? body = some payload ∧
      r.checksum = checksumOf payload r.message ∧
      (r.checksum = "" ∨ Text.IsHexDigest r.checksum) ∧
      (r.checksum = "" ↔
        ∃ e : Exception, deciding? payload = some (.exception e) ∧ e.stacktrace = none) ∧
      ∀ occasion' body' r' logs' payload',
        readBody .standard occasion' body' = .ok (r', logs') →
        Body.payload? body' = some payload' →
        ∀ i j, deciding? payload = some i → deciding? payload' = some j → Interface.Alike i j →
          r.checksum = r'.checksum := by
  obtain ⟨payload, found, decided⟩ := checksum_eq read
  obtain ⟨shape, empty⟩ := checksumOf_cases payload r.message
  refine ⟨payload, found, decided, decided ▸ shape, decided ▸ empty, ?_⟩
  intro occasion' body' r' logs' payload' read' found' i j here there alike
  obtain ⟨payload'', found'', decided'⟩ := checksum_eq read'
  rw [found'] at found''
  cases found''
  rw [decided, decided', checksumOf, checksumOf, here, there]
  exact alike.fingerprint_eq

/-- A body whose exception has a stacktrace. -/
def nestedTrace : Bytes := Text.toBytes (
  "\x7b\"message\":\"a\",\"exception\":\x7b\"type\":\"E\"," ++
  "\"stacktrace\":\x7b\"frames\":[\x7b\"module\":\"m\",\"function\":\"f\"\x7d]\x7d\x7d\x7d")

/-- A body with the same stacktrace on its own, columns aside. -/
def ownTrace : Bytes := Text.toBytes ("\x7b\"message\":\"b\",\"sentry.interfaces.Stacktrace\":" ++
  "\x7b\"frames\":[\x7b\"module\":\"m\",\"function\":\"f\",\"colno\":7\x7d]\x7d\x7d")

/-- The stacktrace that decides the checksum of a body. -/
def decidingTrace? (body : Bytes) : Option Stacktrace :=
  ((Body.payload? body).bind deciding?).bind Interface.trace?

theorem checksum_decided_nestedTrace :
    ∃ r logs r' logs', readBody .standard ⟨.epoch, "e1"⟩ nestedTrace = .ok (r, logs) ∧
      readBody .standard ⟨.epoch, "e2"⟩ ownTrace = .ok (r', logs') ∧
      r.checksum ≠ "" ∧ r.checksum = r'.checksum := by
  have accepted : (readBody .standard ⟨.epoch, "e1"⟩ nestedTrace).toOption.isSome ∧
      (readBody .standard ⟨.epoch, "e2"⟩ ownTrace).toOption.isSome := by decide +kernel
  have marks : ∀ body ∈ [nestedTrace, ownTrace], ((decidingTrace? body).map fun s =>
      decide (s.frames.map Frame.marks = [("m", "", "", "f", 0)])) = some true := by decide +kernel
  obtain ⟨s, traced, marked⟩ := Option.map_eq_some_iff.1 (marks nestedTrace (by simp))
  obtain ⟨i, interface, here⟩ := Option.bind_eq_some_iff.1 traced
  obtain ⟨payload, found, decides⟩ := Option.bind_eq_some_iff.1 interface
  obtain ⟨s', traced', marked'⟩ := Option.map_eq_some_iff.1 (marks ownTrace (by simp))
  obtain ⟨j, interface', there⟩ := Option.bind_eq_some_iff.1 traced'
  obtain ⟨payload', found', decides'⟩ := Option.bind_eq_some_iff.1 interface'
  cases read : readBody .standard ⟨.epoch, "e1"⟩ nestedTrace with
  | error e =>
    rw [read] at accepted
    cases accepted.1
  | ok made =>
    obtain ⟨r, logs⟩ := made
    cases read' : readBody .standard ⟨.epoch, "e2"⟩ ownTrace with
    | error e =>
      rw [read'] at accepted
      cases accepted.2
    | ok made =>
      obtain ⟨r', logs'⟩ := made
      obtain ⟨payload'', found'', -, -, empty, agree⟩ := checksum_decided _ _ r logs read
      rw [found] at found''
      cases found''
      refine ⟨r, logs, r', logs', rfl, rfl, fun none => ?_, ?_⟩
      · obtain ⟨e, isException, untraced⟩ := empty.1 none
        rw [decides] at isException
        cases isException
        rw [Interface.trace?, untraced] at here
        cases here
      · exact agree _ _ r' logs' payload' read' found' i j decides decides'
          (.traces s s' here there
            ((of_decide_eq_true marked).trans (of_decide_eq_true marked').symm))

end Submission

end ErrorIntake
