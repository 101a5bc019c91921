import ErrorIntake.Proofs.Table
import ErrorIntake.Submission.Protocol

/-!
# Runs of registrations

Protocols are registered and looked up in any order, and the calls are data here, so that a run is a
list.  A version is given away once: by the start, or else by its first registration.  After every
run, look-ups find that protocol, further registrations of the version are refused, and the order in
which different versions were registered has left no trace.
-/

namespace ErrorIntake.Submission.Protocols

/-- A call of the protocols in force. -/
inductive Call
  | register (version : String) (p : Protocol)
  | find (version : String)
  | parse (occasion : Occasion) (version : String) (body : Bytes)
  | parseEnvelope (occasion : Occasion) (version : String) (e : Envelope)

/-- The protocol that a call wants to register under a version. -/
def Call.registration? (version : String) : Call → Option Protocol
  | register v p => if v = version then some p else none
  | _ => none

/-- What a call answers. -/
inductive Reply
  | registered (answer : Except SubmissionError Unit)
  | found (answer : Except SubmissionError Protocol)
  | parsed (answer : Except SubmissionError Parsed)
  | answered (answer : Protocol.Answer)

/-- Makes a call: its reply, and the protocols in force after it. -/
def perform (ps : Protocols) : Call → Reply × Protocols
  | .register version p =>
    match ps.register version p with
    | .ok next => (.registered (.ok ()), next)
    | .error e => (.registered (.error e), ps)
  | .find version => (.found (ps.find version), ps)
  | .parse occasion version body => (.parsed (ps.parse occasion version body), ps)
  | .parseEnvelope occasion version e => (.answered (ps.parseEnvelope occasion version e), ps)

/-- The protocols in force after some calls. -/
def after (ps : Protocols) (calls : List Call) : Protocols :=
  calls.foldl (fun ps c => (ps.perform c).2) ps

/-- The protocols to start with: none, or version 2.0 with its interfaces. -/
def start : Option Interface.Registry → Protocols
  | none => {}
  | some interfaces => .standard interfaces

/-- The protocol that a version has from the start. -/
def default? (interfaces? : Option Interface.Registry) (version : String) : Option Protocol :=
  interfaces?.bind fun interfaces =>
    if version = Submission.version then some (.standard interfaces) else none

/-- The protocols in force after a run. -/
def run (interfaces? : Option Interface.Registry) (calls : List Call) : Protocols :=
  (start interfaces?).after calls

/-- The version is no default, and none of the calls registers it. -/
def IsFree (interfaces? : Option Interface.Registry) (calls : List Call) (version : String) : Prop :=
  default? interfaces? version = none ∧ ∀ p, Call.register version p ∉ calls

/-- The protocol that a version keeps: it is the default, or its registration succeeded. -/
inductive IsKept (interfaces? : Option Interface.Registry) (calls : List Call) (version : String)
    (p : Protocol) : Prop
  | default (isDefault : default? interfaces? version = some p)
  | registered (before later : List Call) (split : calls = before ++ .register version p :: later)
      (next : Protocols) (succeeds : (run interfaces? before).register version p = .ok next)

variable {interfaces? : Option Interface.Registry} {calls : List Call} {version : String}

/-! ## What is in force -/

/-- A call adds its registration where the version has no protocol yet. -/
theorem get?_perform (ps : Protocols) (c : Call) (version : String) :
    (ps.perform c).2.byVersion.get? version =
      (ps.byVersion.get? version).or (c.registration? version) := by
  cases c with
  | register v p =>
    cases taken : ps.byVersion.get? v with
    | some old =>
      have refused : ps.register v p = .error (.versionTaken v) := by
        rw [register, Table.contains, taken]
        rfl
      by_cases same : v = version
      · subst same
        simp [perform, refused, taken]
      · simp [perform, refused, Call.registration?, same]
    | none =>
      have accepted : ps.register v p = .ok ⟨ps.byVersion.insert v p⟩ := by
        rw [register, Table.contains, taken]
        rfl
      by_cases same : v = version
      · subst same
        simp [perform, accepted, taken, Call.registration?]
      · simp [perform, accepted, Call.registration?, same, Ne.symm same]
  | find v => simp [perform, Call.registration?]
  | parse occasion v body => simp [perform, Call.registration?]
  | parseEnvelope occasion v e => simp [perform, Call.registration?]

/-- After some calls a version has the protocol it had, or else the first one that they register. -/
theorem get?_after (ps : Protocols) (calls : List Call) (version : String) :
    (ps.after calls).byVersion.get? version =
      (ps.byVersion.get? version).or (calls.findSome? (Call.registration? version)) := by
  induction calls generalizing ps with
  | nil => simp [after]
  | cons c rest ih =>
    have unfolded : ps.after (c :: rest) = (ps.perform c).2.after rest := rfl
    rw [unfolded, ih, get?_perform, Option.or_assoc, List.findSome?_cons]
    cases c.registration? version <;> rfl

theorem get?_start (interfaces? : Option Interface.Registry) (version : String) :
    (start interfaces?).byVersion.get? version = default? interfaces? version := by
  cases interfaces? with
  | none => rfl
  | some interfaces => exact Table.get?_insert _ _ _ _

theorem get?_run (interfaces? : Option Interface.Registry) (calls : List Call) (version : String) :
    (run interfaces? calls).byVersion.get? version =
      (default? interfaces? version).or (calls.findSome? (Call.registration? version)) := by
  rw [run, get?_after, get?_start]

theorem registration?_eq_some_iff {c : Call} {p : Protocol} :
    c.registration? version = some p ↔ c = .register version p := by
  cases c with
  | register v p' =>
    by_cases same : v = version
    · simp [Call.registration?, same]
    · simp [Call.registration?, same]
  | _ => simp [Call.registration?]

theorem findSome?_registration?_eq_none_iff :
    calls.findSome? (Call.registration? version) = none ↔ ∀ p, Call.register version p ∉ calls := by
  rw [List.findSome?_eq_none_iff]
  constructor
  · intro never p member
    simpa [Call.registration?] using never _ member
  · intro never c member
    refine Option.eq_none_iff_forall_ne_some.2 fun p registers => ?_
    rw [registration?_eq_some_iff] at registers
    exact never p (registers ▸ member)

theorem get?_run_eq_none_iff :
    (run interfaces? calls).byVersion.get? version = none ↔ IsFree interfaces? calls version := by
  rw [get?_run, Option.or_eq_none_iff, findSome?_registration?_eq_none_iff, IsFree]

/-! ## What the calls answer -/

theorem register_eq_ok_iff {ps : Protocols} {p : Protocol} :
    (∃ next, ps.register version p = .ok next) ↔ ps.byVersion.get? version = none := by
  rw [register, Table.contains]
  cases ps.byVersion.get? version <;> simp

theorem register_eq_error_iff {ps : Protocols} {p : Protocol} {e : SubmissionError} :
    ps.register version p = .error e ↔
      e = .versionTaken version ∧ ps.byVersion.get? version ≠ none := by
  rw [register, Table.contains]
  cases ps.byVersion.get? version <;> simp [eq_comm]

theorem find_eq_ok_iff {ps : Protocols} {p : Protocol} :
    ps.find version = .ok p ↔ ps.byVersion.get? version = some p := by
  rw [find]
  cases ps.byVersion.get? version <;> simp

theorem find_eq_error_iff {ps : Protocols} {e : SubmissionError} :
    ps.find version = .error e ↔
      e = .unknownVersion version ∧ ps.byVersion.get? version = none := by
  rw [find]
  cases ps.byVersion.get? version <;> simp [eq_comm]

/-- What is found is what the version keeps. -/
theorem get?_run_eq_some_iff {p : Protocol} :
    (run interfaces? calls).byVersion.get? version = some p ↔
      IsKept interfaces? calls version p := by
  rw [get?_run, Option.or_eq_some_iff, List.findSome?_eq_some_iff]
  constructor
  · rintro (isDefault | ⟨noDefault, before, c, later, split, registers, never⟩)
    · exact .default isDefault
    · rw [registration?_eq_some_iff] at registers
      subst registers
      have free : (run interfaces? before).byVersion.get? version = none := by
        rw [get?_run, noDefault, List.findSome?_eq_none_iff.2 never]
        rfl
      obtain ⟨next, succeeds⟩ := register_eq_ok_iff (p := p).2 free
      exact .registered before later split next succeeds
  · rintro (isDefault | ⟨before, later, split, next, succeeds⟩)
    · exact .inl isDefault
    · have free := register_eq_ok_iff.1 ⟨next, succeeds⟩
      rw [get?_run, Option.or_eq_none_iff, List.findSome?_eq_none_iff] at free
      exact .inr ⟨free.1, before, _, later, split, registration?_eq_some_iff.2 rfl, free.2⟩

theorem mem_versions_iff :
    version ∈ (run interfaces? calls).versions ↔ ¬ IsFree interfaces? calls version := by
  rw [versions, ← get?_run_eq_none_iff, Table.get?_eq_none_iff, not_not]

/-- In whatever order the registered versions are listed, sorting gives the one list of them. -/
theorem mergeSort_listed (ps : Protocols) {listed : List String} (once : listed.Nodup)
    (all : ∀ v, v ∈ listed ↔ v ∈ ps.versions) :
    listed.mergeSort (fun a b => decide (a ≤ b)) = ps.versions := by
  have same : (listed.mergeSort fun a b => decide (a ≤ b)).Perm ps.versions :=
    (List.mergeSort_perm _ _).trans
      ((List.perm_ext_iff_of_nodup once ps.byVersion.nodup_keys).2 all)
  refine same.eq_of_pairwise (fun a b _ _ => Std.le_antisymm) ?_ ?_
  · have sorted : (listed.mergeSort fun a b => decide (a ≤ b)).Pairwise
        fun a b => decide (a ≤ b) = true :=
      List.pairwise_mergeSort (fun a b c => by simpa using String.le_trans)
        (fun a b => by simpa using String.le_total a b) listed
    exact sorted.imp of_decide_eq_true
  · exact (List.pairwise_map.2 ps.byVersion.sorted).imp Std.le_of_lt

/-- Runs that register the same for each version leave the same protocols in force. -/
theorem run_congr {calls' : List Call} (same : ∀ version,
    calls'.filterMap (Call.registration? version) = calls.filterMap (Call.registration? version)) :
    run interfaces? calls' = run interfaces? calls := by
  have tables : (run interfaces? calls').byVersion = (run interfaces? calls).byVersion := by
    refine Table.ext_get? fun version => ?_
    rw [get?_run, get?_run, ← List.head?_filterMap, ← List.head?_filterMap, same version]
  cases whole : run interfaces? calls' with
  | mk byVersion =>
    rw [whole] at tables
    exact congrArg Protocols.mk tables

/-- What a version keeps stays whatever is called later. -/
theorem IsKept.append {p : Protocol} (kept : IsKept interfaces? calls version p)
    (later : List Call) : IsKept interfaces? (calls ++ later) version p := by
  cases kept with
  | default isDefault => exact .default isDefault
  | registered before rest split next succeeds =>
    refine .registered before (rest ++ later) ?_ next succeeds
    rw [split, List.append_assoc, List.cons_append]

theorem exists_isKept_iff :
    (∃ p, IsKept interfaces? calls version p) ↔ ¬ IsFree interfaces? calls version := by
  simp only [← get?_run_eq_some_iff, ← get?_run_eq_none_iff]
  cases (run interfaces? calls).byVersion.get? version <;> simp

/-! ## The replies of a run -/

theorem perform_register_of_free (p : Protocol) (free : IsFree interfaces? calls version) :
    ((run interfaces? calls).perform (.register version p)).1 = .registered (.ok ()) := by
  obtain ⟨next, accepted⟩ := register_eq_ok_iff (p := p).2 (get?_run_eq_none_iff.2 free)
  simp only [perform, accepted]

theorem perform_register_of_taken (p : Protocol) (taken : ¬ IsFree interfaces? calls version) :
    (run interfaces? calls).perform (.register version p) =
      (.registered (.error (.versionTaken version)), run interfaces? calls) := by
  have refused := register_eq_error_iff (p := p).2 ⟨rfl, mt get?_run_eq_none_iff.1 taken⟩
  simp only [perform, refused]

theorem find_of_isKept {p : Protocol} (kept : IsKept interfaces? calls version p) :
    (run interfaces? calls).find version = .ok p :=
  find_eq_ok_iff.2 (get?_run_eq_some_iff.2 kept)

theorem find_of_isFree (free : IsFree interfaces? calls version) :
    (run interfaces? calls).find version = .error (.unknownVersion version) :=
  find_eq_error_iff.2 ⟨rfl, get?_run_eq_none_iff.2 free⟩

/-- After any calls, a version can be registered exactly if it is no default and was not registered
    before; otherwise registering it is refused and changes nothing.  Look-ups of a version use the
    protocol that it keeps, whatever is called later, and tell that the version is unknown exactly if
    it is free.  The versions are the registered ones in strict order, however they are listed before
    they are sorted, and runs that register the same for each version, in whatever order among
    different versions, leave the same protocols in force. -/
theorem registered_once (interfaces? : Option Interface.Registry) (calls : List Call)
    (version : String) :
    (∀ p, ((run interfaces? calls).perform (.register version p)).1 = .registered (.ok ()) ↔
      IsFree interfaces? calls version) ∧
    (∀ p, ¬ IsFree interfaces? calls version →
      (run interfaces? calls).perform (.register version p) =
        (.registered (.error (.versionTaken version)), run interfaces? calls)) ∧
    ((∃ p, IsKept interfaces? calls version p) ↔ ¬ IsFree interfaces? calls version) ∧
    (∀ p, IsKept interfaces? calls version p → ∀ later,
      let ps := run interfaces? (calls ++ later)
      ps.perform (.find version) = (.found (.ok p), ps) ∧
      (∀ occasion body,
        ps.perform (.parse occasion version body) = (.parsed (p.parse occasion body), ps)) ∧
      ∀ occasion e, ps.perform (.parseEnvelope occasion version e) =
        (.answered (p.parseEnvelope occasion e), ps)) ∧
    (IsFree interfaces? calls version →
      let ps := run interfaces? calls
      ps.perform (.find version) = (.found (.error (.unknownVersion version)), ps) ∧
      (∀ occasion body, ps.perform (.parse occasion version body) =
        (.parsed (.error (.unknownVersion version)), ps)) ∧
      ∀ occasion e, ps.perform (.parseEnvelope occasion version e) =
        (.answered ⟨.error (.unknownVersion version), []⟩, ps)) ∧
    (run interfaces? calls).versions.Pairwise (· < ·) ∧
    (version ∈ (run interfaces? calls).versions ↔ ¬ IsFree interfaces? calls version) ∧
    (∀ listed : List String, listed.Nodup →
      (∀ v, v ∈ listed ↔ ¬ IsFree interfaces? calls v) →
      listed.mergeSort (fun a b => decide (a ≤ b)) = (run interfaces? calls).versions) ∧
    ∀ calls', (∀ v, calls'.filterMap (Call.registration? v) =
        calls.filterMap (Call.registration? v)) →
      run interfaces? calls' = run interfaces? calls := by
  refine ⟨fun p => ⟨fun accepted => ?_, perform_register_of_free p⟩, perform_register_of_taken,
    exists_isKept_iff, ?_, ?_, ?_, mem_versions_iff, ?_, fun calls' => run_congr⟩
  · by_contra taken
    rw [perform_register_of_taken p taken] at accepted
    cases accepted
  · intro p kept later
    have found := find_of_isKept (kept.append later)
    refine ⟨?_, fun occasion body => ?_, fun occasion e => ?_⟩
    · simp only [perform, found]
    · simp only [perform, parse, found]
    · simp only [perform, parseEnvelope, found]
  · intro free
    have unknown := find_of_isFree free
    refine ⟨?_, fun occasion body => ?_, fun occasion e => ?_⟩
    · simp only [perform, unknown]
    · simp only [perform, parse, unknown]
    · simp only [perform, parseEnvelope, unknown]
  · exact List.pairwise_map.2 (run interfaces? calls).byVersion.sorted
  · intro listed once all
    exact mergeSort_listed _ once fun v => (all v).trans mem_versions_iff.symm

/-- A protocol that finds no reports in any body. -/
def silent (name : String) : Protocol where
  version := name
  parse _ _ := .ok ⟨[], []⟩

/-- Two protocols want the same version, and one wants the version that is there from the start. -/
def rivals : List Call :=
  [.register "9" (silent "first"), .register "2.0" (silent "late"), .register "9" (silent "second")]

theorem registered_once_rivals :
    let ps := run (some .standard) rivals
    ps.versions = ["2.0", "9"] ∧
    ps.perform (.find "9") = (.found (.ok (silent "first")), ps) ∧
    ps.perform (.find "8") = (.found (.error (.unknownVersion "8")), ps) ∧
    ps.perform (.register "2.0" (silent "late")) =
      (.registered (.error (.versionTaken "2.0")), ps) := by
  have kept : IsKept (some .standard) rivals "9" (silent "first") := .registered [] _ rfl _ rfl
  have free : IsFree (some .standard) rivals "8" := ⟨rfl, by simp [rivals]⟩
  have taken : ¬ IsFree (some .standard) rivals "2.0" := fun free => nomatch free.1
  obtain ⟨-, -, -, found, -⟩ := registered_once (some .standard) rivals "9"
  obtain ⟨-, -, -, -, unknown, -⟩ := registered_once (some .standard) rivals "8"
  obtain ⟨-, refused, -⟩ := registered_once (some .standard) rivals "2.0"
  exact ⟨rfl, (found _ kept []).1, (unknown free).1, refused _ taken⟩

end ErrorIntake.Submission.Protocols
