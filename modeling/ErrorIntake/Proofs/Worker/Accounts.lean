import ErrorIntake.Proofs.Worker.Filing

/-!
# Accounts of keys

An account is what a store tells of one key without the numbers that the store gave: the group, and
what its events told.  Processing a report changes the account of the report's key only, and what it
answers and leaves there depends on that account only.  So projects, whose keys are apart, do not
see each other.
-/

namespace ErrorIntake

open Calendar (Instant)

namespace Ledger

/-- A group without the number that the store gave it. -/
def Group.unnumbered (g : Group) : Group := { g with id := 0 }

/-- What is told of a key. -/
structure Account where
  group : Group
  /-- What its events told, the oldest first. -/
  occurrences : List NewEvent

/-- The account of a key, if the key has a group. -/
def Memory.account? (m : Memory) (key : Key) : Option Account :=
  (m.group? key).map fun g => ⟨g.unnumbered, m.occurrences key⟩

theorem Memory.group_account? (m : Memory) (key : Key) :
    (m.account? key).map Account.group = (m.group? key).map Group.unnumbered := by
  rw [account?, Option.map_map]
  rfl

theorem Memory.occurrences_account? (m : Memory) (key : Key) :
    (m.account? key).elim [] Account.occurrences = m.occurrences key := by
  rw [account?]
  cases found : m.group? key with
  | none =>
    rw [occurrences, found]
    rfl
  | some g => rfl

namespace Group

theorem addTimeSpent?_unnumbered (g : Group) (spent : Option Int) :
    g.unnumbered.addTimeSpent? spent = g.addTimeSpent? spent := rfl

theorem counted_unnumbered (g : Group) (seenAt : Instant) (total count : Int) :
    (g.counted seenAt total count).unnumbered = g.unnumbered.counted seenAt total count := by
  by_cases resolved : g.status = .resolved
  · simp [counted, unnumbered, resolved, withStatus]
  · simp [counted, unnumbered, resolved]

end Group

namespace Memory.Keyed

variable {m : Memory} {key : Key} {g : Group}

theorem isSome_account?_iff (h : m.Keyed) : (m.account? key).isSome ↔ key ∈ m.keys := by
  rw [account?, Option.isSome_map, h.isSome_group?_iff]

/-- A new group opens an account, and all others stay as they are. -/
theorem account?_addGroup (h : m.Keyed) {g : NewGroup} (new : m.group? g.key = none) (key : Key) :
    (m.addGroup g).2.account? key =
      if key = g.key then some ⟨.create 0 g, []⟩ else m.account? key := by
  rw [account?, h.group?_addGroup new, h.occurrences_addGroup new]
  by_cases same : key = g.key
  · subst same
    rw [if_pos rfl, if_pos rfl, occurrences, new]
    rfl
  · rw [if_neg (Ne.symm same), if_neg same]
    rfl

/-- An event goes into the account of its group's key, and all others stay as they are. -/
theorem account?_recorded (h : m.Keyed) {e : NewEvent} (found : m.groupById? e.group = some g)
    (seenAt : Instant) (total count : Int) (key : Key) :
    ((m.addEvent e).2.replaceGroup (g.counted seenAt total count)).account? key =
      if key = g.key then
        some ⟨g.unnumbered.counted seenAt total count,
          m.occurrences g.key ++ [{ e with group := 0 }]⟩
      else m.account? key := by
  rw [account?, h.group?_recorded found, h.occurrences_recorded found]
  by_cases same : key = g.key
  · subst same
    rw [if_pos rfl, if_pos rfl, if_pos rfl, Option.map_some, Group.counted_unnumbered]
  · rw [if_neg (Ne.symm same), if_neg same, if_neg (Ne.symm same), List.append_nil]
    rfl

end Memory.Keyed

end Ledger

namespace Worker

open Ledger (Account Group Key Memory NewEvent NewGroup)

/-- What an outcome tells of its group: that it is new, and that it was reopened. -/
def Outcome.flags (o : Outcome) : Bool × Bool := (o.isNewGroup, o.isRegression)

/-- What a processing tells, if it ends well. -/
def flags? (answer : Except StoreError Outcome) : Option (Bool × Bool) :=
  answer.toOption.map Outcome.flags

end Worker

namespace Ledger.Account

open Worker (isRegression)

/-- The account that the first report of a key opens. -/
def opened (r : Report) (project : ProjectId) (now : Instant) : Account :=
  ⟨.create 0 (.ofReport r project now), []⟩

/-- The account with one more report; none if its milliseconds do not fit. -/
def add? (a : Account) (r : Report) (project : ProjectId) (now : Instant) : Option Account :=
  (a.group.addTimeSpent? r.timeSpent).map fun totals =>
    ⟨a.group.counted now totals.1 totals.2, a.occurrences ++ [.ofReport r project 0]⟩

/-- What processing a report tells, and the account of its key then. -/
def process (before : Option Account) (r : Report) (project : ProjectId) (now : Instant) :
    Option (Bool × Bool) × Account :=
  let a := before.getD (opened r project now)
  match a.add? r project now with
  | none => (none, a)
  | some after => (some (before.isNone, isRegression a.group after.group), after)

end Ledger.Account

namespace Worker

open Ledger (Account Group Key Memory NewEvent NewGroup)

variable {r : Report} {project : ProjectId} {m : Memory} {f : Found} {g : Group}

/-- The first call opens the account of the report's key if there is none, and gives its group. -/
theorem resolve_account (keyed : m.Keyed) (named : r.project = some project) (now : Instant) :
    ∃ f m', resolve r now m = (.ok f, m') ∧ m'.Keyed ∧ f.project = project ∧ f.now = now ∧
      f.isNew = (m.account? ⟨project, r.checksum⟩).isNone ∧
      m'.group? ⟨project, r.checksum⟩ = some f.group ∧
      ∀ key, m'.account? key = if key = ⟨project, r.checksum⟩ then
        some ((m.account? ⟨project, r.checksum⟩).getD (.opened r project now))
        else m.account? key := by
  rcases resolve_memory r now m with
    ⟨nobody, _⟩ | ⟨project', named', ⟨g, found, made⟩ | ⟨new, made⟩⟩
  · rw [named] at nobody
    cases nobody
  · rw [named] at named'
    cases named'
    have account : m.account? ⟨project, r.checksum⟩ =
        some ⟨g.unnumbered, m.occurrences ⟨project, r.checksum⟩⟩ := by
      rw [Memory.account?, found]
      rfl
    refine ⟨_, _, made, keyed, rfl, rfl, ?_, found, ?_⟩
    · rw [account]
      rfl
    · intro key
      rw [account]
      split
      · next same => rw [same, account, Option.getD_some]
      · rfl
  · rw [named] at named'
    cases named'
    have account : m.account? ⟨project, r.checksum⟩ = none := by
      rw [Memory.account?, new]
      rfl
    refine ⟨_, _, made, keyed.addGroup new, rfl, rfl, ?_, ?_, ?_⟩
    · rw [account]
      rfl
    · rw [keyed.group?_addGroup (g := .ofReport r project now) new]
      exact if_pos rfl
    · intro key
      rw [account, Option.getD_none]
      exact keyed.account?_addGroup (g := .ofReport r project now) new key

/-- Processing a report tells what the account of its key says, and changes this account only. -/
theorem process_account (hooks : List Hook) (keyed : m.Keyed) (named : r.project = some project)
    (now : Instant) :
    (process hooks r now m).2.1.Keyed ∧
    flags? (process hooks r now m).1 =
      (Account.process (m.account? ⟨project, r.checksum⟩) r project now).1 ∧
    ∀ key, (process hooks r now m).2.1.account? key = if key = ⟨project, r.checksum⟩ then
      some (Account.process (m.account? ⟨project, r.checksum⟩) r project now).2
      else m.account? key := by
  obtain ⟨f, m', resolved, keyed', rfl, rfl, isNew, group, accounts⟩ :=
    resolve_account keyed named now
  obtain ⟨inside, filed⟩ := keyed'.group?_eq_some_iff.1 group
  have found := keyed'.groupById?_of_mem inside
  -- What the first call leaves at the key is what both sides go on from.
  have here : some ((m.account? ⟨f.project, r.checksum⟩).getD (.opened r f.project f.now)) =
      some ⟨f.group.unnumbered, m'.occurrences ⟨f.project, r.checksum⟩⟩ := by
    rw [← (accounts ⟨f.project, r.checksum⟩).trans (if_pos rfl), Memory.account?, group]
    rfl
  have step : process hooks r f.now m = record hooks r f m' := by
    rw [process, resolved]
  rw [step, Account.process, Option.some.inj here, Account.add?, Group.addTimeSpent?_unnumbered]
  rcases record_of_found hooks (r := r) found with
    ⟨sum, e, made⟩ | ⟨total, count, sum, made⟩
  · rw [made, sum]
    refine ⟨keyed', rfl, ?_⟩
    intro key
    rw [accounts, here]
    rfl
  · have kept := keyed'.recorded (e := .ofReport r f.project f.group.id) found sum f.now
    have account := keyed'.account?_recorded (e := .ofReport r f.project f.group.id) found f.now
      total count
    rw [made, sum]
    refine ⟨kept, ?_, ?_⟩
    · have reopened :
          isRegression f.group.unnumbered (f.group.unnumbered.counted f.now total count) =
            isRegression f.group (f.group.counted f.now total count) := by
        rw [← Group.counted_unnumbered]
        rfl
      show some (f.isNew, isRegression f.group _) = some (_, isRegression f.group.unnumbered _)
      rw [isNew, reopened]
    · intro key
      rw [account, filed, accounts key]
      split
      · rfl
      · rfl

/-! ## Runs -/

/-- Processes reports one after another, each at its time: what came of each, and the store then. -/
def processAll (hooks : List Hook) :
    List (Report × Instant) → Memory → List (Report × Except StoreError Outcome) × Memory
  | [], m => ([], m)
  | (r, now) :: rest, m =>
    let (answer, m, _) := process hooks r now m
    let (done, m) := processAll hooks rest m
    ((r, answer) :: done, m)

/-- What was told of the reports of a project, in their order. -/
def toldOf (project : ProjectId) (done : List (Report × Except StoreError Outcome)) :
    List (Report × Option (Bool × Bool)) :=
  (done.filter fun d => d.1.project = some project).map fun d => (d.1, flags? d.2)

/-- Two stores hold the same accounts of a project. -/
structure Agree (project : ProjectId) (m m' : Memory) : Prop where
  keyed : m.Keyed
  keyed' : m'.Keyed
  accounts : ∀ checksum, m.account? ⟨project, checksum⟩ = m'.account? ⟨project, checksum⟩

namespace Agree

variable {m' : Memory}

theorem refl (keyed : m.Keyed) (project : ProjectId) : Agree project m m :=
  ⟨keyed, keyed, fun _ => rfl⟩

/-- A report of another project, or of none, changes no account of the project. -/
theorem foreign (h : Agree project m m') (hooks : List Hook) (other : r.project ≠ some project)
    (now : Instant) :
    Agree project (process hooks r now m).2.1 m' := by
  cases named : r.project with
  | none =>
    rcases resolve_memory r now m with ⟨_, made⟩ | ⟨project', named', _⟩
    · rw [process, made]
      exact h
    · rw [named] at named'
      cases named'
  | some project' =>
    obtain ⟨keyed, -, accounts⟩ := process_account hooks h.keyed named now
    refine ⟨keyed, h.keyed', fun checksum => ?_⟩
    have apart : (⟨project, checksum⟩ : Key) ≠ ⟨project', r.checksum⟩ := by
      intro same
      cases same
      exact other named
    rw [accounts, if_neg apart, h.accounts]

/-- A report of the project is told the same in both stores, and changes them alike. -/
theorem own (h : Agree project m m') (hooks : List Hook) (named : r.project = some project)
    (now : Instant) :
    flags? (process hooks r now m).1 = flags? (process hooks r now m').1 ∧
      Agree project (process hooks r now m).2.1 (process hooks r now m').2.1 := by
  obtain ⟨keyed, told, accounts⟩ := process_account hooks h.keyed named now
  obtain ⟨keyed', told', accounts'⟩ := process_account hooks h.keyed' named now
  have same := h.accounts r.checksum
  refine ⟨?_, keyed, keyed', fun checksum => ?_⟩
  · rw [told, told', same]
  · rw [accounts, accounts', same, h.accounts checksum]

/-- Whatever is processed between them, the reports of a project are told the same as without the
    others, and leave the same. -/
theorem processAll (h : Agree project m m') (hooks : List Hook) (work : List (Report × Instant)) :
    let full := Worker.processAll hooks work m
    let alone := Worker.processAll hooks (work.filter fun w => w.1.project = some project) m'
    toldOf project full.1 = toldOf project alone.1 ∧ Agree project full.2 alone.2 := by
  induction work generalizing m m' with
  | nil => exact ⟨rfl, h⟩
  | cons first rest ih =>
    obtain ⟨r, now⟩ := first
    by_cases named : r.project = some project
    · obtain ⟨told, after⟩ := h.own hooks named now
      obtain ⟨toldRest, last⟩ := ih after
      have kept : ((r, now) :: rest).filter (fun w => w.1.project = some project) =
          (r, now) :: rest.filter fun w => w.1.project = some project :=
        List.filter_cons_of_pos (by simpa using named)
      rw [kept]
      refine ⟨?_, last⟩
      simp only [Worker.processAll, toldOf, List.filter_cons, named, decide_true, if_true,
        List.map_cons, List.cons.injEq, Prod.mk.injEq, true_and]
      exact ⟨told, toldRest⟩
    · have left : ((r, now) :: rest).filter (fun w => w.1.project = some project) =
          rest.filter fun w => w.1.project = some project :=
        List.filter_cons_of_neg (by simpa using named)
      obtain ⟨toldRest, last⟩ := ih (h.foreign hooks named now)
      rw [left]
      refine ⟨?_, last⟩
      simp only [Worker.processAll, toldOf, List.filter_cons, named, decide_false]
      exact toldRest

end Agree

/-- Projects do not interfere.  Of reports that are processed one after another, those of one project
    end and are told the same as if the others had not been there, and leave the same checksums, the
    same groups but for their ids, and in each group the same events, in their order, but for the ids
    of rows and group. -/
theorem projects_apart (hooks : List Hook) (work : List (Report × Instant)) (project : ProjectId) :
    let full := processAll hooks work .empty
    let alone := processAll hooks (work.filter fun w => w.1.project = some project) .empty
    toldOf project full.1 = toldOf project alone.1 ∧
    (∀ checksum, (⟨project, checksum⟩ : Key) ∈ full.2.keys ↔ ⟨project, checksum⟩ ∈ alone.2.keys) ∧
    ∀ checksum,
      (full.2.group? ⟨project, checksum⟩).map Group.unnumbered =
        (alone.2.group? ⟨project, checksum⟩).map Group.unnumbered ∧
      full.2.occurrences ⟨project, checksum⟩ = alone.2.occurrences ⟨project, checksum⟩ := by
  intro full alone
  have start : Agree project .empty .empty := .refl .empty project
  obtain ⟨told, same⟩ := start.processAll hooks work
  refine ⟨told, fun checksum => ?_, fun checksum => ⟨?_, ?_⟩⟩
  · rw [← same.keyed.isSome_account?_iff, same.accounts, same.keyed'.isSome_account?_iff]
  · rw [← Memory.group_account?, same.accounts, Memory.group_account?]
  · rw [← Memory.occurrences_account?, same.accounts, Memory.occurrences_account?]

/-- An error of two projects, in which the report of project 2 came first. -/
def oneErrorOfTwo : List (Report × Instant) :=
  [({ Report.plain with project := some ⟨2⟩ }, .epoch), (.plain, .epoch)]

-- The group of project 1 has another id without the other project, and tells the same.
example :
    let alone := oneErrorOfTwo.filter fun w => w.1.project = some ⟨1⟩
    ((processAll [] oneErrorOfTwo .empty).2.group? ⟨⟨1⟩, "abc"⟩).map Group.id = some 2 ∧
      ((processAll [] alone .empty).2.group? ⟨⟨1⟩, "abc"⟩).map Group.id = some 1 := by
  decide +kernel

end Worker

end ErrorIntake
