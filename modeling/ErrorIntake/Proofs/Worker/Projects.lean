import ErrorIntake.Proofs.EventQueue.Accepting
import ErrorIntake.Proofs.Queue.History
import ErrorIntake.Proofs.Report.Identity
import ErrorIntake.Proofs.Worker.Filing
import ErrorIntake.Proofs.Worker.World

/-!
# Groups under their projects

Submissions are taken in, workers process them, and people set statuses, over one queue and one
store that nobody else uses.  Neither queue nor store looks at projects.  `Sound` follows a project
from the request that was authenticated for it to the rows: through the binding of reports, through
the payload of a message, which keeps project and checksum, and through the two calls of a worker.
-/

namespace ErrorIntake

open Calendar (Instant Reading)
open Ledger (EventStore Key Memory)
open Queue (Broker QueueBackend Slot)
open Submission (Envelope Protocol Protocols)

/-- The submissions that were accepted: the project that each was authenticated for, and the ids
    that it was answered with. -/
abbrev Receipts := List (ProjectId × List String)

/-- An accepted submission to the project was answered with the id. -/
def Receipts.Cover (receipts : Receipts) (project : ProjectId) (eventId : String) : Prop :=
  ∃ ids, (project, ids) ∈ receipts ∧ eventId ∈ ids

/-- The report names a project to which it was accepted. -/
def Report.IsCovered (r : Report) (receipts : Receipts) : Prop :=
  ∃ project, r.project = some project ∧ receipts.Cover project r.eventId

theorem Report.IsCovered.append {r : Report} {receipts : Receipts} (h : r.IsCovered receipts)
    (more : Receipts) : r.IsCovered (receipts ++ more) := by
  obtain ⟨project, named, ids, accepted, member⟩ := h
  exact ⟨project, named, ids, List.mem_append_left _ accepted, member⟩

/-! ## Accepted submissions -/

namespace Intake

theorem payloads_pushAll (q : EventQueue) (now : Reading) (reports : List Report) (b : Broker) :
    (pushAll q now reports b).2.payloads =
      b.payloads ++ reports.map q.payload := by
  induction reports generalizing b with
  | nil => simp [pushAll]
  | cons r rest ih =>
    have first : (q.push now r b).2.payloads =
        b.payloads ++ [q.payload r] := b.payloads_publish ..
    show (pushAll q now rest (q.push now r b).2).2.payloads = _
    rw [ih, first, List.append_assoc, List.map_cons]
    rfl

end Intake

namespace Worker

namespace Attempt

/-- The report that an attempt processes. -/
def event? : Attempt → Option Report
  | .popping _ => none
  | .grouping d => some d.event
  | .recording d _ => some d.event
  | .acking d _ => some d.event

end Attempt

/-- A queue, a store and workers, and which submissions were accepted. -/
structure Service where
  broker : Broker
  store : Memory
  /-- The attempt that each worker is in, if it is in one. -/
  workers : Nat → Option Attempt
  receipts : Receipts

namespace Service

/-- Nothing was submitted yet and no worker is at work. -/
def start : Service := ⟨.empty, .empty, fun _ => none, []⟩

/-- A submission is taken in under the protocols in force. -/
def ingest (ps : Protocols) (q : EventQueue) (now : Reading) (freshId version : String)
    (e : Envelope) (w : Service) : Service :=
  let (answer, broker, _) := Intake.ingest ps q now freshId version e w.broker
  { w with
    broker
    receipts := w.receipts ++ answer.toOption.toList.map fun ids => (e.project, ids) }

/-- An idle worker begins an attempt. -/
def begin (i : Nat) (w : Service) : Service :=
  { w with workers := Function.update w.workers i (some .start) }

/-- A worker makes the next call of its attempt. -/
def act (q : EventQueue) (hooks : List Hook) (i : Nat) (a : Attempt) (now : Reading) (w : Service) :
    Service :=
  let (p, broker, store, _) := a.step q hooks now w.broker w.store
  { w with broker, store, workers := Function.update w.workers i (World.nextOf p) }

/-- Somebody sets the status of a group. -/
def setStatus (group : Int) (status : GroupStatus) (now : Instant) (w : Service) : Service :=
  { w with store := (EventStore.setGroupStatus group status now w.store).2 }

/-- What can happen at one time.  The protocols and the clock may be others each time. -/
inductive Step (q : EventQueue) (hooks : List Hook) : Service → Service → Prop
  | ingest (w : Service) (ps : Protocols) (now : Reading) (freshId version : String)
      (e : Envelope) : Step q hooks w (w.ingest ps q now freshId version e)
  | begin (w : Service) (i : Nat) (idle : w.workers i = none) : Step q hooks w (w.begin i)
  | act (w : Service) (i : Nat) (a : Attempt) (now : Reading) (busy : w.workers i = some a) :
      Step q hooks w (w.act q hooks i a now)
  | setStatus (w : Service) (group : Int) (status : GroupStatus) (now : Instant) :
      Step q hooks w (w.setStatus group status now)

/-- A service that comes of the empty one. -/
def Reachable (q : EventQueue) (hooks : List Hook) (w : Service) : Prop :=
  Relation.ReflTransGen (Step q hooks) start w

/-- The calls of an attempt up to its end, with nothing between them, are some of these steps. -/
theorem Reachable.finish {q : EventQueue} {hooks : List Hook} {w : Service}
    (reach : w.Reachable q hooks) (i : Nat) (now : Reading) (a : Attempt)
    (busy : w.workers i = some a) :
    Service.Reachable q hooks { w with
      broker := (a.finish q hooks now w.broker w.store).2.1
      store := (a.finish q hooks now w.broker w.store).2.2.1
      workers := Function.update w.workers i none } := by
  obtain ⟨b, m, workers, receipts⟩ := w
  change workers i = some a at busy
  show Reachable q hooks ⟨(a.finish q hooks now b m).2.1, (a.finish q hooks now b m).2.2.1,
    Function.update workers i none, receipts⟩
  fun_induction Attempt.finish q hooks now a b m generalizing workers with
  | case1 a b m result b' m' shown made =>
    have ended := reach.tail (.act _ i a now busy)
    simp only [act, made, World.nextOf] at ended
    exact ended
  | case2 a b m next b' m' shown made result b'' m'' more rest ih =>
    have stepped := reach.tail (.act _ i a now busy)
    simp only [act, made, World.nextOf] at stepped
    have ended := ih _ stepped (Function.update_self ..)
    rw [Function.update_idem, rest] at ended
    exact ended

/-- So is a whole attempt of an idle worker. -/
theorem Reachable.runOnce {q : EventQueue} {hooks : List Hook} {w : Service}
    (reach : w.Reachable q hooks) (i : Nat) (idle : w.workers i = none) (now : Reading) :
    Service.Reachable q hooks { w with
      broker := (Worker.runOnce q hooks now w.broker w.store).2.1
      store := (Worker.runOnce q hooks now w.broker w.store).2.2.1 } := by
  have begun : (w.begin i).Reachable q hooks := reach.tail (.begin w i idle)
  have ended := begun.finish i now .start (Function.update_self ..)
  have same : Function.update (w.begin i).workers i none = w.workers := by
    show Function.update (Function.update w.workers i _) i none = w.workers
    rw [Function.update_idem, ← idle, Function.update_eq_self]
  rw [same] at ended
  exact ended

/-! ## The calls of an attempt -/

/-- What a call of an attempt leaves of the attempt and of the store. -/
inductive Call (b : Broker) (m : Memory) : Attempt → Option Attempt → Memory → Prop
  /-- The attempt ended. -/
  | finish (a : Attempt) : Call b m a none m
  /-- The pop goes on. -/
  | pop (p p' : Pop) : Call b m (.popping p) (some (.popping p')) m
  | take (p : Pop) (d : Delivery) (payload : Bytes) (member : payload ∈ b.payloads)
      (holds : EventQueue.decode? payload = some d.event) :
      Call b m (.popping p) (some (.grouping d)) m
  | group (d : Delivery) (now : Instant) (f : Found) (m' : Memory)
      (made : resolve d.event now m = (.ok f, m')) :
      Call b m (.grouping d) (some (.recording d f)) m'
  | record (d : Delivery) (f : Found) (hooks : List Hook) (o : Outcome) (m' : Memory)
      (shown : Trace) (made : Worker.record hooks d.event f m = (.ok o, m', shown)) :
      Call b m (.recording d f) (some (.acking d o)) m'

theorem decode?_of_judge {q : EventQueue} {m : Queue.Message} {event : Report}
    (judged : q.judge m = .deliver event) : EventQueue.decode? m.payload = some event := by
  unfold EventQueue.judge at judged
  split at judged
  · cases judged
  · split at judged
    · next holds =>
      cases judged
      exact holds
    · cases judged

/-- A step of an attempt is one of its calls, and brings no payload. -/
theorem step_call (q : EventQueue) (hooks : List Hook) (now : Reading) (a : Attempt) (b : Broker)
    (m : Memory) :
    Call b m a (World.nextOf (a.step q hooks now b m).1) (a.step q hooks now b m).2.2.1 ∧
      (a.step q hooks now b m).2.1.payloads ⊆ b.payloads := by
  cases a with
  | popping p =>
    cases p with
    | receiving =>
      have kept : (QueueBackend.receive now q.name q.timeout b).2.payloads ⊆ b.payloads :=
        (b.perform_effect now (.receive q.name q.timeout)).payloads_subset rfl
      simp only [Attempt.step, Pop.step, QueueBackend.receive] at kept ⊢
      rcases b.receive_cases now q.name q.timeout with
        ⟨_, made⟩ | ⟨_, _, _, _, _, made⟩ | ⟨id, s, found, _, _, _, made⟩
      · simp only [made]
        exact ⟨.finish _, List.Subset.refl _⟩
      · simp only [made]
        exact ⟨.finish _, List.Subset.refl _⟩
      · simp only [made] at kept ⊢
        have member : s.payload ∈ b.payloads :=
          List.mem_map_of_mem (Broker.slot?_eq_some_iff.1 found).1
        cases judged : q.judge (s.claimed (now.steady + q.timeout)).message with
        | deliver event => exact ⟨.take _ _ s.payload member (decode?_of_judge judged), kept⟩
        | park warning => exact ⟨.pop _ _, kept⟩
    | parking m' =>
      have kept : (QueueBackend.deadLetter now q.name m'.id q.deadName b).2.payloads ⊆ b.payloads :=
        (b.perform_effect now (.deadLetter q.name m'.id q.deadName)).payloads_subset rfl
      simp only [Attempt.step, Pop.step]
      generalize QueueBackend.deadLetter now q.name m'.id q.deadName b = called at kept ⊢
      obtain ⟨e | ⟨⟩, b'⟩ := called
      · exact ⟨.finish _, kept⟩
      · exact ⟨.pop _ _, kept⟩
  | grouping d =>
    simp only [Attempt.step]
    rcases made : resolve d.event now.wall m with ⟨e | f, m'⟩
    · obtain rfl := resolve_of_error made
      exact ⟨.finish _, List.Subset.refl _⟩
    · exact ⟨.group d now.wall f m' made, List.Subset.refl _⟩
  | recording d f =>
    simp only [Attempt.step]
    rcases made : Worker.record hooks d.event f m with ⟨e | o, m', shown⟩
    · obtain rfl := record_of_error made
      exact ⟨.finish _, List.Subset.refl _⟩
    · exact ⟨.record d f hooks o m' shown made, List.Subset.refl _⟩
  | acking d o =>
    have kept : (QueueBackend.ack d.queue d.id b).2.payloads ⊆ b.payloads :=
      (b.perform_effect now (.ack d.queue d.id)).payloads_subset rfl
    simp only [Attempt.step, Delivery.ack, EventQueue.crossing]
    generalize QueueBackend.ack d.queue d.id b = called at kept ⊢
    obtain ⟨e | ⟨⟩, b'⟩ := called
    · exact ⟨.finish _, kept⟩
    · exact ⟨.finish _, kept⟩

/-! ## What every step keeps -/

/-- Whatever is on its way names a project to which it was accepted, and whatever is stored stands
    under such a project. -/
structure Sound (w : Service) : Prop where
  keyed : w.store.Keyed
  queued : ∀ payload ∈ w.broker.payloads, ∀ r, EventQueue.decode? payload = some r →
    r.IsCovered w.receipts
  held : ∀ i a, w.workers i = some a → ∀ r, a.event? = some r → r.IsCovered w.receipts
  found : ∀ i d f, w.workers i = some (.recording d f) → f.IsFiled d.event w.store
  rows : ∀ e ∈ w.store.events,
    w.store.Files ⟨e.project, e.checksum⟩ e.group ∧ w.receipts.Cover e.project e.eventId
  groups : ∀ key id, w.store.Files key id → ∃ eventId, w.receipts.Cover key.project eventId

namespace Sound

variable {q : EventQueue} {hooks : List Hook} {w : Service}

theorem start : Service.start.Sound where
  keyed := .empty
  queued payload member := by cases member
  held i a busy := by cases busy
  found i d f busy := by cases busy
  rows e member := by cases member
  groups key id stands := by
    obtain ⟨g, member, _⟩ := stands
    cases member

/-- Nothing that was accepted before is forgotten. -/
theorem accept (h : w.Sound) (broker : Broker) (more : Receipts)
    (queued : ∀ payload ∈ broker.payloads, ∀ r, EventQueue.decode? payload = some r →
      r.IsCovered (w.receipts ++ more)) :
    Sound { w with broker, receipts := w.receipts ++ more } where
  keyed := h.keyed
  queued := queued
  held i a busy r event := (h.held i a busy r event).append more
  found := h.found
  rows e member := by
    obtain ⟨filed, ids, accepted, answered⟩ := h.rows e member
    exact ⟨filed, ids, List.mem_append_left _ accepted, answered⟩
  groups key id stands := by
    obtain ⟨eventId, ids, accepted, answered⟩ := h.groups key id stands
    exact ⟨eventId, ids, List.mem_append_left _ accepted, answered⟩

theorem ingest (h : w.Sound) (ps : Protocols) (q : EventQueue) (now : Reading)
    (freshId version : String) (e : Envelope) : (w.ingest ps q now freshId version e).Sound := by
  unfold Service.ingest
  have unchanged := h.accept w.broker [] fun payload member r holds =>
    (h.queued payload member r holds).append []
  rcases Intake.ingest_cases ps q now freshId version e w.broker with
    ⟨_, _, _, made⟩ | ⟨_, _, _, _, _, made⟩ | ⟨reports, logs, _, _, made⟩
  · rw [made]
    exact unchanged
  · rw [made]
    exact unchanged
  · rw [made]
    refine h.accept _ _ ?_
    intro payload member r holds
    rw [Intake.payloads_pushAll, List.map_map] at member
    rcases List.mem_append.1 member with old | new
    · exact (h.queued payload old r holds).append _
    · obtain ⟨sent, inside, rfl⟩ := List.mem_map.1 new
      obtain ⟨id, project, -⟩ := EventQueue.decode?_identity holds
      refine ⟨e.project, project, reports.map Report.eventId, ?_, ?_⟩
      · exact List.mem_append_right _ List.mem_cons_self
      · rw [id]
        exact List.mem_map.2 ⟨sent, inside, rfl⟩

/-- Worker `i` goes on or ends its attempt, and the store grows by what is covered. -/
theorem advance (h : w.Sound) (i : Nat) {b : Broker} {next : Option Attempt} {m : Memory}
    (kept : b.payloads ⊆ w.broker.payloads) (keyed : m.Keyed)
    (grows : ∀ key id, w.store.Files key id → m.Files key id)
    (event : ∀ a, next = some a → ∀ r, a.event? = some r → r.IsCovered w.receipts)
    (found : ∀ d f, next = some (.recording d f) → f.IsFiled d.event m)
    (rows : ∀ e ∈ m.events, e ∈ w.store.events ∨
      m.Files ⟨e.project, e.checksum⟩ e.group ∧ w.receipts.Cover e.project e.eventId)
    (groups : ∀ key id, m.Files key id →
      w.store.Files key id ∨ ∃ eventId, w.receipts.Cover key.project eventId) :
    Sound { w with broker := b, store := m, workers := Function.update w.workers i next } where
  keyed := keyed
  queued payload member := h.queued payload (kept member)
  held j a busy := by
    by_cases here : j = i
    · subst here
      exact event a ((Function.update_self j next w.workers).symm.trans busy)
    · exact h.held j a ((Function.update_of_ne here next w.workers).symm.trans busy)
  found j d f busy := by
    by_cases here : j = i
    · subst here
      exact found d f ((Function.update_self j next w.workers).symm.trans busy)
    · obtain ⟨named, stands⟩ :=
        h.found j d f ((Function.update_of_ne here next w.workers).symm.trans busy)
      exact ⟨named, grows _ _ stands⟩
  rows e member := by
    rcases rows e member with old | new
    · exact ⟨grows _ _ (h.rows e old).1, (h.rows e old).2⟩
    · exact new
  groups key id stands := by
    rcases groups key id stands with old | new
    · exact h.groups key id old
    · exact new

/-- Worker `i` goes on or ends its attempt and leaves the store alone. -/
theorem stay (h : w.Sound) (i : Nat) {b : Broker} {next : Option Attempt}
    (kept : b.payloads ⊆ w.broker.payloads)
    (event : ∀ a, next = some a → ∀ r, a.event? = some r → r.IsCovered w.receipts)
    (found : ∀ d f, next ≠ some (.recording d f)) :
    Sound { w with broker := b, workers := Function.update w.workers i next } := by
  apply h.advance i kept h.keyed
  · intro key id stands
    exact stands
  · exact event
  · intro d f same
    exact absurd same (found d f)
  · intro e member
    exact .inl member
  · intro key id stands
    exact .inl stands

/-- A call of an attempt keeps what is known of it. -/
theorem call (h : w.Sound) (i : Nat) {a : Attempt} (busy : w.workers i = some a) {b : Broker}
    (kept : b.payloads ⊆ w.broker.payloads) {next : Option Attempt} {m : Memory}
    (made : Call w.broker w.store a next m) :
    Sound { w with broker := b, store := m, workers := Function.update w.workers i next } := by
  cases made with
  | finish a =>
    apply h.stay i kept
    · intro a nothing
      cases nothing
    · intro d f nothing
      cases nothing
  | pop p p' =>
    apply h.stay i kept
    · intro a same r event
      cases same
      cases event
    · intro d f same
      cases same
  | take p d payload member holds =>
    apply h.stay i kept
    · intro a same r event
      cases same
      cases event
      exact h.queued payload member d.event holds
    · intro d f same
      cases same
  | group d now f m' made =>
    have covered : d.event.IsCovered w.receipts := h.held i _ busy d.event rfl
    obtain ⟨keyed, filed, events, files⟩ := resolve_files h.keyed made
    apply h.advance i kept keyed
    · intro key id stands
      exact (files key id).2 (.inl stands)
    · intro a same r event
      cases same
      cases event
      exact covered
    · intro d' f' same
      cases same
      exact filed
    · intro e member
      rw [events] at member
      exact .inl member
    · intro key id stands
      rcases (files key id).1 stands with old | ⟨told, -⟩
      · exact .inl old
      · obtain ⟨project, named, cover⟩ := covered
        rw [Report.key?, named] at told
        cases told
        exact .inr ⟨_, cover⟩
  | record d f hooks o m' shown made =>
    have covered : d.event.IsCovered w.receipts := h.held i _ busy d.event rfl
    have filed : f.IsFiled d.event w.store := h.found i d f busy
    obtain ⟨keyed, files, events, row⟩ := record_files h.keyed made
    apply h.advance i kept keyed
    · intro key id stands
      exact (files key id).2 stands
    · intro a same r event
      cases same
      cases event
      exact covered
    · intro d' f' same
      cases same
    · intro e member
      rw [events] at member
      rcases List.mem_append.1 member with old | new
      · exact .inl old
      · rw [List.mem_singleton.1 new, row]
        obtain ⟨project, named, cover⟩ := covered
        rw [filed.1] at named
        cases named
        exact .inr ⟨(files _ _).2 filed.2, cover⟩
    · intro key id stands
      exact .inl ((files key id).1 stands)

theorem setStatus (h : w.Sound) (group : Int) (status : GroupStatus) (now : Instant) :
    (w.setStatus group status now).Sound := by
  have files (key : Key) (id : Int) :
      (w.setStatus group status now).store.Files key id ↔ w.store.Files key id :=
    h.keyed.files_setGroupStatus group status now
  have events : (w.setStatus group status now).store.events = w.store.events := by
    show (w.store.setGroupStatus group status now).2.events = _
    rcases w.store.setGroupStatus_cases group status now with ⟨_, made⟩ | ⟨_, _, made⟩
    · rw [made]
    · rw [made]
      rfl
  constructor
  case keyed => exact h.keyed.perform (.setStatus group status now)
  case queued => exact h.queued
  case held => exact h.held
  case found =>
    intro i d f busy
    obtain ⟨named, stands⟩ := h.found i d f busy
    exact ⟨named, (files _ _).2 stands⟩
  case rows =>
    intro e member
    rw [events] at member
    obtain ⟨stands, cover⟩ := h.rows e member
    exact ⟨(files _ _).2 stands, cover⟩
  case groups =>
    intro key id stands
    exact h.groups key id ((files key id).1 stands)

theorem step {w' : Service} (h : w.Sound) (step : Step q hooks w w') : w'.Sound := by
  cases step with
  | ingest ps now freshId version e => exact h.ingest ps q now freshId version e
  | begin i idle =>
    apply h.stay i (List.Subset.refl _)
    · intro a same r event
      cases same
      cases event
    · intro d f same
      cases same
  | act i a now busy =>
    obtain ⟨made, kept⟩ := step_call q hooks now a w.broker w.store
    exact h.call i busy kept made
  | setStatus group status now => exact h.setStatus group status now

end Sound

theorem sound_of_reachable {q : EventQueue} {hooks : List Hook} {w : Service}
    (reach : w.Reachable q hooks) : w.Sound := by
  induction reach with
  | refl => exact .start
  | tail _ step ih => exact ih.step step

/-- Whatever is submitted, processed and decided, a stored event belongs to a group of its project
    and its checksum, and an earlier submission that was authenticated for that project was accepted
    and answered with the event's id.  No group stands under a project without such a submission. -/
theorem filed_under_project (q : EventQueue) (hooks : List Hook) (w : Service)
    (reach : w.Reachable q hooks) :
    (∀ e ∈ w.store.events,
      (∃ g ∈ w.store.groups, g.id = e.group ∧ g.project = e.project ∧ g.checksum = e.checksum) ∧
      ∃ ids, (e.project, ids) ∈ w.receipts ∧ e.eventId ∈ ids) ∧
    ∀ g ∈ w.store.groups, ∃ ids, (g.project, ids) ∈ w.receipts := by
  have h := sound_of_reachable reach
  refine ⟨fun e member => ?_, fun g member => ?_⟩
  · obtain ⟨⟨g, inside, named, filed⟩, cover⟩ := h.rows e member
    exact ⟨⟨g, inside, named, congrArg Key.project filed, congrArg Key.checksum filed⟩, cover⟩
  · obtain ⟨eventId, ids, accepted, -⟩ := h.groups g.key g.id (Memory.files_of_mem member)
    exact ⟨ids, accepted⟩

/-- Worker 0 makes so many calls of its attempt, at one time. -/
def turns (q : EventQueue) (hooks : List Hook) (now : Reading) : Nat → Service → Service
  | 0, w => w
  | n + 1, w =>
    match w.workers 0 with
    | some a => turns q hooks now n (w.act q hooks 0 a now)
    | none => w

theorem Reachable.turns {q : EventQueue} {hooks : List Hook} {w : Service}
    (reach : w.Reachable q hooks) (now : Reading) (n : Nat) :
    (w.turns q hooks now n).Reachable q hooks := by
  induction n generalizing w with
  | zero => exact reach
  | succ n ih =>
    rw [Service.turns]
    cases busy : w.workers 0 with
    | none => exact reach
    | some a => exact ih (reach.tail (.act w 0 a now busy))

/-- Under these protocols every body of version 1 holds one report, which names no project. -/
def plainProtocols : Protocols :=
  ⟨(∅ : Table Protocol).insert "1"
    { version := "1", parse := fun _ _ => .ok ⟨[{ Report.plain with project := none }], []⟩ }⟩

/-- A body is taken in for project 7, and worker 0 makes three calls for it. -/
def oneSubmission : Service :=
  turns (.ofSettings {}) [] (.atEpoch 0) 3
    ((start.ingest plainProtocols (.ofSettings {}) (.atEpoch 0) "" "1"
      { project := ⟨7⟩, body := [] }).begin 0)

theorem filed_under_project_oneSubmission :
    oneSubmission.Reachable (.ofSettings {}) [] ∧
    ∃ e ∈ oneSubmission.store.events, e.eventId = "e1" ∧ e.project = ⟨7⟩ ∧
      (∃ g ∈ oneSubmission.store.groups, g.id = e.group ∧ g.project = e.project ∧
        g.checksum = e.checksum) ∧
      ∃ ids, (e.project, ids) ∈ oneSubmission.receipts ∧ e.eventId ∈ ids := by
  have taken : (start.ingest plainProtocols (.ofSettings {}) (.atEpoch 0) "" "1"
      { project := ⟨7⟩, body := [] }).Reachable (.ofSettings {}) [] := .single (.ingest start ..)
  have reach : oneSubmission.Reachable (.ofSettings {}) [] :=
    Reachable.turns (taken.tail (.begin _ 0 rfl)) _ 3
  have stored : (oneSubmission.store.events.map fun e => (e.eventId, e.project)) =
      [("e1", ⟨7⟩)] := by
    decide +kernel
  obtain ⟨e, only, same⟩ := List.map_eq_singleton_iff.1 stored
  have member : e ∈ oneSubmission.store.events := by
    rw [only]
    exact List.mem_cons_self
  obtain ⟨group, receipt⟩ :=
    (filed_under_project (.ofSettings {}) [] oneSubmission reach).1 e member
  exact ⟨reach, e, member, congrArg Prod.fst same, congrArg Prod.snd same, group, receipt⟩

end Service

end Worker

end ErrorIntake
