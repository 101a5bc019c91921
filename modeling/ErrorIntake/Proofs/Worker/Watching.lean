import ErrorIntake.Proofs.EventQueue.Skipping
import ErrorIntake.Proofs.Worker.Filing
import ErrorIntake.Worker.Attempt

/-!
# Hooks only watch

A run with hooks and a run without them go through the same states of queue and store.  What hooks
leave behind is the number of their panics and the records about these: `unwatched` takes that away
from an outcome, an attempt and a trace, and each step of an attempt with hooks is, seen through
`unwatched`, the step without them.
-/

namespace ErrorIntake

open Calendar (Instant Reading)
open Ledger (EventStore Group Memory NewEvent)
open Queue (Command QueueBackend)

/-- The record says that a hook panicked. -/
def LogRecord.isOfHook : LogRecord → Bool
  | hookPanicked .. => true
  | _ => false

namespace Worker

/-! ## What hooks leave behind -/

/-- What a hook panics with when it sees an event, if it does. -/
def Hook.panic? (h : Hook) (p : Processed) : Option Panic :=
  match h.onEvent p with
  | .returned => none
  | .panicked panic => some panic

/-- What hooks see of an outcome. -/
def Outcome.seen (o : Outcome) : Processed := ⟨o.event, o.group, o.isNewGroup, o.isRegression⟩

/-- The outcome as if no hook had been called. -/
def Outcome.unwatched (o : Outcome) : Outcome := { o with hookFailures := 0 }

/-- What is seen of work as if no hook had been called. -/
def Trace.unwatched (shown : Trace) : Trace :=
  { logs := shown.logs.filter fun record => !record.isOfHook }

theorem Trace.unwatched_append (a b : Trace) :
    (a ++ b).unwatched = a.unwatched ++ b.unwatched := by
  show Trace.unwatched ⟨a.logs ++ b.logs, a.calls ++ b.calls⟩ = _
  rw [unwatched, List.filter_append]
  rfl

theorem record?_call (h : Hook) (p : Processed) :
    (h.call p).record? = (h.panic? p).map fun panic =>
      .hookPanicked h.name p.event.eventId p.group.id panic.message := by
  rw [HookCall.record?, Hook.call, Hook.panic?]
  cases h.onEvent p <;> rfl

/-- Every panic counts. -/
theorem failures_fire (hooks : List Hook) (p : Processed) :
    failures (fire hooks p) = hooks.countP fun h => (h.panic? p).isSome := by
  rw [failures, fire, List.countP_map]
  refine List.countP_congr fun h _ => ?_
  rw [Function.comp_apply, record?_call, Option.isSome_map]

/-- Every panic is told in a record of its own. -/
theorem logs_fire (hooks : List Hook) (p : Processed) :
    (Trace.ofCalls (fire hooks p)).logs = hooks.filterMap fun h => (h.panic? p).map fun panic =>
      .hookPanicked h.name p.event.eventId p.group.id panic.message := by
  rw [Trace.ofCalls, fire, List.filterMap_map]
  exact List.filterMap_congr fun h _ => record?_call h p

theorem unwatched_ofCalls (hooks : List Hook) (p : Processed) :
    (Trace.ofCalls (fire hooks p)).unwatched = {} := by
  have none : ∀ record ∈ (Trace.ofCalls (fire hooks p)).logs, record.isOfHook = true := by
    rw [logs_fire]
    intro record member
    obtain ⟨h, -, told⟩ := List.mem_filterMap.1 member
    obtain ⟨panic, -, rfl⟩ := Option.map_eq_some_iff.1 told
    rfl
  rw [Trace.unwatched, List.filter_eq_nil_iff.2 fun record member => by simp [none record member]]

/-! ## Processing with and without hooks -/

section

variable {τ : Type} [EventStore τ]

theorem record_unwatched (hooks : List Hook) (r : Report) (f : Found) (t : τ) :
    record [] r f t = ((record hooks r f t).1.map Outcome.unwatched, (record hooks r f t).2.1,
      (record hooks r f t).2.2.unwatched) := by
  unfold record
  rcases EventStore.recordEvent (.ofReport r f.project f.group.id) f.now t with ⟨e | ⟨event, g⟩, t'⟩
  · rfl
  · simp only [unwatched_ofCalls]
    rfl

theorem process_unwatched (hooks : List Hook) (r : Report) (now : Instant) (t : τ) :
    process [] r now t = ((process hooks r now t).1.map Outcome.unwatched,
      (process hooks r now t).2.1, (process hooks r now t).2.2.unwatched) := by
  unfold process
  rcases resolve r now t with ⟨e | f, t'⟩
  · rfl
  · exact record_unwatched hooks r f t'

/-- Processing fails in one of its two calls and shows nothing, or makes both and shows the hooks
    what the second one answered. -/
theorem process_cases (hooks : List Hook) (r : Report) (now : Instant) (t : τ) :
    (∃ e t', process hooks r now t = (.error e, t', {})) ∨
    ∃ f t₁ event counted t', resolve r now t = (.ok f, t₁) ∧
      EventStore.recordEvent (.ofReport r f.project f.group.id) f.now t₁ =
        (.ok (event, counted), t') ∧
      process hooks r now t = (.ok ((f.processed event counted).outcome
        (fire hooks (f.processed event counted))), t', .ofCalls
        (fire hooks (f.processed event counted))) := by
  unfold process
  cases found : resolve r now t with
  | mk answer t₁ =>
    cases answer with
    | error e => exact .inl ⟨e, t₁, rfl⟩
    | ok f =>
      simp only [record]
      cases kept : EventStore.recordEvent (.ofReport r f.project f.group.id) f.now t₁ with
      | mk answer t' =>
        cases answer with
        | error e => exact .inl ⟨e, t', rfl⟩
        | ok recorded => exact .inr ⟨f, t₁, recorded.1, recorded.2, t', rfl, kept, rfl⟩

/-- A report that is processed was recorded, and every hook was shown the outcome. -/
theorem recorded_of_process {hooks : List Hook} {r : Report} {now : Instant} {t t' : τ}
    {o : Outcome} {shown : Trace} (made : process hooks r now t = (.ok o, t', shown)) :
    o.hookFailures = failures (fire hooks o.seen) ∧ shown = .ofCalls (fire hooks o.seen) ∧
    ∃ f t₁, resolve r now t = (.ok f, t₁) ∧
      EventStore.recordEvent (.ofReport r f.project f.group.id) f.now t₁ =
        (.ok (o.event, o.group), t') := by
  rcases process_cases hooks r now t with
    ⟨e, _, failed⟩ | ⟨f, t₁, event, counted, _, found, kept, done⟩
  · cases made.symm.trans failed
  · cases made.symm.trans done
    exact ⟨rfl, rfl, f, t₁, found, kept⟩

theorem shown_of_process_error {hooks : List Hook} {r : Report} {now : Instant} {t t' : τ}
    {e : StoreError} {shown : Trace} (made : process hooks r now t = (.error e, t', shown)) :
    shown = {} := by
  rcases process_cases hooks r now t with ⟨_, _, failed⟩ | ⟨_, _, _, _, _, -, -, done⟩
  · cases made.symm.trans failed
    rfl
  · cases made.symm.trans done

end

/-- In memory, hooks are shown the row that was added to the store, and the group as it stands there
    with the row counted. -/
theorem stored_of_process {hooks : List Hook} {r : Report} {now : Instant} {m m' : Memory}
    {o : Outcome} {shown : Trace} (made : process hooks r now m = (.ok o, m', shown)) :
    ∃ f m₁ g, resolve r now m = (.ok f, m₁) ∧ m'.events = m₁.events ++ [o.event] ∧
      m₁.groupById? o.group.id = some g ∧ o.group.timesSeen = g.timesSeen + 1 ∧
      m'.groupById? o.group.id = some o.group := by
  obtain ⟨-, -, f, m₁, found, kept⟩ := recorded_of_process made
  generalize NewEvent.ofReport r f.project f.group.id = e at kept
  change m₁.recordEvent e f.now = _ at kept
  rcases m₁.recordEvent_cases e f.now with
    ⟨-, call⟩ | ⟨_, -, -, call⟩ | ⟨g, total, count, inside, -, call⟩
  · cases kept.symm.trans call
  · cases kept.symm.trans call
  · obtain ⟨answer, rfl⟩ := Prod.mk.inj (kept.symm.trans call)
    obtain ⟨row, group⟩ := Prod.mk.inj (Except.ok.inj answer)
    have id : o.group.id = e.group := by
      rw [group, Group.counted_id]
      exact Memory.id_of_groupById? inside
    refine ⟨f, m₁, g, found, ?_, id ▸ inside, ?_, ?_⟩
    · rw [row]
      rfl
    · rw [group, Group.counted_timesSeen]
    · rw [Memory.groupById?_recorded inside, if_pos id, group]

/-! ## Attempts with and without hooks -/

theorem isOfHook_of_judge {q : EventQueue} {m : Queue.Message} {warning : LogRecord}
    (parked : q.judge m = .park warning) : warning.isOfHook = false := by
  unfold EventQueue.judge at parked
  split at parked
  · cases parked
    rfl
  · split at parked
    · cases parked
    · cases parked
      rfl

variable {σ τ : Type} [QueueBackend σ]

/-- A pop says nothing about hooks. -/
theorem isOfHook_step_pop (q : EventQueue) (now : Reading) (p : Pop) (s : σ) :
    ∀ record ∈ (p.step q now s).2.2, record.isOfHook = false := by
  cases p with
  | receiving =>
    simp only [Pop.step]
    rcases QueueBackend.receive now q.name q.timeout s with ⟨e | _ | m, s'⟩
    · simp
    · simp
    · cases verdict : q.judge m with
      | deliver event => simp [verdict]
      | park warning => simp [verdict, isOfHook_of_judge verdict]
  | parking m =>
    simp only [Pop.step]
    rcases QueueBackend.deadLetter now q.name m.id q.deadName s with ⟨e | _, s'⟩ <;> simp

theorem unwatched_step_pop (q : EventQueue) (now : Reading) (p : Pop) (s : σ) :
    Trace.unwatched { logs := (p.step q now s).2.2 } = { logs := (p.step q now s).2.2 } := by
  rw [Trace.unwatched, List.filter_eq_self.2 fun record member => by
    rw [isOfHook_step_pop q now p s record member, Bool.not_false]]

/-- The result of an attempt as if no hook had been called. -/
def unwatchedResult (result : Attempted) : Attempted := result.map (Option.map Outcome.unwatched)

namespace Attempt

/-- The attempt as if no hook had been called. -/
def unwatched : Attempt → Attempt
  | .acking d o => .acking d o.unwatched
  | a => a

/-- What a step leads to as if no hook had been called. -/
def unwatchedProgress : Progress Attempt Attempted → Progress Attempt Attempted
  | .more next => .more next.unwatched
  | .done result => .done (unwatchedResult result)

variable [EventStore τ]

/-- A step with hooks is the step without them in all that hooks do not leave behind. -/
theorem step_unwatched (q : EventQueue) (hooks : List Hook) (now : Reading) (a : Attempt) (s : σ)
    (t : τ) :
    a.unwatched.step q [] now s t = (unwatchedProgress (a.step q hooks now s t).1,
      (a.step q hooks now s t).2.1, (a.step q hooks now s t).2.2.1,
      (a.step q hooks now s t).2.2.2.unwatched) := by
  cases a with
  | popping p =>
    simp only [unwatched, step, unwatched_step_pop]
    rcases p.step q now s with ⟨next | ⟨e | _ | d⟩, s', logs⟩ <;> rfl
  | grouping d =>
    simp only [unwatched, step]
    rcases resolve d.event now.wall t with ⟨e | f, t'⟩ <;> rfl
  | recording d f =>
    simp only [unwatched, step, record_unwatched hooks]
    rcases record hooks d.event f t with ⟨e | o, t', shown⟩ <;> rfl
  | acking d o =>
    simp only [unwatched, step]
    rcases d.ack s with ⟨e | _, s'⟩ <;> rfl

/-- The call of the queue that an attempt makes next, if its next call is one of the queue. -/
def command? (q : EventQueue) : Attempt → Option Command
  | .popping p => some (p.command q)
  | .acking d _ => some (.ack d.queue d.id)
  | _ => none

/-- The calls of the queue that an attempt makes from where it stands up to its end. -/
def calls (q : EventQueue) (hooks : List Hook) (now : Reading) (a : Attempt) (s : σ) (t : τ) :
    List Command :=
  match _h : a.step q hooks now s t with
  | (.done _, _, _, _) => (a.command? q).toList
  | (.more next, s, t, _) => (a.command? q).toList ++ next.calls q hooks now s t
termination_by (QueueBackend.backlog q.name s, a.rank)
decreasing_by exact step_decreases _h

section

variable {q : EventQueue} {hooks : List Hook} {now : Reading} {a next : Attempt} {s s' : σ}
  {t t' : τ} {result : Attempted} {shown : Trace}

theorem finish_done (made : a.step q hooks now s t = (.done result, s', t', shown)) :
    a.finish q hooks now s t = (result, s', t', shown) := by
  rw [finish]
  split
  · next other =>
    rw [made] at other
    cases other
    rfl
  · next other =>
    rw [made] at other
    cases other

theorem finish_more (made : a.step q hooks now s t = (.more next, s', t', shown)) :
    a.finish q hooks now s t = ((next.finish q hooks now s' t').1,
      (next.finish q hooks now s' t').2.1, (next.finish q hooks now s' t').2.2.1,
      shown ++ (next.finish q hooks now s' t').2.2.2) := by
  rw [finish]
  split
  · next other =>
    rw [made] at other
    cases other
  · next other =>
    rw [made] at other
    cases other
    rfl

theorem calls_done (made : a.step q hooks now s t = (.done result, s', t', shown)) :
    a.calls q hooks now s t = (a.command? q).toList := by
  rw [calls]
  split
  · rfl
  · next other =>
    rw [made] at other
    cases other

theorem calls_more (made : a.step q hooks now s t = (.more next, s', t', shown)) :
    a.calls q hooks now s t = (a.command? q).toList ++ next.calls q hooks now s' t' := by
  rw [calls]
  split
  · next other =>
    rw [made] at other
    cases other
  · next other =>
    rw [made] at other
    cases other
    rfl

end

theorem command?_unwatched (q : EventQueue) (a : Attempt) :
    a.unwatched.command? q = a.command? q := by
  cases a <;> rfl

/-- A whole attempt with hooks is the attempt without them in all that hooks do not leave behind. -/
theorem finish_unwatched (q : EventQueue) (hooks : List Hook) (now : Reading) (a : Attempt) (s : σ)
    (t : τ) :
    a.unwatched.finish q [] now s t = (unwatchedResult (a.finish q hooks now s t).1,
      (a.finish q hooks now s t).2.1, (a.finish q hooks now s t).2.2.1,
      (a.finish q hooks now s t).2.2.2.unwatched) ∧
    a.unwatched.calls q [] now s t = a.calls q hooks now s t := by
  fun_induction Attempt.finish q hooks now a s t with
  | case1 a s t result s' t' shown made =>
    have step := step_unwatched q hooks now a s t
    rw [made] at step
    rw [finish_done step, calls_done step, calls_done made, command?_unwatched]
    exact ⟨rfl, rfl⟩
  | case2 a s t next s' t' shown made result last kept more rest ih =>
    have step := step_unwatched q hooks now a s t
    rw [made] at step
    obtain ⟨same, sameCalls⟩ := ih
    rw [rest] at same
    rw [finish_more step, calls_more step, calls_more made, command?_unwatched, same, sameCalls,
      Trace.unwatched_append]
    exact ⟨rfl, rfl⟩

theorem calls_acking (q : EventQueue) (hooks : List Hook) (now : Reading) (d : Delivery)
    (o : Outcome) (s : σ) (t : τ) :
    (acking d o).calls q hooks now s t = [.ack d.queue d.id] := by
  cases acked : d.ack s with
  | mk answer s' =>
    cases answer with
    | error e =>
      have failed : (acking d o).step q hooks now s t =
          (.done (.error (.transport e)), s', t, {}) := by
        simp only [step, acked]
      exact calls_done failed
    | ok _ =>
      have done : (acking d o).step q hooks now s t = (.done (.ok (some o)), s', t, {}) := by
        simp only [step, acked]
      exact calls_done done

/-- A report whose group is found is acknowledged exactly if it is recorded. -/
theorem calls_recording (q : EventQueue) (hooks : List Hook) (now : Reading) (d : Delivery)
    (f : Found) (s : σ) (t : τ) :
    (recording d f).calls q hooks now s t =
      if (record hooks d.event f t).1.isOk then [.ack d.queue d.id] else [] := by
  cases kept : record hooks d.event f t with
  | mk answer rest =>
    cases answer with
    | error e =>
      have failed : (recording d f).step q hooks now s t =
          (.done (.error (.store e)), s, rest.1, rest.2) := by
        simp only [step, kept]
      rw [calls_done failed]
      rfl
    | ok o =>
      have recorded : (recording d f).step q hooks now s t =
          (.more (.acking d o), s, rest.1, rest.2) := by
        simp only [step, kept]
      rw [calls_more recorded, calls_acking]
      rfl

/-- A report that was delivered is acknowledged exactly if it is processed. -/
theorem calls_grouping (q : EventQueue) (hooks : List Hook) (now : Reading) (d : Delivery) (s : σ)
    (t : τ) :
    (grouping d).calls q hooks now s t =
      if (process hooks d.event now.wall t).1.isOk then [.ack d.queue d.id] else [] := by
  cases found : resolve d.event now.wall t with
  | mk answer t₁ =>
    cases answer with
    | error e =>
      have failed : (grouping d).step q hooks now s t =
          (.done (.error (.store e)), s, t₁, {}) := by
        simp only [step, found]
      rw [calls_done failed, process, found]
      rfl
    | ok f =>
      have grouped : (grouping d).step q hooks now s t =
          (.more (.recording d f), s, t₁, {}) := by
        simp only [step, found]
      rw [calls_more grouped, calls_recording, process, found]
      rfl

/-- The queue is called by the pop, and once more if its report is processed. -/
theorem calls_popping (q : EventQueue) (hooks : List Hook) (now : Reading) (p : Pop) (s : σ)
    (t : τ) :
    (popping p).calls q hooks now s t = p.calls q now s ++ match (p.finish q now s).1 with
      | .ok (some d) =>
        if (process hooks d.event now.wall t).1.isOk then [.ack d.queue d.id] else []
      | _ => [] := by
  fun_induction Pop.finish q now p s with
  | case1 p s result s' logs made =>
    rw [Pop.calls_done made]
    have popped : (popping p).step q hooks now s t = (afterPop (.done result), s', t, { logs }) := by
      simp only [step, made]
    rcases result with e | _ | d
    · exact calls_done popped
    · exact calls_done popped
    · rw [calls_more popped, calls_grouping]
      rfl
  | case2 p s next s' logs made result last more rest ih =>
    have popped : (popping p).step q hooks now s t = (.more (.popping next), s', t, { logs }) := by
      simp only [step, made]
      rfl
    rw [calls_more popped, ih, Pop.calls_more made, rest]
    rfl

end Attempt

/-- Hooks only watch.  Whatever hooks there are, processing a report changes the store as without
    them and gives the same but for the number of panics, and an attempt makes the same calls of the
    queue: it acknowledges its message exactly if the report is processed.  Every hook is called
    once, in order, with the recorded row and the group with that row counted; every panic counts and
    is told in a record of its own.  Without a recorded row no hook is called. -/
theorem hooks_only_watch {σ τ : Type} [QueueBackend σ] [EventStore τ] (q : EventQueue)
    (hooks : List Hook) (r : Report) (now : Reading) (s : σ) (t : τ) :
    ((process [] r now.wall t).1 = (process hooks r now.wall t).1.map Outcome.unwatched ∧
      (process [] r now.wall t).2.1 = (process hooks r now.wall t).2.1) ∧
    ((runOnce q [] now s t).1 = unwatchedResult (runOnce q hooks now s t).1 ∧
      (runOnce q [] now s t).2.1 = (runOnce q hooks now s t).2.1 ∧
      (runOnce q [] now s t).2.2.1 = (runOnce q hooks now s t).2.2.1 ∧
      (runOnce q [] now s t).2.2.2 = (runOnce q hooks now s t).2.2.2.unwatched) ∧
    Attempt.start.calls q [] now s t = Attempt.start.calls q hooks now s t ∧
    (Attempt.start.calls q hooks now s t =
      Pop.receiving.calls q now s ++ match (q.pop now s).1 with
        | .ok (some d) =>
          if (process hooks d.event now.wall t).1.isOk then [.ack d.queue d.id] else []
        | _ => []) ∧
    (∀ o t' shown, process hooks r now.wall t = (.ok o, t', shown) →
      shown.calls = hooks.map (Hook.call · o.seen) ∧
      o.hookFailures = hooks.countP (fun h => (h.panic? o.seen).isSome) ∧
      shown.logs = hooks.filterMap (fun h => (h.panic? o.seen).map fun panic =>
        .hookPanicked h.name o.event.eventId o.group.id panic.message) ∧
      (∀ record ∈ shown.logs, record.severity = .error) ∧
      ∃ f t₁, resolve r now.wall t = (.ok f, t₁) ∧
        EventStore.recordEvent (.ofReport r f.project f.group.id) f.now t₁ =
          (.ok (o.event, o.group), t')) ∧
    (∀ e t' shown, process hooks r now.wall t = (.error e, t', shown) →
      shown.calls = [] ∧ shown.logs = []) ∧
    ∀ (m m' : Memory) o shown, process hooks r now.wall m = (.ok o, m', shown) →
      ∃ f m₁ g, resolve r now.wall m = (.ok f, m₁) ∧ m'.events = m₁.events ++ [o.event] ∧
        m₁.groupById? o.group.id = some g ∧ o.group.timesSeen = g.timesSeen + 1 ∧
        m'.groupById? o.group.id = some o.group := by
  have attempt := Attempt.finish_unwatched q hooks now .start s t
  refine ⟨?_, ?_, attempt.2, Attempt.calls_popping q hooks now .receiving s t, ?_, ?_,
    fun m m' o shown => stored_of_process⟩
  · rw [process_unwatched hooks]
    exact ⟨rfl, rfl⟩
  · have same : runOnce q [] now s t = _ := attempt.1
    rw [same]
    exact ⟨rfl, rfl, rfl, rfl⟩
  · intro o t' shown made
    obtain ⟨failures, rfl, recorded⟩ := recorded_of_process made
    refine ⟨rfl, failures.trans (failures_fire hooks o.seen), logs_fire hooks o.seen, ?_, recorded⟩
    rw [logs_fire]
    intro record member
    obtain ⟨h, -, told⟩ := List.mem_filterMap.1 member
    obtain ⟨panic, -, rfl⟩ := Option.map_eq_some_iff.1 told
    rfl
  · intro e t' shown made
    rw [shown_of_process_error made]
    exact ⟨rfl, rfl⟩

/-- A hook that always panics. -/
def loudHook : Hook := ⟨"loud", fun _ => .panicked .opaqueValue⟩

/-- A hook that never panics. -/
def calmHook : Hook := ⟨"calm", fun _ => .returned⟩

theorem hooks_only_watch_loudHook :
    ∃ o m' shown,
      process [loudHook, calmHook] Report.plain .epoch Memory.empty = (.ok o, m', shown) ∧
      (process [] Report.plain .epoch Memory.empty).2.1 = m' ∧
      shown.calls.map HookCall.hook = ["loud", "calm"] ∧ o.hookFailures = 1 ∧
      shown.logs = [.hookPanicked "loud" o.event.eventId o.group.id "non-string panic payload"] := by
  obtain ⟨⟨-, stored⟩, -, -, -, shows, -⟩ := hooks_only_watch (.ofSettings {})
    [loudHook, calmHook] Report.plain (.atEpoch 0) Queue.Broker.empty Memory.empty
  obtain ⟨calls, failures, logs, -⟩ := shows _ _ _ rfl
  exact ⟨_, _, _, rfl, stored, congrArg (List.map HookCall.hook) calls, failures, logs⟩

end Worker

end ErrorIntake
