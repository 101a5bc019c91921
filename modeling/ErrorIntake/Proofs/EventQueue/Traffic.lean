import ErrorIntake.EventQueue.Pop
import ErrorIntake.Proofs.Queue.History

/-!
# An event queue in use

The calls of one event queue come one after the other, and a pop makes its calls of the broker one
by one, each at a time of its own.  Nothing is asked of these times, so claims may expire at any
moment, and a delivery that is dropped is one that nothing is done with.  Others may use the other
queues of the broker between any two calls, and publish what they like.

Beside the broker a `Traffic` keeps what happened so far.  The lemmas say what each call of a pop
leads to, and what any call does to the messages that stand on the queue.
-/

namespace ErrorIntake

open Calendar (Reading)
open Queue (Broker Command History Message QueueBackend Slot)

namespace Queue.Command

/-- The queue whose messages a call claims or changes. -/
def source? : Command → Option String
  | .publish _ _ => none
  | .receive queue _ => some queue
  | .ack queue _ => some queue
  | .nack queue _ => some queue
  | .deadLetter queue _ _ => some queue

/-- A call that others may make: it neither claims nor changes a message on the queue, and moves none
    to it. -/
def Spares (queue : String) (c : Command) : Prop :=
  c.source? ≠ some queue ∧ ∀ other id dead, c = .deadLetter other id dead → dead ≠ queue

/-- The call claims no message on the queue, and moves none to it. -/
def ClaimsNone (queue : String) : Command → Prop
  | .receive other _ => other ≠ queue
  | .deadLetter _ _ dead => dead ≠ queue
  | _ => True

theorem Spares.claimsNone {c : Command} {queue : String} (h : c.Spares queue) :
    c.ClaimsNone queue := by
  cases c with
  | receive other timeout => exact fun same => h.1 (congrArg some same)
  | deadLetter other id dead => exact h.2 other id dead rfl
  | _ => trivial

end Queue.Command

namespace Queue.Broker

variable {b b' : Broker} {now : Reading} {c : Command} {answer : Except QueueError Answer}
  {queue : String} {id : MessageId} {s : Slot}

/-- A call that claims nothing from a queue leaves to the messages on it the attempts that they have,
    and gives none to a new message. -/
theorem Effect.attempt_of_claimsNone (made : Effect b now c answer b') (quiet : c.ClaimsNone queue)
    (found : b'.slot? id = some s) (on : s.queue = queue) :
    (∃ s₀, b.slot? id = some s₀ ∧ s₀.queue = queue ∧ s₀.attempt = s.attempt) ∨
      id = b.nextId ∧ s.attempt = 0 := by
  cases made with
  | publish other payload =>
    rw [slot?_publish] at found
    split at found
    · next new =>
      cases found
      exact .inr ⟨new, rfl⟩
    · exact .inl ⟨s, found, on, rfl⟩
  | idle => exact .inl ⟨s, found, on, rfl⟩
  | overflow => exact .inl ⟨s, found, on, rfl⟩
  | claim other timeout t there available least =>
    rw [slot?_change_of_found there (Slot.claimed _) fun _ => rfl] at found
    split at found
    · cases found
      have elsewhere : t.queue ≠ queue := (Slot.isAvailable_iff.1 available).1 ▸ quiet
      exact absurd on elsewhere
    · exact .inl ⟨s, found, on, rfl⟩
  | ack t there =>
    rw [slot?_remove] at found
    split at found
    · cases found
    · exact .inl ⟨s, found, on, rfl⟩
  | nack t there =>
    rw [slot?_change_of_found there (Slot.released _) fun _ => rfl] at found
    split at found
    · next same =>
      cases found
      exact .inl ⟨t, same ▸ there, on, rfl⟩
    · exact .inl ⟨s, found, on, rfl⟩
  | deadLetter t there dead =>
    rw [slot?_change_of_found there (Slot.moved dead _) fun _ => rfl] at found
    split at found
    · cases found
      exact absurd on quiet
    · exact .inl ⟨s, found, on, rfl⟩
  | refuse => exact .inl ⟨s, found, on, rfl⟩

/-- A call leaves alone what stands on other queues than its own. -/
theorem Effect.slot?_of_off (made : Effect b now c answer b') (old : id ≠ b.nextId)
    (off : ∀ s, b.slot? id = some s → c.source? ≠ some s.queue) : b'.slot? id = b.slot? id := by
  have apart : ∀ t : Slot, b.slot? t.id = some t → c.source? = some t.queue → id ≠ t.id := by
    rintro t there on rfl
    exact off t there on
  cases made with
  | publish other payload => rw [slot?_publish, if_neg old]
  | idle => rfl
  | overflow => rfl
  | claim other timeout t there available least =>
    have on : some other = some t.queue := congrArg some (Slot.isAvailable_iff.1 available).1.symm
    rw [slot?_change_of_found there (Slot.claimed _) fun _ => rfl, if_neg (apart t there on)]
  | ack t there => rw [slot?_remove, if_neg (apart t there rfl)]
  | nack t there =>
    rw [slot?_change_of_found there (Slot.released _) fun _ => rfl, if_neg (apart t there rfl)]
  | deadLetter t there dead =>
    rw [slot?_change_of_found there (Slot.moved dead _) fun _ => rfl, if_neg (apart t there rfl)]
  | refuse => rfl

end Queue.Broker

/-- The call of the broker that a pop makes next. -/
def Pop.command (q : EventQueue) : Pop → Command
  | .receiving => .receive q.name q.timeout
  | .parking m => .deadLetter q.name m.id q.deadName

namespace EventQueue

/-- A claimed message is parked if it was tried too often or holds no report, and else delivered. -/
theorem judge_cases (q : EventQueue) (m : Message) :
    (∃ warning, q.judge m = .park warning ∧
      (q.maxAttempts < m.attempt ∨ decode? m.payload = none)) ∨
    (∃ event, q.judge m = .deliver event ∧ ¬ q.maxAttempts < m.attempt ∧
      decode? m.payload = some event) := by
  unfold judge
  split
  · next exhausted => exact .inl ⟨_, rfl, .inl exhausted⟩
  · next allowed =>
    cases holds : decode? m.payload with
    | none => exact .inl ⟨_, rfl, .inr rfl⟩
    | some event => exact .inr ⟨event, rfl, allowed, rfl⟩

/-- A broker, the pop that runs, and what happened so far. -/
structure Traffic where
  broker : Broker
  /-- The calls of the broker, the oldest first. -/
  history : History
  /-- Where the pop stands, while one runs. -/
  pop : Option Pop
  /-- What pops delivered, the oldest first. -/
  delivered : List Delivery
  /-- What pops parked, the oldest first. -/
  parked : List MessageId

namespace Traffic

/-- Nothing was published yet. -/
def start : Traffic where
  broker := .empty
  history := []
  pop := none
  delivered := []
  parked := []

/-- The history with one more call. -/
def noted (t : Traffic) (now : Reading) (c : Command) : History :=
  t.history ++ [⟨now, c, (t.broker.perform now c).1⟩]

/-- Somebody calls the broker. -/
def call (now : Reading) (c : Command) (t : Traffic) : Traffic :=
  { t with broker := (t.broker.perform now c).2, history := t.noted now c }

/-- A producer publishes a report. -/
def push (q : EventQueue) (now : Reading) (r : Report) (t : Traffic) : Traffic :=
  { t with
    broker := (q.push now r t.broker).2
    history := t.noted now (.publish q.name (q.payload r)) }

/-- A consumer begins a pop. -/
def begin (t : Traffic) : Traffic := { t with pop := some .receiving }

/-- The pop after a call, if the call did not end it. -/
def nextOf : Progress Pop Popped → Option Pop
  | .more p => some p
  | .done _ => none

/-- What a call of a pop delivers. -/
def deliveredBy : Progress Pop Popped → List Delivery
  | .done (.ok (some d)) => [d]
  | _ => []

/-- What a call of a pop parks. -/
def parkedBy : Pop → Progress Pop Popped → List MessageId
  | .parking m, .more _ => [m.id]
  | _, _ => []

/-- The pop makes its next call. -/
def advance (q : EventQueue) (now : Reading) (p : Pop) (t : Traffic) : Traffic :=
  let (led, broker, _) := p.step q now t.broker
  { broker
    history := t.noted now (p.command q)
    pop := nextOf led
    delivered := t.delivered ++ deliveredBy led
    parked := t.parked ++ parkedBy p led }

/-- A delivery is acknowledged. -/
def ack (now : Reading) (d : Delivery) (t : Traffic) : Traffic :=
  { t with broker := (d.ack t.broker).2, history := t.noted now (.ack d.queue d.id) }

/-- A delivery is given back. -/
def nack (now : Reading) (d : Delivery) (t : Traffic) : Traffic :=
  { t with broker := (d.nack now t.broker).2, history := t.noted now (.nack d.queue d.id) }

theorem push_eq_call (q : EventQueue) (now : Reading) (r : Report) (t : Traffic) :
    t.push q now r = t.call now (.publish q.name (q.payload r)) := rfl

theorem ack_eq_call (now : Reading) (d : Delivery) (t : Traffic) :
    t.ack now d = t.call now (.ack d.queue d.id) := rfl

theorem nack_eq_call (now : Reading) (d : Delivery) (t : Traffic) :
    t.nack now d = t.call now (.nack d.queue d.id) := rfl

/-- One call of the queue.  While a pop runs, only the pop makes calls. -/
inductive Use (q : EventQueue) : Traffic → Traffic → Prop
  | push (t : Traffic) (now : Reading) (r : Report) (idle : t.pop = none) :
      Use q t (t.push q now r)
  | begin (t : Traffic) (idle : t.pop = none) : Use q t t.begin
  | advance (t : Traffic) (now : Reading) (p : Pop) (runs : t.pop = some p) :
      Use q t (t.advance q now p)
  /-- Any delivery may be acknowledged at any time, however old it is. -/
  | ack (t : Traffic) (now : Reading) (d : Delivery) (given : d ∈ t.delivered)
      (idle : t.pop = none) : Use q t (t.ack now d)
  | nack (t : Traffic) (now : Reading) (d : Delivery) (given : d ∈ t.delivered)
      (idle : t.pop = none) : Use q t (t.nack now d)

/-- One call of the queue, or of others. -/
inductive Step (q : EventQueue) : Traffic → Traffic → Prop
  | use {t t' : Traffic} (made : Use q t t') : Step q t t'
  | other (t : Traffic) (now : Reading) (c : Command) (spares : c.Spares q.name) :
      Step q t (t.call now c)

/-- A run of calls leads from the one to the other. -/
def Leads (q : EventQueue) : Traffic → Traffic → Prop := Relation.ReflTransGen (Step q)

/-- What comes of a broker that nothing was published to. -/
def Reachable (q : EventQueue) (t : Traffic) : Prop := Leads q start t

/-- The attempts that the deliveries of a message carry, the oldest first. -/
def attempts (t : Traffic) (id : MessageId) : List Nat :=
  (t.delivered.filter fun d => d.id = id).map fun d => d.attempt.toNat

/-! ## What a call of a pop leads to -/

variable {q : EventQueue} {t : Traffic} {now : Reading} {b : Broker} {m : Message}

theorem advance_broker (q : EventQueue) (now : Reading) (p : Pop) (t : Traffic) :
    (t.advance q now p).broker = (t.broker.perform now (p.command q)).2 := by
  cases p with
  | receiving =>
    simp only [advance, Pop.step, Pop.command, Broker.perform, QueueBackend.receive]
    cases (t.broker.receive now q.name q.timeout).1 with
    | error e => rfl
    | ok claim =>
      cases claim with
      | none => rfl
      | some m =>
        dsimp only
        cases q.judge m <;> rfl
  | parking m =>
    simp only [advance, Pop.step, Pop.command, Broker.perform, QueueBackend.deadLetter]
    cases (t.broker.deadLetter now q.name m.id q.deadName).1 <;> rfl

/-- A claim that takes no message ends the pop, whether it fails or not. -/
theorem advance_nothing {claim : Except QueueError (Option Message)}
    (made : t.broker.receive now q.name q.timeout = (claim, b))
    (nothing : ∀ m, claim ≠ .ok (some m)) :
    t.advance q now .receiving =
      { t with broker := b, history := t.noted now (.receive q.name q.timeout), pop := none } := by
  rcases claim with e | _ | m
  case ok.some => exact absurd rfl (nothing m)
  all_goals
    simp only [advance, Pop.step, QueueBackend.receive, made, nextOf, deliveredBy, parkedBy,
      List.append_nil]
    rfl

theorem advance_delivers {event : Report}
    (made : t.broker.receive now q.name q.timeout = (.ok (some m), b))
    (judged : q.judge m = .deliver event) :
    t.advance q now .receiving =
      { t with
        broker := b, history := t.noted now (.receive q.name q.timeout), pop := none,
        delivered := t.delivered ++ [q.delivery m event] } := by
  simp only [advance, Pop.step, QueueBackend.receive, made, judged, nextOf, deliveredBy, parkedBy,
    List.append_nil]
  rfl

theorem advance_condemns {warning : LogRecord}
    (made : t.broker.receive now q.name q.timeout = (.ok (some m), b))
    (judged : q.judge m = .park warning) :
    t.advance q now .receiving =
      { t with
        broker := b, history := t.noted now (.receive q.name q.timeout),
        pop := some (.parking m) } := by
  simp only [advance, Pop.step, QueueBackend.receive, made, judged, nextOf, deliveredBy, parkedBy,
    List.append_nil]
  rfl

theorem advance_parks (made : t.broker.deadLetter now q.name m.id q.deadName = (.ok (), b)) :
    t.advance q now (.parking m) =
      { t with
        broker := b, history := t.noted now (.deadLetter q.name m.id q.deadName),
        pop := some .receiving, parked := t.parked ++ [m.id] } := by
  simp only [advance, Pop.step, QueueBackend.deadLetter, made, nextOf, deliveredBy, parkedBy,
    List.append_nil]
  rfl

/-- A pop made at one time is a run of its calls. -/
theorem finish_leads (q : EventQueue) (now : Reading) (p : Pop) (b : Broker) (t : Traffic)
    (here : t.broker = b) (runs : t.pop = some p) :
    ∃ t', Leads q t t' ∧ t'.pop = none ∧ t'.broker = (p.finish q now b).2.1 ∧
      t'.delivered = t.delivered ++ deliveredBy (.done (p.finish q now b).1) := by
  fun_induction Pop.finish q now p b generalizing t with
  | case1 p b result after logs made =>
    subst here
    refine ⟨t.advance q now p, .single (.use (.advance t now p runs)), ?_⟩
    simp only [advance, made, nextOf, true_and]
  | case2 p b next after logs made result last more rest ih =>
    subst here
    have led : (t.advance q now p).broker = after := by simp only [advance, made]
    have runs' : (t.advance q now p).pop = some next := by simp only [advance, made, nextOf]
    have nothing : (t.advance q now p).delivered = t.delivered := by
      simp only [advance, made, deliveredBy, List.append_nil]
    obtain ⟨t', run, ended⟩ := ih (t.advance q now p) led runs'
    rw [rest, nothing] at ended
    exact ⟨t', .head (.use (.advance t now p runs)) run, ended⟩

theorem pop_leads (q : EventQueue) (now : Reading) (t : Traffic) (idle : t.pop = none) :
    ∃ t', Leads q t t' ∧ t'.pop = none ∧ t'.broker = (q.pop now t.broker).2.1 ∧
      t'.delivered = t.delivered ++ deliveredBy (.done (q.pop now t.broker).1) := by
  obtain ⟨t', run, ended⟩ := finish_leads q now .receiving t.broker t.begin rfl rfl
  exact ⟨t', .head (.use (.begin t idle)) run, ended⟩

end Traffic

end EventQueue

end ErrorIntake
