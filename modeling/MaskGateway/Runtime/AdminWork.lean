import MaskGateway.Lib.Machine

/-!
# `MaskGateway.Runtime.AdminWork`: the queue of administrative jobs

`AdminWorkQueue` (`runtime/admin_work.py`). `submit` accepts a ticket or refuses it in one section of
the lock of the queue. A fixed set of worker threads takes the tickets in order:

    serving  →  running a job  →  finishing  →  calling back  →  serving
                     ↓ raises        ↑
                 containing (`on_unknown`)

A job that raises leaves an unknown state behind: the queue is `broken`, and while `on_unknown`
contains the failure nothing is dispatched. When the containment fails the queue is `frozen`, and the
tickets that it still has complete without being run. `drain` waits for the workers and says whether
everything is settled.

`Machine` runs the workers, one call of `start` and any number of calls of `drain` by their sections.
What a job returns or raises, what a callback does, and whether a thread starts is part of the event.
The composition root calls `start` once, and drains only after it has returned or raised. A ticket is
named by the number of its `submit`. `Machine.accepted` and the fields after it are not in the code:
they list what has happened.
-/

set_option autoImplicit false

namespace MaskGateway.Runtime.AdminWork

abbrev TicketId := Nat

abbrev WorkerId := Nat

/-- One call of `drain`. -/
abbrev DrainId := Nat

inductive TicketState where
  | queued
  | running
  | done
  deriving DecidableEq

/-- `WorkTicket`. -/
structure WorkTicket (ρ : Type) where
  /-- `_job`, `_notify` and `_abandon` are there, and were not let go of -/
  job : Bool := true
  notify : Bool
  abandon : Bool
  state : TicketState := .queued
  result : Option ρ := none
  failed : Bool := false

/-- The ownership of a worker thread. -/
inductive Ownership where
  | idle
  | starting
  | started
  deriving DecidableEq

/-- Where the thread of a worker is. -/
inductive Pc (ρ : Type) where
  | unborn
  /-- before the section of `_worker_main` -/
  | entering
  /-- before the section of `_serve` that takes a ticket -/
  | serving
  | running (ticket : TicketId) (job : Bool)
  /-- in `_contain`, before its section -/
  | containing (ticket : TicketId)
  /-- before the section that completes the ticket -/
  | finishing (ticket : TicketId) (skipped failed : Bool) (result : Option ρ)
  /-- The ticket is complete, and these callbacks are still to be called. -/
  | calling (ticket : TicketId) (abandon notify : Bool)
  /-- the `finally` of `_worker_main` -/
  | leaving
  | ending
  | exited
  deriving DecidableEq

/-- `_Worker`, with its thread. -/
structure Worker (ρ : Type) where
  state : Ownership := .idle
  ran : Bool := false
  cancelled : Bool := false
  done : Bool := false
  pc : Pc ρ := .unborn

namespace Worker

variable {ρ : Type}

/-- `joinable`. -/
def joinable (w : Worker ρ) : Bool :=
  w.state = .started ∨ w.ran = true ∨ w.done = true

/-- The section of `settled`. -/
def cancel (w : Worker ρ) : Worker ρ :=
  if w.ran = false ∧ w.state ≠ .started then { w with cancelled := true } else w

/-- The thread, once begun, is gone. -/
def ended (w : Worker ρ) : Bool :=
  match w.pc with
  | .exited => true
  | _ => false

end Worker

/-- Where `start` is. -/
inductive Starting where
  | before
  | attempting (worker : WorkerId)
  | calling (worker : WorkerId)
  | confirming (worker : WorkerId)
  | finished
  deriving DecidableEq

/-- Where a call of `drain` is. -/
inductive Drain where
  | idle
  | settling (worker : WorkerId)
  | testing (worker : WorkerId)
  | joining (worker : WorkerId)
  | checking (worker : WorkerId) (settled : Bool)
  /-- `settled`, after its section -/
  | looking (worker : WorkerId) (settled : Bool)
  | returned (drained : Bool)
  deriving DecidableEq

/-- The queue and its threads. -/
structure Machine (ρ : Type) where
  waiting : Nat
  /-- `_on_unknown` is not `None` -/
  onUnknown : Bool
  pending : List TicketId := []
  tickets : List TicketId := []
  closing : Bool := false
  stopping : Bool := false
  broken : Bool := false
  containing : Bool := false
  frozen : Bool := false
  ticket : TicketId → WorkTicket ρ := fun _ => { notify := false, abandon := false }
  workers : List (Worker ρ)
  starting : Starting := .before
  drains : DrainId → Drain := fun _ => .idle
  submissions : Nat := 0
  accepted : List TicketId := []
  refused : List TicketId := []
  /-- accepted with a notifier -/
  wanted : List TicketId := []
  taken : List TicketId := []
  /-- taken to be run -/
  started : List TicketId := []
  skipped : List TicketId := []
  completed : List TicketId := []
  abandoned : List TicketId := []
  notified : List TicketId := []
  /-- The job raised. -/
  failures : List TicketId := []
  /-- The containment of the failure was successful. -/
  contained : List TicketId := []

/-- What `thread.start()` does. -/
inductive ThreadStart where
  | begun
  /-- It raises; a thread that was created runs nonetheless. -/
  | raised (created : Bool)

/-- What a callback does. -/
inductive Outcome where
  | returned
  | raised
  /-- It raises what is not an `Exception`. -/
  | interrupted
  deriving DecidableEq

/-- A step of `start`. -/
inductive StartEvent where
  | begin
  | attempt
  | threadStart (outcome : ThreadStart)
  | confirm

/-- A step of a worker thread. -/
inductive WorkerEvent (ρ : Type) where
  | enter
  | take
  | returned (result : ρ)
  | raised
  | contain (outcome : Outcome)
  | complete
  | abandon (outcome : Outcome)
  | notify (outcome : Outcome)
  | done
  | exit

/-- What happens next. -/
inductive Event (ρ : Type) where
  /-- Registering, queueing or waking may raise. -/
  | submit (notify abandon raises : Bool)
  | closeAdmission
  | start (event : StartEvent)
  | worker (worker : WorkerId) (event : WorkerEvent ρ)
  | drain (call : DrainId)
  | advance (call : DrainId)

namespace Machine

variable {ρ : Type}

/-- `AdminWorkQueue.__init__`. -/
def init (ρ : Type) (workers waiting : Nat) (onUnknown : Bool) : Machine ρ :=
  { waiting, onUnknown, workers := List.replicate workers {} }

def capacity (m : Machine ρ) : Nat := m.workers.length + m.waiting

/-- The worker becomes another. -/
def put (m : Machine ρ) (i : WorkerId) (w : Worker ρ) : Machine ρ :=
  { m with workers := m.workers.set i w }

/-- `submit`. What a section that raises has done is undone. -/
def submit (m : Machine ρ) (notify abandon raises : Bool) : Machine ρ :=
  let id := m.submissions
  if m.closing = true ∨ m.broken = true ∨ m.tickets.length ≥ m.capacity ∨ raises = true then
    { m with submissions := id + 1, refused := m.refused ++ [id] }
  else
    { m with
      submissions := id + 1
      ticket := Function.update m.ticket id { notify, abandon }
      tickets := m.tickets ++ [id]
      pending := m.pending ++ [id]
      accepted := m.accepted ++ [id]
      wanted := if notify then m.wanted ++ [id] else m.wanted }

/-- The section of `_serve` that takes a ticket. `none` is `wait`. -/
def take (m : Machine ρ) (i : WorkerId) (w : Worker ρ) : Option (Machine ρ) :=
  if m.containing = true ∨ (m.pending = [] ∧ m.stopping = false) then none
  else
    match m.pending with
    | [] => some (m.put i { w with pc := .leaving })
    | id :: pending =>
        let ticket := m.ticket id
        let m := { m with
          pending := pending, taken := m.taken ++ [id]
          ticket := Function.update m.ticket id { ticket with state := .running, job := false } }
        if m.frozen then
          some { m.put i { w with pc := .finishing id true true none } with
            skipped := m.skipped ++ [id] }
        else
          some { m.put i { w with pc := .running id ticket.job } with
            started := m.started ++ [id] }

/-- Where the thread goes with these callbacks to call. -/
def calls (id : TicketId) (abandon notify : Bool) : Pc ρ :=
  if abandon || notify then .calling id abandon notify else .serving

/-- The section that completes a ticket. -/
def complete (m : Machine ρ) (i : WorkerId) (w : Worker ρ) (id : TicketId) (skipped failed : Bool)
    (result : Option ρ) : Machine ρ :=
  let ticket := m.ticket id
  { m.put i { w with pc := calls id (skipped && ticket.abandon) ticket.notify } with
    ticket := Function.update m.ticket id { ticket with
      result := if failed then none else result, failed := failed, state := .done
      notify := false, abandon := false }
    tickets := m.tickets.erase id
    completed := m.completed ++ [id] }

/-- `_contain`, with its section. -/
def contain (m : Machine ρ) (i : WorkerId) (w : Worker ρ) (id : TicketId) (outcome : Outcome) :
    Machine ρ :=
  let contained := m.onUnknown && decide (outcome = .returned)
  let escapes := m.onUnknown && decide (outcome = .interrupted)
  { m.put i { w with pc := if escapes then .leaving else .finishing id false true none } with
    frozen := m.frozen || !contained
    containing := false
    contained := if contained then m.contained ++ [id] else m.contained }

/-- One step of a worker, where it can happen. -/
def workerStep (m : Machine ρ) (i : WorkerId) (w : Worker ρ) : WorkerEvent ρ → Option (Machine ρ)
  | .enter =>
      match w.pc with
      | .entering =>
          if w.cancelled then some (m.put i { w with pc := .leaving })
          else some (m.put i { w with ran := true, pc := .serving })
      | _ => none
  | .take =>
      match w.pc with
      | .serving => m.take i w
      | _ => none
  | .returned result =>
      match w.pc with
      | .running id job =>
          some (m.put i { w with
            pc := .finishing id false false (if job then some result else none) })
      | _ => none
  | .raised =>
      match w.pc with
      | .running id true =>
          some { m.put i { w with pc := .containing id } with
            broken := true, containing := true, failures := m.failures ++ [id] }
      | _ => none
  | .contain outcome =>
      match w.pc with
      | .containing id => some (m.contain i w id outcome)
      | _ => none
  | .complete =>
      match w.pc with
      | .finishing id skipped failed result => some (m.complete i w id skipped failed result)
      | _ => none
  | .abandon outcome =>
      match w.pc with
      | .calling id true notify =>
          some { m.put i { w with
              pc := if outcome = .interrupted then .leaving else calls id false notify } with
            abandoned := m.abandoned ++ [id] }
      | _ => none
  | .notify outcome =>
      match w.pc with
      | .calling id false true =>
          some { m.put i { w with
              pc := if outcome = .interrupted then .leaving else .serving } with
            notified := m.notified ++ [id] }
      | _ => none
  | .done =>
      match w.pc with
      | .leaving => some (m.put i { w with done := true, pc := .ending })
      | _ => none
  | .exit =>
      match w.pc with
      | .ending => some (m.put i { w with pc := .exited })
      | _ => none

/-- One step of `start`. -/
def startStep (m : Machine ρ) : StartEvent → Option (Machine ρ)
  | .begin =>
      if m.starting = .before ∧ m.stopping = false then
        some { m with starting := .attempting 0 }
      else none
  | .attempt =>
      match m.starting with
      | .attempting i =>
          match m.workers[i]? with
          | some w => some { m.put i { w with state := .starting } with starting := .calling i }
          | none => some { m with starting := .finished }
      | _ => none
  | .threadStart outcome =>
      match m.starting with
      | .calling i =>
          match m.workers[i]?, outcome with
          | some w, .begun => some { m.put i { w with pc := .entering } with starting := .confirming i }
          | some w, .raised true => some { m.put i { w with pc := .entering } with starting := .finished }
          | some _, .raised false => some { m with starting := .finished }
          | none, _ => none
      | _ => none
  | .confirm =>
      match m.starting with
      | .confirming i =>
          match m.workers[i]? with
          | some w => some { m.put i { w with state := .started } with starting := .attempting (i + 1) }
          | none => none
      | _ => none

/-- The call of `drain` goes on. -/
def drainAt (m : Machine ρ) (d : DrainId) (drain : Drain) : Machine ρ :=
  { m with drains := Function.update m.drains d drain }

/-- The next step of a call of `drain`. -/
def advance (m : Machine ρ) (d : DrainId) : Option (Machine ρ) :=
  match m.drains d with
  | .settling i =>
      match m.workers[i]? with
      | some w => some ((m.put i w.cancel).drainAt d (.testing i))
      | none => some (m.drainAt d (.checking 0 true))
  | .testing i =>
      match m.workers[i]? with
      | some w => some (m.drainAt d (if w.joinable then .joining i else .settling (i + 1)))
      | none => none
  | .joining i =>
      match m.workers[i]? with
      | some w => if w.ended then some (m.drainAt d (.settling (i + 1))) else none
      | none => none
  | .checking i settled =>
      match m.workers[i]? with
      | some w =>
          let next := if w.state = .idle then .checking (i + 1) settled else .looking i settled
          some ((m.put i w.cancel).drainAt d next)
      | none => some (m.drainAt d (.returned (settled && decide (m.tickets = []))))
  | .looking i settled =>
      match m.workers[i]? with
      | some w => some (m.drainAt d (.checking (i + 1) (settled && (w.done && w.ended))))
      | none => none
  | _ => none

/-- One step, where it can happen. -/
def step (m : Machine ρ) : Event ρ → Option (Machine ρ)
  | .submit notify abandon raises => some (m.submit notify abandon raises)
  | .closeAdmission => some { m with closing := true }
  | .drain d =>
      if m.drains d = .idle ∧ (m.starting = .before ∨ m.starting = .finished) then
        some ({ m with closing := true, stopping := true }.drainAt d (.settling 0))
      else none
  | .advance d => m.advance d
  | .start event => m.startStep event
  | .worker i event => (m.workers[i]?).bind fun w => m.workerStep i w event

end Machine

end MaskGateway.Runtime.AdminWork
