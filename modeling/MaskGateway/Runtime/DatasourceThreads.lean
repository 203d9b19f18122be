import MaskGateway.Runtime.Datasources

/-!
# `MaskGateway.Runtime.DatasourceThreads`: leases, their locks, and the shutdown

`DatasourceLease` and the parts of `DatasourceRegistry` that run outside the registry's lock
(`runtime/datasources.py`). A lease has a lock of its own, which covers its adapter: a `use` block
holds it, and so does whoever closes the lease. `close` of the registry holds a third lock, ends
every lease in two phases, waits, and disposes of what is left.

A thread is a program counter (`Pc`); what it does next is an `Action`. The steps between two lock
operations are actions of their own, so that `adapter.close()`, the release and `_dispose()` of one
thread can fall between any steps of the others. `Session.adapterCloses` and `System.disposals`
count calls; the code has no such counters.
-/

set_option autoImplicit false

namespace MaskGateway.Runtime.DatasourceThreads

open Lib
open MaskGateway.Runtime.Datasources

abbrev ThreadId := Nat

/-- The part of a `DatasourceLease` that its own lock covers. -/
structure Session where
  closed : Bool := false
  terminating : Bool := false
  /-- who holds `_lock` -/
  lock : Option ThreadId := none
  /-- calls of `adapter.close()` -/
  adapterCloses : Nat := 0
  deriving DecidableEq

/-- What a thread that closed a lease goes back to. -/
inductive Next where
  /-- the caller of `open_session`, `use` or `close` of the lease -/
  | done
  /-- the first phase of the shutdown: leases to come, and all of them -/
  | request (todo all : List LeaseId)
  /-- the second phase -/
  | finish (todo : List LeaseId)
  /-- `close` of the registry, which an exception leaves -/
  | abort
  deriving DecidableEq

/-- An exception of `adapter.close()` leaves the shutdown, after the `finally` blocks. -/
def Next.raised : Next → Next
  | .done => .done
  | _ => .abort

/-- Where a thread is. -/
inductive Pc where
  | idle
  /-- `open_session` after its lock section: `adapter.connect()` -/
  | connecting (id : LeaseId)
  | connected (id : LeaseId)
  /-- inside a `use` block -/
  | inUse (id : LeaseId)
  /-- `_close_locked`: `_closed` is set -/
  | closingAdapter (id : LeaseId) (next : Next)
  | releasing (id : LeaseId) (next : Next)
  /-- `_release` after its lock section -/
  | disposing (id : LeaseId) (g : Generation) (next : Next)
  | unlocking (id : LeaseId) (next : Next)
  /-- `_publish` or `withdraw` after its lock section -/
  | disposeOnly (g : Generation)
  | requesting (todo all : List LeaseId)
  | finishing (todo : List LeaseId)
  /-- `close` waits for the sessions and the candidates -/
  | draining
  /-- `close` after its last lock section -/
  | disposingAll (gs : List Generation)
  deriving DecidableEq

/-- The registry, the leases and the threads. -/
structure System where
  registry : DatasourceRegistry
  session : LeaseId → Session := fun _ => {}
  closeLock : Option ThreadId := none
  pc : ThreadId → Pc := fun _ => .idle
  /-- calls of `_dispose()`, by generation number -/
  disposals : Nat → Nat := fun _ => 0

namespace System

/-- The thread moves on. -/
def goto (s : System) (t : ThreadId) (pc : Pc) : System :=
  { s with pc := Function.update s.pc t pc }

/-- Change a lease. -/
def setSession (s : System) (id : LeaseId) (session : Session) : System :=
  { s with session := Function.update s.session id session }

/-- `_close_locked`, with the lease's lock held: nothing when the lease is closed already. -/
def startClose (s : System) (t : ThreadId) (id : LeaseId) (next : Next) : System :=
  if (s.session id).closed then s.goto t (.unlocking id next)
  else (s.setSession id { s.session id with closed := true }).goto t (.closingAdapter id next)

/-- `_dispose` of a generation. -/
def disposeOf (s : System) (g : Generation) : System :=
  { s with
    registry := dispose s.registry g
    disposals := Function.update s.disposals g.generation (s.disposals g.generation + 1) }

/-- Release the lease's lock and go on. -/
def resume (s : System) (t : ThreadId) (id : LeaseId) : Next → System
  | .done => (s.setSession id { s.session id with lock := none }).goto t .idle
  | .request todo all =>
      (s.setSession id { s.session id with lock := none }).goto t (.requesting todo all)
  | .finish todo => (s.setSession id { s.session id with lock := none }).goto t (.finishing todo)
  | .abort =>
      { (s.setSession id { s.session id with lock := none }).goto t .idle with closeLock := none }

end System

/-- What a thread does next. -/
inductive Action where
  | reserve (key : Name) (datasourceId : Option Name) (publish : Bool)
  | releaseReservation (id : ReservationId)
  | publish (id : ReservationId) (datasourceId alias_ : Name) (recordRevision : Nat)
      (prepared : PreparedRuntime)
  | withdraw (datasourceId : Name)
  | beginShutdown
  | openSession (alias_ : Name)
  /-- `adapter.connect()` returns or raises -/
  | connect (succeeds : Bool)
  | checkTerminating
  | use (id : LeaseId)
  /-- the end of a `use` block -/
  | leave
  /-- `close` of a lease -/
  | closeLease (id : LeaseId)
  /-- `adapter.close()` returns or raises -/
  | closeAdapter (raises : Bool)
  /-- the lock section of `_release` -/
  | release
  | dispose
  | unlock
  /-- `close` of the registry: its own lock, and the first section -/
  | close
  /-- `_request_termination` of the next lease -/
  | requestNext
  /-- `_finish_termination` of the next lease, or another round of its loop -/
  | finishNext
  /-- the last section of `close` -/
  | drain
  | closeReturn

/-- Where a publication or a withdrawal goes on. -/
def afterSection : Option Generation → Pc
  | none => .idle
  | some g => .disposeOnly g

/-- `CandidateReservation.publish`: the section is entered by an entitled reservation only. -/
def publishAs (reg : DatasourceRegistry) (id : ReservationId) (reservation : Reservation)
    (datasourceId alias_ : Name) (recordRevision : Nat) (prepared : PreparedRuntime) :
    Except DatasourceError (Generation × Option Generation × DatasourceRegistry) := do
  refuseIf (¬ reservation.publish ∨ reservation.released) .notEntitled
  publish reg id reservation datasourceId alias_ recordRevision prepared

/-- What a thread can do that is at rest. -/
def stepIdle (s : System) (t : ThreadId) : Action → Option System
  | .reserve key datasourceId publish =>
      match reserve s.registry key datasourceId publish with
      | .error _ => some s
      | .ok (_, registry) => some { s with registry := registry }
  | .releaseReservation id =>
      s.registry.reservations[id]?.map fun reservation =>
        { s with registry := releaseReservation s.registry id reservation }
  | .publish id datasourceId alias_ recordRevision prepared =>
      s.registry.reservations[id]?.map fun reservation =>
        match publishAs s.registry id reservation datasourceId alias_ recordRevision prepared with
        | .error _ => s
        | .ok (_, toClose, registry) =>
            { s with registry := registry }.goto t (afterSection toClose)
  | .withdraw datasourceId =>
      let (_, toClose, registry) := withdraw s.registry datasourceId
      some ({ s with registry := registry }.goto t (afterSection toClose))
  | .beginShutdown => some { s with registry := beginShutdown s.registry }
  | .openSession alias_ =>
      match openSession s.registry alias_ with
      | .error _ => some s
      | .ok (id, registry) =>
          some (({ s with registry := registry }.setSession id { lock := some t }).goto t
            (.connecting id))
  | .use id =>
      if (s.session id).lock.isSome ∨ s.registry.leases.length ≤ id then none
      else
        let s' := s.setSession id { s.session id with lock := some t }
        if (s.session id).closed ∨ (s.session id).terminating then some (s'.startClose t id .done)
        else some (s'.goto t (.inUse id))
  | .closeLease id =>
      if (s.session id).lock.isSome ∨ s.registry.leases.length ≤ id then none
      else some ((s.setSession id { s.session id with lock := some t }).startClose t id .done)
  | .close =>
      if s.closeLock.isSome then none
      else
        match closeBegin s.registry with
        | none => some ({ s with closeLock := some t }.goto t (.disposingAll []))
        | some (leases, registry) =>
            some ({ s with registry := registry, closeLock := some t }.goto t
              (.requesting leases leases))
  | _ => none

/-- `_request_termination` and `_finish_termination`, when the lease's lock is free. -/
def terminate (s : System) (t : ThreadId) (id : LeaseId) (next : Next) : System :=
  (s.setSession id { s.session id with lock := some t, terminating := true }).startClose t id next

/-- The same when the lock is taken: the mark, and a cancellation that the model does not see. -/
def markTerminating (s : System) (id : LeaseId) : System :=
  s.setSession id { s.session id with terminating := true }

/-- The state after an action of a thread, if the thread is where it can do that. -/
def step (s : System) (e : ThreadId × Action) : Option System :=
  match s.pc e.1, e.2 with
  | .idle, action => stepIdle s e.1 action
  | .connecting id, .connect true => some (s.goto e.1 (.connected id))
  | .connecting id, .connect false => some (s.startClose e.1 id .done)
  | .connected id, .checkTerminating =>
      if (s.session id).terminating then some (s.startClose e.1 id .done)
      else some (s.goto e.1 (.unlocking id .done))
  | .inUse id, .leave =>
      if (s.session id).terminating then some (s.startClose e.1 id .done)
      else some (s.goto e.1 (.unlocking id .done))
  | .closingAdapter id next, .closeAdapter raises =>
      some ((s.setSession id { s.session id with
        adapterCloses := (s.session id).adapterCloses + 1 }).goto e.1
          (.releasing id (if raises then next.raised else next)))
  | .releasing id next, .release =>
      s.registry.leases[id]?.map fun lease =>
        let (toClose, registry) := release s.registry id lease
        { s with registry := registry }.goto e.1
          (match toClose with
          | none => .unlocking id next
          | some g => .disposing id g next)
  | .disposing id g next, .dispose => some ((s.disposeOf g).goto e.1 (.unlocking id next))
  | .disposeOnly g, .dispose => some ((s.disposeOf g).goto e.1 .idle)
  | .unlocking id next, .unlock => some (s.resume e.1 id next)
  | .requesting [] all, .requestNext => some (s.goto e.1 (.finishing all))
  | .requesting (id :: todo) all, .requestNext =>
      if (s.session id).lock.isSome then
        some ((markTerminating s id).goto e.1 (.requesting todo all))
      else some (terminate s e.1 id (.request todo all))
  | .finishing [], .finishNext => some (s.goto e.1 .draining)
  | .finishing (id :: todo), .finishNext =>
      if (s.session id).lock.isSome then some (markTerminating s id)
      else some (terminate s e.1 id (.finish todo))
  | .draining, .drain =>
      (closeFinish s.registry).map fun (gs, registry) =>
        { s with registry := registry }.goto e.1 (.disposingAll gs)
  | .disposingAll (g :: gs), .dispose => some ((s.disposeOf g).goto e.1 (.disposingAll gs))
  | .disposingAll [], .closeReturn => some ({ s with closeLock := none }.goto e.1 .idle)
  | _, _ => none

end MaskGateway.Runtime.DatasourceThreads
