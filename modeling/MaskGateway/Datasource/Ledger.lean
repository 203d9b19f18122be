import MaskGateway.Datasource.Child
import MaskGateway.Lib.Machine

/-!
# `MaskGateway.Datasource.Ledger`: the children of all verifications

`_Ledger` and `VerificationSupervisor` (`datasource/verify.py`). A verification takes a slot and puts
a record into the ledger, runs its child, and reaps it. What is not reaped stays in the ledger, and
every admission, every `collect` and every `close` tries again:

    admitting  →  collecting  →  entering  →  running  →  reaping  →  settling  →  judging

Calls run in threads of their own, any number of them. A section of the ledger's lock is one event,
and so is each call of the operating system that `run` and `reap` make outside it. What the children
and the threads of the pumps do by themselves are events too, and the clock is one.

A token is an object of its own in the code. Here it is the number of the call with a flag: a
verification has the token that it is born with, and another one for what it collects before.
`accepts` stands for `_parse(output) is True`. `Machine.released` is not in the code.
-/

set_option autoImplicit false

namespace MaskGateway.Datasource.Verify

open Lib

abbrev RecordId := Nat

abbrev CallId := Nat

/-- A `VerificationSupervisor`. -/
abbrev SupervisorId := Nat

/-- The object that a claim carries. -/
structure Token where
  call : CallId
  /-- of the verification itself -/
  own : Bool
  deriving DecidableEq

/-- The part of a `_ChildRecord` that the lock of the ledger covers. -/
structure ChildRecord where
  owner : SupervisorId := 0
  inFlight : Bool := false
  claimer : Option Token := none
  deriving DecidableEq

/-- What goes on after a collection. -/
inductive Next where
  /-- `_admit` of a verification -/
  | admission (supervisor : SupervisorId) (timeout : Nat)
  | collected
  | closing (supervisor : SupervisorId)

/-- The variables of `collect` and `collect_until`; the latter has its initial records. -/
structure Frame where
  deadline : Nat
  initial : Option (List RecordId)
  visited : List RecordId := []
  next : Next

/-- Who reaps: a collection, or the verification with the result of `run`. -/
inductive Holding where
  | scan (frame : Frame)
  | own (completed interrupted : Bool)

/-- The token is that of the verification. -/
def Holding.isOwn : Holding → Bool
  | .scan _ => false
  | .own _ _ => true

/-- How a call ends. -/
inductive Result where
  | returned
  /-- `verify` returns -/
  | verified (record : RecordId)
  | raised

/-- Where a call is. -/
inductive Pc where
  | idle
  /-- the first section of `_admit` -/
  | admitting (supervisor : SupervisorId) (timeout : Nat)
  /-- the first section of `collect_until` -/
  | listing (deadline : Nat)
  | collecting (frame : Frame)
  | reaping (holding : Holding) (record : RecordId) (deadline : Nat) (pc : ReapPc)
  /-- the `finally` with `_settle` -/
  | settling (holding : Holding) (record : RecordId) (reaped raised : Bool)
  /-- the section of `pending` -/
  | pending (frame : Frame)
  /-- the second section of `_admit` -/
  | entering (supervisor : SupervisorId) (timeout : Nat)
  | running (record : RecordId) (timeout : Nat) (pc : RunPc)
  /-- `_run` and `verify` after the record is settled -/
  | judging (record : RecordId) (completed : Bool)
  /-- the two sections of `close` -/
  | closing (supervisor : SupervisorId)
  | confirming (supervisor : SupervisorId)
  | finished (result : Result)

/-- The ledger, the supervisors, the calls and the children. -/
structure Machine where
  /-- the free slots -/
  slots : Nat
  records : List RecordId := []
  record : RecordId → ChildRecord := fun _ => {}
  resources : RecordId → Resources := fun _ => {}
  /-- how many records there were -/
  count : Nat := 0
  closing : SupervisorId → Bool := fun _ => false
  closed : SupervisorId → Bool := fun _ => false
  calls : CallId → Pc := fun _ => .idle
  now : Nat := 0
  released : List RecordId := []

/-- What can be called. -/
inductive Job where
  | verify (supervisor : SupervisorId) (payload : Nat) (timeout : Nat)
  | collect (deadline : Nat)
  | collectUntil (deadline : Nat)
  | beginShutdown (supervisor : SupervisorId)
  | close (supervisor : SupervisorId)

/-- What can happen next. -/
inductive Event where
  | start (call : CallId) (job : Job)
  | spawn (call : CallId) (adopted : Option (Option Process)) (ending : Ending)
  | step (call : CallId) (answer : Answer)
  | pump (record : RecordId) (pump : Nat) (move : PumpMove)
  | exits (record : RecordId) (code : Int)
  | tick

/-- `_MAX_INPUT_BYTES`. -/
def maxInputBytes : Nat := 64 * 1024

/-- `_cleanup_budget()`, in milliseconds. -/
def cleanupBudget : Nat := 3 * 2000

/-- `_ADMISSION_COLLECT_SECONDS`, in milliseconds. -/
def admissionCollect : Nat := 1000

namespace Machine

/-- A call goes on somewhere else. -/
def goto (m : Machine) (c : CallId) (pc : Pc) : Machine :=
  { m with calls := Function.update m.calls c pc }

/-- A record changes. -/
def setRecord (m : Machine) (r : RecordId) (record : ChildRecord) : Machine :=
  { m with record := Function.update m.record r record }

/-- What a record holds changes. -/
def setResources (m : Machine) (r : RecordId) (res : Resources) : Machine :=
  { m with resources := Function.update m.resources r res }

/-- A supervisor refuses from now on. -/
def refuse (m : Machine) (supervisor : SupervisorId) : Machine :=
  { m with closing := Function.update m.closing supervisor true }

/-- A new collection. -/
def frame (m : Machine) (budget : Nat) (next : Next) : Frame :=
  { deadline := m.now + budget, initial := none, next := next }

/-- A call begins. -/
def start (m : Machine) (c : CallId) (job : Job) : Option Machine :=
  match m.calls c, job with
  | .idle, .verify supervisor payload timeout =>
      some (m.goto c (if maxInputBytes < payload then .finished .raised
        else .admitting supervisor timeout))
  | .idle, .collect deadline =>
      some (m.goto c (.collecting { deadline := deadline, initial := none, next := .collected }))
  | .idle, .collectUntil deadline => some (m.goto c (.listing deadline))
  | .idle, .beginShutdown supervisor => some ((m.refuse supervisor).goto c (.finished .returned))
  | .idle, .close supervisor => some (m.goto c (.closing supervisor))
  | _, _ => none

/-- A collection may take a record. -/
def takes (m : Machine) (frame : Frame) (r : RecordId) : Bool :=
  !(m.record r).inFlight && (m.record r).claimer.isNone && !frame.visited.contains r &&
    frame.initial.all fun initial => initial.contains r

/-- The section of a collection that claims a record. -/
def collectStep (m : Machine) (c : CallId) (frame : Frame) : Machine :=
  -- only `collect_until` looks at the clock
  if frame.initial.isSome ∧ frame.deadline ≤ m.now then m.goto c (.pending frame)
  else
    match m.records.find? (m.takes frame) with
    | none => m.goto c (.pending frame)
    | some r =>
        (m.setRecord r { m.record r with claimer := some ⟨c, false⟩ }).goto c
          (.reaping (.scan { frame with visited := r :: frame.visited }) r frame.deadline .checking)

/-- `_settle`. -/
def settle (m : Machine) (r : RecordId) (token : Token) (reaped : Bool) : Machine :=
  if (m.record r).claimer ≠ some token then m
  else
    let m := m.setRecord r { m.record r with inFlight := false, claimer := none }
    if reaped = false ∨ r ∉ m.records then m
    else
      { m with
          records := m.records.erase r, slots := m.slots + 1, released := r :: m.released }

/-- Where a call goes on after it has settled a record. -/
def afterSettle (holding : Holding) (r : RecordId) (reaped raised : Bool) : Pc :=
  match holding with
  | .scan frame => if raised then .finished .raised else .collecting frame
  | .own completed interrupted =>
      if raised ∨ interrupted ∨ reaped = false then .finished .raised else .judging r completed

/-- The second section of `_admit`. -/
def enter (m : Machine) (c : CallId) (supervisor : SupervisorId) (timeout : Nat) : Machine :=
  if m.closing supervisor ∨ m.slots = 0 then m.goto c (.finished .raised)
  else
    { (m.setRecord m.count ⟨supervisor, true, some ⟨c, true⟩⟩).setResources m.count {} with
        slots := m.slots - 1, records := m.records ++ [m.count], count := m.count + 1
        calls := Function.update m.calls c (.running m.count timeout .spawning) }

/-- `_run` and `verify`, once the record is settled. -/
def judge (accepts : List UInt8 → Bool) (res : Resources) (completed : Bool) : Bool :=
  completed && !res.sink.tooBig && !res.sink.ioError &&
    (res.process.any fun p => (p.exit.map Prod.fst) == some 0) && res.sink.data.any accepts

/-- What a step of `run` leads to. -/
def afterRun (m : Machine) (r : RecordId) (timeout : Nat) : Out RunPc → Pc
  | .next pc => .running r timeout pc
  | .done completed => .reaping (.own completed false) r (m.now + cleanupBudget) .checking
  | .raised => .reaping (.own false true) r (m.now + cleanupBudget) .checking

/-- What a step of `reap` leads to. -/
def afterReap (holding : Holding) (r : RecordId) (deadline : Nat) : Out ReapPc → Pc
  | .next pc => .reaping holding r deadline pc
  | .done reaped => .settling holding r reaped false
  | .raised => .settling holding r false true

/-- One step of a call. -/
def callStep (accepts : List UInt8 → Bool) (m : Machine) (c : CallId) (answer : Answer) :
    Option Machine :=
  match m.calls c with
  | .idle => none
  | .admitting supervisor timeout =>
      some (m.goto c (if m.closing supervisor then .finished .raised
        else .collecting (m.frame admissionCollect (.admission supervisor timeout))))
  | .listing deadline =>
      some (m.goto c (.collecting
        { deadline := deadline, initial := some m.records, next := .collected }))
  | .collecting frame => some (m.collectStep c frame)
  | .reaping holding r deadline pc =>
      (Resources.reapStep (m.resources r) m.now deadline pc answer).map fun (res, out) =>
        (m.setResources r res).goto c (afterReap holding r deadline out)
  | .settling holding r reaped raised =>
      some ((m.settle r ⟨c, holding.isOwn⟩ reaped).goto c (afterSettle holding r reaped raised))
  | .pending frame =>
      match frame.next with
      | .admission supervisor timeout => some (m.goto c (.entering supervisor timeout))
      | .collected => some (m.goto c (.finished .returned))
      | .closing supervisor => some (m.goto c (.confirming supervisor))
  | .entering supervisor timeout => some (m.enter c supervisor timeout)
  | .running r timeout pc =>
      (Resources.runStep (m.resources r) m.now timeout pc answer).map fun (res, out) =>
        (m.setResources r res).goto c (m.afterRun r timeout out)
  | .judging r completed =>
      some (m.goto c (.finished (if judge accepts (m.resources r) completed then .verified r
        else .raised)))
  | .closing supervisor =>
      if m.closed supervisor then some (m.goto c (.finished .returned))
      else
        some ((m.refuse supervisor).goto c
          (.collecting (m.frame cleanupBudget (.closing supervisor))))
  | .confirming supervisor =>
      let remaining := m.records.any fun r => (m.record r).owner = supervisor
      some ({ m with closed := Function.update m.closed supervisor (!remaining) }.goto c
        (.finished (if remaining then .raised else .returned)))
  | .finished _ => none

/-- The spawn of a verification. -/
def spawnStep (m : Machine) (c : CallId) (adopted : Option (Option Process)) (ending : Ending) :
    Option Machine :=
  match m.calls c with
  | .running r timeout .spawning =>
      (Resources.spawnStep (m.resources r) adopted ending).map fun (res, out) =>
        (m.setResources r res).goto c (m.afterRun r timeout out)
  | _ => none

/-- One event. -/
def step (accepts : List UInt8 → Bool) (m : Machine) : Event → Option Machine
  | .start c job => m.start c job
  | .spawn c adopted ending => m.spawnStep c adopted ending
  | .step c answer => m.callStep accepts c answer
  | .pump r i move => ((m.resources r).pumpMove i move).map (m.setResources r)
  | .exits r code => ((m.resources r).exits code m.now).map (m.setResources r)
  | .tick => some { m with now := m.now + 1 }

end Machine

end MaskGateway.Datasource.Verify
