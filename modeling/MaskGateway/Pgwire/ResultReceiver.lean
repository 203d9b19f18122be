import MaskGateway.Lib.Machine
import MaskGateway.Pgwire.ResultFrame
import MaskGateway.Runtime.Budget

/-!
# `MaskGateway.Pgwire.ResultReceiver`: one result, received, sent and discarded

`ResultReceiver` (`pgwire/result_receiver.py`). A receiver pins the output of a session in the ledger,
reads one frame from the worker, sends its body to the client, and gives the pin back once nothing
refers to the bytes. Its calls take the lock of the ledger in sections and work on the channel, or
drop the bytes, between them:

    receive:   NEW → READING      |  read and validate  |  READY or FAILED      |  completion
    send_to:   READY → SENDING    |  send the body      |  SENT or FAILED       |  completion
    close:     → DISCARDING       |  drop the bytes     |  `end_output`: CLOSED or HELD

`Machine` runs any number of threads through these sections. A section that needs the lock may be
refused it (`Locked`). What arrives on a channel, when the deadline strikes and whether the frames of
an exception could be cleared is part of the event. So is an interrupt before the last
section of a call; one that arrives after it is left out.

`Machine.asked`, `ended`, `returned`, `receives`, `sends` and `wasSent` are not in the code: they count
and list what the receiver has done.
-/

set_option autoImplicit false

namespace MaskGateway.Pgwire.ResultReceiver

open Lib
open MaskGateway.Runtime.Budget

abbrev ThreadId := Nat

/-- Which `Event` a completion is. -/
abbrev OperationId := Nat

/-- `ReceiverFailure`. -/
inductive ReceiverFailure where
  | state
  | busy
  | budget
  | io
  | limit
  | protocol
  | deadline
  deriving DecidableEq

/-- `ReceiverState`. -/
inductive ReceiverState where
  | new
  | reading
  | ready
  | sending
  | sent
  | failed
  | discarding
  | held
  | closed
  deriving DecidableEq

/-- `ResultSummary`. -/
structure ResultSummary where
  columns : Nat
  rows : Nat
  truncated : Bool
  deriving DecidableEq

/-- The exact class of a channel. -/
inductive ChannelKind where
  | raw
  | tls
  | other
  deriving DecidableEq

/-! ### Reading the frame -/

/-- What a channel gives `_read_payload`. -/
structure Arrival where
  /-- the bytes that arrive -/
  bytes : List UInt8
  /-- the deadline, a failure of the channel, or the exhaustion of memory, where one of them strikes -/
  stops : Option ReceiverFailure
  /-- `_clear_error` fails, if there is an error to clear -/
  unclear : Bool

/-- `_category`, of an error of the frame. -/
def categoryOf : ResultErrorCategory → ReceiverFailure
  | .limit => .limit
  | .protocol | .identity => .protocol

/-- `_read_payload`. The end of the channel is an error of the transport. -/
def readPayload (expected : ResultIdentity) (limits : ResultLimits) (arrival : Arrival) :
    Except ReceiverFailure ValidatedResult :=
  match arrival.stops with
  | some failure => .error failure
  | none => do
      refuseIf (arrival.bytes.length < headerSize) .io
      let info ← (inspectResultHeader (arrival.bytes.take headerSize) expected limits).mapError
        categoryOf
      refuseIf (arrival.bytes.length < info.frameBytes) .io
      (validateResult (arrival.bytes.take info.frameBytes) expected limits).mapError categoryOf

/-! ### The receiver -/

/-- `ResultReceiver`. -/
structure Receiver where
  pin : BudgetOutputToken
  expected : ResultIdentity
  limits : ResultLimits
  state : ReceiverState := .new
  owner : Option ValidatedResult := none
  summary : Option ResultSummary := none
  /-- `_operation_done` -/
  operation : OperationId := 0
  uncertain : Bool := false
  discarded : Bool := false
  drain : Bool := true

namespace Receiver

/-- `_settle_locked`, where `done` says whether `_operation_done` is set. -/
def settle (r : Receiver) (done : Bool) : Receiver :=
  if (r.state = .reading ∨ r.state = .sending) ∧ done = true then { r with state := .failed } else r

/-- The first section of `receive`. -/
def startReceive (r : Receiver) (channel : ChannelKind) (completion : OperationId) :
    Except ReceiverFailure Receiver := do
  refuseIf (r.state ≠ .new ∨ channel ≠ .raw) .state
  return { r with operation := completion, state := .reading }

/-- The last section of `receive`. -/
def finishReceive (r : Receiver) : Except ReceiverFailure ValidatedResult → Receiver
  | .error _ => { r with state := .failed }
  | .ok owner =>
      { r with summary := some ⟨owner.columns, owner.rows, owner.truncated⟩, owner := some owner
               state := .ready }

/-- The first section of `send_to`. -/
def startSend (r : Receiver) (channel : ChannelKind) (completion : OperationId) :
    Except ReceiverFailure Receiver := do
  refuseIf (r.state ≠ .ready ∨ channel = .other) .state
  refuseIf (r.owner = none ∨ r.summary = none) .state
  return { r with operation := completion, state := .sending }

/-- The last section of `send_to`. -/
def finishSend (r : Receiver) (failure : Option ReceiverFailure) : Receiver :=
  { r with state := if failure = none then .sent else .failed }

/-- What the first section of `close` comes to. -/
inductive CloseStart where
  | already
  | refused
  /-- It goes on, and refers to the bytes. -/
  | discards (owner : Option ValidatedResult) (r : Receiver)

/-- The first section of `close`, on a receiver that is settled. -/
def startClose (r : Receiver) : CloseStart :=
  match r.state with
  | .closed => .already
  | .reading | .sending => .refused
  | .discarding | .held => if r.discarded then .discards none r else .refused
  | state =>
      .discards r.owner
        { r with drain := decide (state ≠ .sent), state := .discarding, owner := none }

/-- The `end_output` of `close`. -/
def endCall (r : Receiver) : Op :=
  .endOutput (some r.pin) (some (!r.uncertain)) (some r.drain)

/-- The last section of `close`, with what the ledger answered. -/
def finishClose (r : Receiver) : Except BudgetFailure OutputReleaseOutcome → Receiver
  | .error _ | .ok .held => { r with state := .held }
  | .ok .cleared | .ok .alreadyCleared => { r with state := .closed }

end Receiver

/-- The answer of `end_output`, among those of the ledger. -/
def outputAnswer : Except BudgetFailure Answer → Except BudgetFailure OutputReleaseOutcome
  | .ok (.output outcome) => .ok outcome
  | .ok _ => .error .fault
  | .error failure => .error failure

/-! ### Threads -/

/-- Where a thread is in a call of the receiver. -/
inductive Pc where
  | idle
  /-- `receive`, at the channel -/
  | reading (completion : OperationId)
  /-- `receive`, before its last section -/
  | received (completion : OperationId) (captured : Except ReceiverFailure ValidatedResult)
  /-- `send_to`, at the channel -/
  | sending (completion : OperationId)
  /-- `send_to`, before its last section -/
  | sentOff (completion : OperationId) (failure : Option ReceiverFailure)
  /-- the `finally` of `receive` or `send_to`, with what the thread still refers to -/
  | finishing (completion : OperationId) (owner : Option ValidatedResult)
  /-- `close`, with the bytes in hand -/
  | closing (owner : Option ValidatedResult)
  /-- `close`, before its last section -/
  | dropped

/-- A section gets the lock, or `_coordinated` raises. -/
inductive Locked where
  | acquired
  | refused (failure : ReceiverFailure)

/-- The receiver, its ledger and its threads. -/
structure Machine where
  ledger : Ledger
  receiver : Receiver
  pc : ThreadId → Pc := fun _ => .idle
  completed : OperationId → Bool := fun _ => false
  next : OperationId := 1
  asked : List Op
  ended : List (Except BudgetFailure OutputReleaseOutcome) := []
  returned : List OutputReleaseOutcome := []
  receives : Nat := 0
  sends : Nat := 0
  wasSent : Bool := false

namespace Machine

/-- The thread moves on. -/
def goto (m : Machine) (t : ThreadId) (pc : Pc) : Machine :=
  { m with pc := Function.update m.pc t pc }

/-- `_settle_locked`. -/
def settle (m : Machine) : Machine :=
  { m with receiver := m.receiver.settle (m.completed m.receiver.operation) }

/-- `ResultReceiver.__init__`, with the lock. -/
def construct (ledger : Ledger) (session : BudgetToken) (expected : ResultIdentity)
    (limits : ResultLimits) (overheadBytes : Arg) (faults : Faults) : Option Machine :=
  let op := Op.beginOutput (some session) (.int limits.maxFrameBytes) overheadBytes
  match ledger.step faults op with
  | (.ok (.pin pin), ledger) => some { ledger, receiver := { pin, expected, limits }, asked := [op] }
  | _ => none

end Machine

/-- What happens next. -/
inductive Event where
  /-- anything else that the ledger is asked, but for the output of this receiver -/
  | ledger (faults : Faults) (op : Op)
  | status
  | receive (thread : ThreadId) (channel : ChannelKind)
  | read (thread : ThreadId) (arrival : Arrival)
  | finishReceive (thread : ThreadId) (locked : Locked)
  | send (thread : ThreadId) (channel : ChannelKind)
  /-- The body is on its way, or the channel failed. -/
  | sendBody (thread : ThreadId) (failure : Option ReceiverFailure) (unclear : Bool)
  | finishSend (thread : ThreadId) (locked : Locked)
  /-- An interrupt reaches a thread between its two sections. -/
  | interrupt (thread : ThreadId)
  /-- the `finally` of `receive` and `send_to` -/
  | complete (thread : ThreadId)
  | close (thread : ThreadId)
  | drop (thread : ThreadId)
  | finishClose (thread : ThreadId) (locked : Locked) (faults : Faults)

namespace Machine

/-- The last section of `close`. -/
def endOutput (m : Machine) (t : ThreadId) (faults : Faults) : Machine :=
  if m.receiver.state = .closed then
    { m.goto t .idle with returned := m.returned ++ [.alreadyCleared] }
  else
    let (answer, ledger) := m.ledger.step faults m.receiver.endCall
    let answer := outputAnswer answer
    { m.goto t .idle with
      ledger := ledger
      receiver := m.receiver.finishClose answer
      asked := m.asked ++ [m.receiver.endCall]
      ended := m.ended ++ [answer]
      returned := m.returned ++ answer.toOption.toList }

/-- One step, where it can happen. -/
def step (m : Machine) : Event → Option Machine
  | .ledger faults op =>
      match op with
      | .endOutput (some pin) _ _ =>
          if pin = m.receiver.pin then none else some { m with ledger := (m.ledger.step faults op).2 }
      | _ => some { m with ledger := (m.ledger.step faults op).2 }
  | .status => some m.settle
  | .receive t channel =>
      match m.pc t, m.receiver.startReceive channel m.next with
      | .idle, .ok receiver =>
          some { m.goto t (.reading m.next) with
            receiver := receiver, next := m.next + 1, receives := m.receives + 1 }
      | .idle, .error _ => some m
      | _, _ => none
  | .read t arrival =>
      match m.pc t with
      | .reading completion =>
          let captured := readPayload m.receiver.expected m.receiver.limits arrival
          -- an error whose frames cannot be cleared keeps the pin
          let unclear := !captured.isOk && arrival.unclear
          some { m.goto t (.received completion captured) with
            receiver := { m.receiver with uncertain := m.receiver.uncertain || unclear } }
      | _ => none
  | .finishReceive t locked =>
      match m.pc t, locked with
      | .received completion captured, .acquired =>
          some { m.goto t (.finishing completion none) with
            receiver := m.receiver.finishReceive captured }
      | .received completion captured, .refused _ =>
          some (m.goto t (.finishing completion captured.toOption))
      | _, _ => none
  | .send t channel =>
      match m.pc t, m.receiver.startSend channel m.next with
      | .idle, .ok receiver =>
          some { m.goto t (.sending m.next) with
            receiver := receiver, next := m.next + 1, sends := m.sends + 1 }
      | .idle, .error _ => some m
      | _, _ => none
  | .sendBody t failure unclear =>
      match m.pc t with
      | .sending completion =>
          let unclear := failure.isSome && unclear
          some { m.goto t (.sentOff completion failure) with
            receiver := { m.receiver with uncertain := m.receiver.uncertain || unclear } }
      | _ => none
  | .finishSend t locked =>
      match m.pc t, locked with
      | .sentOff completion failure, .acquired =>
          some { m.goto t (.finishing completion none) with
            receiver := m.receiver.finishSend failure, wasSent := m.wasSent || failure.isNone }
      | .sentOff completion _, .refused _ => some (m.goto t (.finishing completion none))
      | _, _ => none
  | .interrupt t =>
      match m.pc t with
      | .received completion captured =>
          some { m.goto t (.finishing completion captured.toOption) with
            receiver := { m.receiver with uncertain := true } }
      | .reading completion | .sending completion | .sentOff completion _ =>
          some { m.goto t (.finishing completion none) with
            receiver := { m.receiver with uncertain := true } }
      | _ => none
  | .complete t =>
      match m.pc t with
      | .finishing completion _ =>
          some { m.goto t .idle with completed := Function.update m.completed completion true }
      | _ => none
  | .close t =>
      match m.pc t with
      | .idle =>
          match m.settle.receiver.startClose with
          | .already => some { m.settle with returned := m.returned ++ [.alreadyCleared] }
          | .refused => some m.settle
          | .discards owner receiver => some { m.goto t (.closing owner) with receiver := receiver }
      | _ => none
  | .drop t =>
      match m.pc t with
      | .closing _ =>
          some { m.goto t .dropped with receiver := { m.receiver with discarded := true } }
      | _ => none
  | .finishClose t locked faults =>
      match m.pc t, locked with
      | .dropped, .acquired => some (m.endOutput t faults)
      | .dropped, .refused _ => some (m.goto t .idle)
      | _, _ => none

end Machine

end MaskGateway.Pgwire.ResultReceiver
