import MaskGateway.Lib.Effect
import MaskGateway.Pgwire.ResultReceiver
import MaskGateway.Runtime.WorkerProtocol

/-!
# `MaskGateway.Runtime.WorkerSession`: the owner of one worker process

`runtime/worker_session.py`, with the calls of `ResultReceiver` that it makes. A session adopts a
reservation of the ledger, spawns a worker, and then runs one query after the other: it sends the
query, reads the reply, and hands a result to the client after the DONE of the worker. Whatever goes
wrong ends in `_cleanup`, which kills the worker, closes the handles, ends the output and gives the
reservation back, if it can confirm all of that.

The calls of a session exclude each other, so a call is a program over the session. What comes from
outside is `World`: what the worker sends, what the operating system does, whether a lock is there
before the deadline, how the ledger fares when it publishes. Each answer belongs to a moment, and a
session asks one question in each moment, so that nothing ties one answer to another. Between two
moments others may call `request_stop` or use the ledger.

The thread of a session is not modelled beyond `_exclusive`, which lets a call in or refuses it, and
the deadlines not beyond the exceptions that they raise. `Session.history` and `Session.asked` are
not in the code: they write down what went between the worker, the session and the client, and what
the session asked of the ledger.
-/

set_option autoImplicit false

namespace MaskGateway.Runtime.WorkerSession

open Lib MaskGateway.Pgwire
open MaskGateway.Pgwire.ResultReceiver
open MaskGateway.Runtime.Budget
open MaskGateway.Runtime.Wire (SessionKey SecretInit ErrorReply Kind WorkerProtocolError headerBytes
  maxSnapshotBytes parseHeader decodeGuard decodeOpened decodeError decodeDone encodeInit encodeQuery
  encodeClose)

/-! ### Values -/

/-- `_MAX_SQL`. -/
def maxSql : Nat := 65536

/-- `_MAX_JOB`. -/
def maxJob : Nat := 2 ^ 63 - 1

/-- `_CONTROL_BYTES`. -/
def controlBytes : Nat := 256

/-- `_REAP_ATTEMPTS`. -/
def reapAttempts : Nat := 3

/-- The process id of the gateway, which the constructor of a session insists on. -/
def ownPid : Nat := 1

/-- `SessionFailure`. -/
inductive SessionFailure where
  | state
  | open
  | job
  | output
  | cleanup
  deriving DecidableEq

/-- The exceptions, as far as a session tells them apart. -/
inductive Raised where
  | session (category : SessionFailure)
  | receiver (failure : ReceiverFailure)
  | budget (failure : BudgetFailure)
  /-- `WorkerProtocolError` -/
  | wire
  /-- `TransportError` -/
  | transport
  /-- `ResultFrameError`, which a deadline raises as well -/
  | resultFrame
  /-- `OSError` -/
  | os
  /-- `subprocess.TimeoutExpired` -/
  | timeoutExpired
  | other
  deriving DecidableEq

/-- `SessionState`. -/
inductive SessionState where
  | new
  | opening
  | ready
  | result
  | closing
  | held
  | closed
  deriving DecidableEq

/-- `WorkerProfile`, but for the two times. -/
structure WorkerProfile where
  addressBytes : Nat
  outputOverheadBytes : Nat
  addressBytes_range : 64 * 1024 * 1024 ≤ addressBytes ∧ addressBytes ≤ 4096 * 1024 * 1024
  outputOverheadBytes_range : 1 ≤ outputOverheadBytes ∧ outputOverheadBytes ≤ 2 ^ 63 - 1

/-- What the constructor is given. -/
structure Config where
  token : BudgetToken
  key : SessionKey
  limits : ResultLimits
  profile : WorkerProfile
  /-- `hmac.digest` with SHA-256, of a key and a message -/
  digest : List UInt8 → List UInt8 → List UInt8

/-! ### The worker process and its handles -/

/-- What is known of the worker process. -/
inductive Child where
  | never
  /-- `Popen` was called, and did not return. -/
  | unknown
  | running
  | reaped
  deriving DecidableEq

/-- The handles of a session. -/
inductive HandleName where
  | sock
  | childSock
  | stdin
  deriving DecidableEq

/-- What is known of a handle. -/
inductive Handle where
  | absent
  | opened
  /-- `close` returned, and the handle says that it is closed. -/
  | closed
  /-- `close` failed. -/
  | doubtful
  deriving DecidableEq

/-- What a session has of the operating system. -/
structure Owned where
  child : Child := .never
  handles : HandleName → Handle := fun _ => .absent

/-- `Popen`: the process, and whether it has a pipe for its input. -/
structure Process where
  pid : Nat
  stdin : Bool
  deriving DecidableEq

/-! ### What is written down -/

/-- What goes between the worker, the session and the client. -/
inductive Exchange where
  | opened
  /-- `_query` takes the number of the job. -/
  | query (job : Nat)
  /-- `query` has a reply. -/
  | reply (reply : ErrorReply)
  /-- `validate_result` accepted the frame. -/
  | frame (job : Nat) (wire : List UInt8)
  /-- DONE came after the frame. -/
  | done (job : Nat) (wire : List UInt8)
  /-- The bytes went to the client. -/
  | client (job : Nat) (bytes : List UInt8)
  /-- The body of a call raised, after the adoption. -/
  | failed (job : Nat)
  deriving DecidableEq

/-- A call on the ledger, and what the session had at that moment. -/
structure Asked where
  op : Op
  faults : Faults
  before : Ledger
  owned : Owned

/-- The answer. -/
def Asked.answer (asked : Asked) : Except BudgetFailure Answer :=
  (asked.before.step asked.faults asked.op).1

/-- The ledger afterwards. -/
def Asked.after (asked : Asked) : Ledger :=
  (asked.before.step asked.faults asked.op).2

/-- `WorkerSession`, with the ledger that it shares. -/
structure Session where
  ledger : Ledger
  state : SessionState := .new
  stop : Bool := false
  adopted : Bool := false
  spawnUnknown : Bool := false
  uncertain : Bool := false
  process : Option Process := none
  /-- `_sock` is not `None` -/
  sock : Bool := false
  /-- `_child_sock` is not `None` -/
  childSock : Bool := false
  /-- `_channel` is not `None` -/
  channel : Bool := false
  receiver : Option Receiver := none
  /-- `_operation_done` of the receiver is set -/
  operationDone : Bool := false
  job : Nat := 0
  owned : Owned := {}
  now : Nat := 0
  history : List Exchange := []
  asked : List Asked := []

/-- The session refers to the handle. -/
def Session.has (s : Session) : HandleName → Bool
  | .sock => s.sock
  | .childSock => s.childSock
  | .stdin => s.process.any Process.stdin

/-! ### What comes from outside -/

/-- What others do: the registry stops the session, or the ledger is used. -/
inductive Other where
  | requestStop
  | ledger (faults : Faults) (op : Op)

/-- How the bytes of a result come to `receive`. -/
inductive Reading where
  | arrival (arrival : Arrival)
  /-- an exception that is no `Exception` -/
  | interrupted

/-- How the bytes of a result leave in `send_to`: all of them, or so many before a failure. -/
inductive Writing where
  | sent (count : Nat) (failure : Option ReceiverFailure) (unclear : Bool)
  /-- an exception that is no `Exception` -/
  | interrupted (count : Nat)

/-- Everything outside a session, at every moment. -/
structure World where
  others : Nat → List Other
  /-- `_exclusive` lets the call in. -/
  admitted : Nat → Bool
  /-- The thread is a daemon. -/
  daemon : Nat → Bool
  /-- `_coordinated` has the lock before the deadline. -/
  locks : Nat → Bool
  /-- `_coordinated` of the receiver has the lock. -/
  slices : Nat → Locked
  faults : Nat → Faults
  /-- A step that gives nothing back raises. -/
  raises : Nat → Option Raised
  /-- The bytes that come before the channel ends, or before it raises. -/
  receives : Nat → Except Raised (List UInt8)
  spawns : Nat → Except Raised Process
  /-- `os.urandom(32)` -/
  nonces : Nat → List UInt8
  /-- the pattern of `float(deadline.expires_at)` -/
  expiries : Nat → Nat
  /-- `close` raises, or the handle is not closed after it. -/
  closes : Nat → Option Raised
  /-- `poll` has a status. -/
  polls : Nat → Except Raised Bool
  /-- `_clear_error` -/
  clears : Nat → Bool
  reads : Nat → Reading
  writes : Nat → Writing
  /-- the rounds of `_close_output` before the deadline -/
  rounds : Nat → Nat

/-- A part of a session. -/
abbrev Program (α : Type) : Type := EStateM Raised Session α

/-- One thing that others do. -/
def Session.suffer (s : Session) : Other → Session
  | .requestStop => { s with stop := true }
  | .ledger faults op => { s with ledger := (s.ledger.step faults op).2 }

/-- A moment passes. -/
def Session.tick (world : World) (s : Session) : Session :=
  { (world.others s.now).foldl Session.suffer s with now := s.now + 1 }

section

variable (config : Config) (world : World)

/-- A question to the outside. Others have their turn first. -/
def ask {α : Type} (question : Nat → α) : Program α := fun s =>
  .ok (question s.now) (s.tick world)

/-- `_need`. -/
def need (condition : Prop) [Decidable condition] : Program Unit :=
  if condition then pure () else throw (.session .state)

/-- A codec raises. -/
def ofWire {α : Type} : Except WorkerProtocolError α → Program α
  | .ok a => pure a
  | .error _ => throw .wire

/-- A step that gives nothing back. -/
def mayRaise : Program Unit := do
  match ← ask world world.raises with
  | none => pure ()
  | some e => throw e

/-- `_stop.is_set()`. -/
def stopIsSet : Program Bool := do
  ask world fun _ => ()
  return (← get).stop

/-- `contextlib.suppress`. -/
def suppress (kinds : List Raised) (x : Program Unit) : Program Unit :=
  tryCatch x fun e => if e ∈ kinds then pure () else throw e

/-- An exception makes the session uncertain. -/
def orUncertain (x : Program Unit) : Program Unit :=
  tryCatch x fun _ => modify fun s => { s with uncertain := true }

/-- Something is written down. -/
def note (exchange : Exchange) : Program Unit :=
  modify fun s => { s with history := s.history ++ [exchange] }

/-! ### The ledger -/

/-- The session after a call on the ledger. -/
def Session.called (op : Op) (s : Session) : Session :=
  { s with
    ledger := (s.ledger.step (world.faults s.now) op).2
    now := s.now + 1
    asked := s.asked ++ [⟨op, world.faults s.now, s.ledger, s.owned⟩] }

/-- A call on the ledger, with the lock. -/
def call (op : Op) : Program Answer := fun s =>
  match (s.ledger.step (world.faults s.now) op).1 with
  | .ok answer => .ok answer (s.called world op)
  | .error failure => .error (.budget failure) (s.called world op)

/-- `_coordinated`. The loop around the lock ends when it is there, or with the deadline. -/
def coordinated {α : Type} (x : Program α) : Program α := do
  if ← ask world world.locks then x else throw .resultFrame

/-! ### The channel, the process and the handles -/

/-- `RawChannel.recv_exact`. -/
def recvExact (size : Nat) : Program (List UInt8) := do
  match ← ask world world.receives with
  | .error e => throw e
  | .ok bytes => if bytes.length < size then throw .transport else return bytes.take size

/-- `RawChannel.send_all`. -/
def sendAll (_packet : List UInt8) : Program Unit := mayRaise world

/-- `_control`. -/
def control (allowed : List Kind) : Program (Kind × List UInt8) := do
  let (kind, size) ← ofWire (parseHeader (← recvExact world headerBytes))
  need (kind ∈ allowed ∧ size ≤ controlBytes)
  return (kind, ← recvExact world size)

/-- Something is known of a handle. -/
def Session.setHandle (s : Session) (name : HandleName) (handle : Handle) : Session :=
  { s with owned := { s.owned with handles := Function.update s.owned.handles name handle } }

/-- `close`, and the check that follows it. -/
def closeHandle (name : HandleName) : Program Unit := do
  match ← ask world world.closes with
  | none => modify fun s => s.setHandle name .closed
  | some e => do
      modify fun s => s.setHandle name .doubtful
      throw e

/-- `Popen.poll`. -/
def poll : Program Bool := do
  match ← ask world world.polls with
  | .error e => throw e
  | .ok exited => do
      if exited then modify fun s => { s with owned := { s.owned with child := .reaped } }
      return exited

/-- `poll`, where an `OSError` is no status. -/
def pollOrNot : Program Bool :=
  tryCatch (poll world) fun e => if e = .os then return false else throw e

/-- The loop of `_reap`, and the last look after it. -/
def reapLoop : Nat → Program Bool
  | 0 => pollOrNot world
  | attempts + 1 => do
      if ← pollOrNot world then return true
      -- `kill`
      suppress [.os] (mayRaise world)
      -- `wait`
      suppress [.os, .timeoutExpired] (mayRaise world)
      reapLoop attempts

/-- `_reap`. -/
def reap (graceful : Bool) : Program Bool := do
  let s ← get
  match s.process with
  | none => return !s.spawnUnknown
  | some _ => do
      if graceful then suppress [.os, .timeoutExpired] (mayRaise world)
      reapLoop world reapAttempts

/-! ### The receiver -/

/-- The lock of a section of the receiver. -/
def slice : Program Unit := do
  match ← ask world world.slices with
  | .acquired => pure ()
  | .refused failure => throw (.receiver failure)

/-- A refusal of the receiver. -/
def ofReceiver {α : Type} : Except ReceiverFailure α → Program α
  | .ok a => pure a
  | .error failure => throw (.receiver failure)

/-- `_receiver`, where it is not `None`. -/
def theReceiver : Program Receiver := do
  match (← get).receiver with
  | some r => return r
  | none => throw (.session .state)

/-- The receiver changes. -/
def setReceiver (r : Receiver) : Program Unit :=
  modify fun s => { s with receiver := some r }

/-- The completion of an operation of the receiver is set, or is a new one. -/
def setDone (done : Bool) : Program Unit :=
  modify fun s => { s with operationDone := done }

/-- `ResultReceiver.__init__`, and the assignment to `_receiver`. -/
def newReceiver (identity : ResultIdentity) : Program Unit := do
  slice world
  let answer ← tryCatch
    (call world (.beginOutput (some config.token) (.int config.limits.maxFrameBytes)
      (.int config.profile.outputOverheadBytes)))
    fun _ => throw (.receiver .budget)
  match answer with
  | .pin pin =>
      modify fun s => { s with
        receiver := some { pin, expected := identity, limits := config.limits }
        operationDone := false }
  | _ => throw .other

/-- `ResultReceiver.receive`. -/
def receive : Program Unit := do
  slice world
  let r ← theReceiver
  let r ← ofReceiver (r.startReceive .raw 0)
  setReceiver r
  setDone false
  match ← ask world world.reads with
  | .interrupted => do
      setReceiver { r with uncertain := true }
      setDone true
      throw .other
  | .arrival arrival => do
      let captured := readPayload r.expected r.limits arrival
      let r := { r with uncertain := r.uncertain || (!captured.isOk && arrival.unclear) }
      setReceiver r
      match ← ask world world.slices with
      | .refused failure => do
          setDone true
          throw (.receiver failure)
      | .acquired => do
          setReceiver (r.finishReceive captured)
          setDone true
          let owner ← ofReceiver captured
          note (.frame (← get).job owner.wire)

/-- `ResultReceiver.send_to`. -/
def sendTo (channel : ChannelKind) : Program ResultSummary := do
  slice world
  let r ← theReceiver
  let r ← ofReceiver (r.startSend channel 0)
  setReceiver r
  setDone false
  let body := (r.owner.map fun owner => owner.wire.drop headerSize).getD []
  match ← ask world world.writes with
  | .interrupted count => do
      note (.client (← get).job (body.take count))
      setReceiver { r with uncertain := true }
      setDone true
      throw .other
  | .sent count failure unclear => do
      note (.client (← get).job (if failure.isSome then body.take count else body))
      let r := { r with uncertain := r.uncertain || (failure.isSome && unclear) }
      setReceiver r
      match ← ask world world.slices with
      | .refused failure => do
          setDone true
          throw (.receiver failure)
      | .acquired => do
          setReceiver (r.finishSend failure)
          setDone true
          match failure, r.summary with
          | some failure, _ => throw (.receiver failure)
          | none, some summary => return summary
          | none, none => throw (.receiver .state)

/-- The last section of `ResultReceiver.close`. -/
def endOutput : Program OutputReleaseOutcome := do
  slice world
  let r ← theReceiver
  if r.state = .closed then return .alreadyCleared
  let answer ← tryCatch (do return .ok (← call world r.endCall)) fun e =>
    return .error (match e with | .budget failure => failure | _ => .fault)
  setReceiver (r.finishClose (outputAnswer answer))
  match outputAnswer answer with
  | .ok outcome => return outcome
  | .error _ => throw (.receiver .budget)

/-- `ResultReceiver.close`. -/
def closeReceiver : Program OutputReleaseOutcome := do
  slice world
  let r ← theReceiver
  let r := r.settle (← get).operationDone
  setReceiver r
  match r.startClose with
  | .already => return .alreadyCleared
  | .refused => throw (.receiver .state)
  | .discards _ r => do
      setReceiver { r with discarded := true }
      endOutput world

/-! ### `_cleanup` -/

/-- The loop of `_close_output`, with the rounds that are left of it. -/
def closeOutputLoop : Nat → Program OutputReleaseOutcome
  | 0 => throw .resultFrame
  | rounds + 1 =>
      tryCatch (closeReceiver world) fun e =>
        if e = .receiver .busy then closeOutputLoop rounds else throw e

/-- `_close_output`. -/
def closeOutput : Program OutputReleaseOutcome := do
  need ((← get).receiver.isSome = true)
  closeOutputLoop world (← ask world world.rounds)

/-- The CLOSE of `_cleanup`. -/
def farewell (graceful : Bool) : Program Unit := do
  if graceful && (← get).channel then
    if !(← stopIsSet world) then
      suppress [.transport, .resultFrame, .os] do
        sendAll world (← ofWire encodeClose)

/-- A handle that the session refers to is closed in `_cleanup`. -/
def closeKnown (name : HandleName) : Program Unit := do
  if (← get).has name then orUncertain (closeHandle world name)

/-- The output in `_cleanup`. -/
def clearOutput : Program Bool := do
  if (← get).receiver.isNone then return true
  let clean ← tryCatch (do return decide ((← closeOutput world) ≠ .held)) fun _ => return false
  if clean then modify fun s => { s with receiver := none }
  return clean

/-- The confirmation of `_cleanup`. -/
def Session.confirmation (s : Session) (terminated outputClean : Bool) : CleanupConfirmation where
  processes := terminated && !s.spawnUnknown
  threads := true
  pipes := terminated && !s.uncertain
  handles := !s.uncertain
  output := outputClean && !s.uncertain

/-- The reservation in `_cleanup`. -/
def giveBack (terminated outputClean : Bool) : Program ReleaseOutcome :=
  coordinated world do
    let _ ← call world (.beginDrain (some config.token))
    let confirmation := (← get).confirmation terminated outputClean
    match ← call world (.release (some config.token) (some confirmation)) with
    | .release outcome => return outcome
    | _ => throw .other

/-- The handles in `_cleanup`. The input of a worker that may be alive is not touched. -/
def closeHandles (terminated : Bool) : Program Unit := do
  if terminated then closeKnown world .stdin
  closeKnown world .childSock
  closeKnown world .sock

/-- The output and the reservation in `_cleanup`. -/
def letGo (terminated : Bool) : Program ReleaseOutcome := do
  let outputClean ← clearOutput world
  tryCatch (giveBack config world terminated outputClean) fun _ => return .held

/-- `_cleanup`. -/
def cleanup (graceful : Bool) : Program ReleaseOutcome := do
  if !(← get).adopted then return .held
  modify fun s => { s with state := .closing }
  farewell world graceful
  modify fun s => { s with stop := true }
  let terminated ← tryCatch (reap world graceful) fun _ => do
    modify fun s => { s with uncertain := true }
    return false
  closeHandles world terminated
  let outcome ← letGo config world terminated
  modify fun s => { s with state := if outcome = .held then .held else .closed }
  return outcome

/-! ### The calls -/

/-- `_exclusive`. -/
def exclusive : Program Unit := do
  need ((← ask world world.admitted) = true)

/-- The `except` of `open`, `query` and `send_result_to`. -/
def orCleanup {α : Type} (category : SessionFailure) (body : Program α) : Program α :=
  tryCatch body fun _ => do
    let clear ← ask world world.clears
    modify fun s => { s with
      uncertain := s.uncertain || !clear
      history := if s.adopted then s.history ++ [.failed s.job] else s.history }
    let _ ← cleanup config world false
    throw (.session category)

/-- `_send_pipe`. -/
def sendPipe (_packet : List UInt8) : Program Unit := do
  mayRaise world
  need ((← stopIsSet world) = false)
  closeHandle world .stdin

/-- `_exchange_init`. -/
def exchangeInit (snapshot : List UInt8) : Program Unit := do
  let nonce ← ask world world.nonces
  let expected := config.digest nonce snapshot
  let value ← ofWire
    (SecretInit.make config.key config.limits (← ask world world.expiries) nonce snapshot)
  sendPipe world (← ofWire (encodeInit value))
  let (kind, body) ← control world [.opened, .error]
  need (kind = .opened)
  need ((← ofWire (decodeOpened body)) = expected)
  mayRaise world

/-- The worker is spawned. -/
def spawn : Program Process := do
  -- if `Popen` raises, a child may exist
  modify fun s => { s with spawnUnknown := true, owned := { s.owned with child := .unknown } }
  match ← ask world world.spawns with
  | .error e => throw e
  | .ok process => do
      modify fun s => { s with
        process := some process
        spawnUnknown := false
        owned :=
          { child := .running
            handles := Function.update s.owned.handles .stdin
              (if process.stdin then .opened else .absent) } }
      return process

/-- `socket.socketpair`. -/
def socketPair : Program Unit := do
  mayRaise world
  modify fun s => { ((s.setHandle .sock .opened).setHandle .childSock .opened) with
    sock := true, childSock := true }

/-- `_open`, from the spawn to the answer of the worker. -/
def connect (process : Process) (snapshot : List UInt8) : Program Unit := do
  mayRaise world
  need ((← stopIsSet world) = false)
  closeHandle world .childSock
  modify fun s => { s with childSock := false, channel := true }
  let (_, body) ← control world [.guardReady]
  need ((← ofWire (decodeGuard body)) = (process.pid, ownPid, config.profile.addressBytes))
  need (process.stdin = true)
  exchangeInit config world snapshot

/-- `_open`. -/
def openBody (snapshot : List UInt8) : Program Unit := do
  coordinated world do
    let _ ← call world (.adoptSession (some config.token))
    modify fun s => { s with adopted := true }
  modify fun s => { s with state := .opening }
  need ((← stopIsSet world) = false)
  socketPair world
  -- `set_inheritable`, `fileno`
  mayRaise world
  connect config world (← spawn world) snapshot
  need ((← stopIsSet world) = false)
  note .opened
  modify fun s => { s with state := .ready }

/-- `open`. -/
def open_ (snapshot : List UInt8) : Program Unit := do
  exclusive world
  need ((← get).state = .new ∧ (← stopIsSet world) = false)
  need (1 ≤ snapshot.length ∧ snapshot.length ≤ maxSnapshotBytes)
  need ((← ask world world.daemon) = false)
  orCleanup config world .open (openBody config world snapshot)

/-- An ERROR in `_query`. -/
def errorReply (body : List UInt8) : Program ErrorReply := do
  let reply ← ofWire (decodeError body)
  need (reply.key = config.key ∧ reply.jobId = (← get).job)
  mayRaise world
  note (.reply reply)
  return reply

/-- A RESULT in `_query`: the frame, and the DONE after it. -/
def result : Program Unit := do
  newReceiver config world (← ofWire (config.key.resultIdentity (← get).job))
  receive world
  let (_, body) ← control world [.done]
  need ((← ofWire (decodeDone body)) = (config.key, (← get).job))
  mayRaise world
  modify fun s => { s with
    state := .result
    history := s.history ++
      [.done s.job (((s.receiver.bind (·.owner)).map (·.wire)).getD [])] }

/-- `_query`. -/
def queryBody (sql : List UInt8) : Program (Option ErrorReply) := do
  need ((← get).channel = true ∧ (← stopIsSet world) = false)
  modify fun s => { s with job := s.job + 1, history := s.history ++ [.query (s.job + 1)] }
  let expiry ← ask world world.expiries
  sendAll world (← ofWire ((Wire.Query.make config.key (← get).job expiry sql).bind encodeQuery))
  let (kind, body) ← control world [.error, .result]
  if kind = .error then
    return some (← errorReply config world body)
  else
    result config world
    return none

/-- `query`. -/
def query (sql : List UInt8) : Program (Option ErrorReply) := do
  exclusive world
  need ((← get).state = .ready ∧ (← get).job < maxJob)
  need (1 ≤ sql.length ∧ sql.length ≤ maxSql)
  let result ← orCleanup config world .job (queryBody config world sql)
  if result.any fun reply => !reply.canContinue then
    let _ ← cleanup config world false
  return result

/-- The body of `send_result_to`. -/
def sendBody (channel : ChannelKind) : Program ResultSummary := do
  need ((← stopIsSet world) = false)
  let summary ← sendTo world channel
  need ((← closeOutput world) ≠ .held)
  modify fun s => { s with receiver := none, state := .ready }
  return summary

/-- `send_result_to`. -/
def sendResultTo (channel : ChannelKind) : Program ResultSummary := do
  exclusive world
  need ((← get).state = .result ∧ (← get).receiver.isSome = true)
  orCleanup config world .output (sendBody world channel)

/-- `close`. -/
def close : Program ReleaseOutcome := do
  exclusive world
  let s ← get
  if s.state = .closed then return .alreadyReleased
  need (s.adopted = true)
  cleanup config world (s.state = .ready ∨ s.state = .result)

/-! ### Runs -/

/-- A call of a session. -/
inductive Call where
  | open (snapshot : List UInt8)
  | query (sql : List UInt8)
  | sendResultTo (channel : ChannelKind)
  | requestStop
  | close

/-- The call is made. -/
def perform : Call → Program Unit
  | .open snapshot => open_ config world snapshot
  | .query sql => do let _ ← query config world sql
  | .sendResultTo channel => do let _ ← sendResultTo config world channel
  | .requestStop => modify fun s => { s with stop := true }
  | .close => do let _ ← close config world

/-- The session after a call, whether it returned or raised. -/
def Session.after (s : Session) (call : Call) : Session :=
  match perform config world call s with
  | .ok _ s' => s'
  | .error _ s' => s'

/-- The session after some calls. -/
def Session.run (s : Session) (calls : List Call) : Session :=
  calls.foldl (fun s call => s.after config world call) s

end

end MaskGateway.Runtime.WorkerSession
