import MaskGateway.Runtime.WorkerJob

/-!
# `MaskGateway.Runtime.WorkerLink`: a session and its worker, connected

`runtime/worker_process.py` on one side (`_next`, `_failure`, `_one_job`, `_loop`) and `query`,
`_query` and `send_result_to` of `runtime/worker_session.py` on the other, joined by a byte queue in
each direction. Each side is a state machine whose states are its blocking calls: a `recv_exact`
that waits for its bytes, a `send_all` that still has bytes to hand over. A send hands over any
number of bytes at a time, so that a packet may cross in pieces, and the two sides move in any
order.

There are no deadlines, no idle expiry and no stop request. What else can end a session on the
parent's side is the event `parentFails`: a call on the ledger is refused, the client is gone,
memory is short. Then the session is closed and the worker is killed or finds its channel closed,
which is `childGone`.

`produced`, `returned` and `sent` record what happened. No step reads them.
-/

set_option autoImplicit false

namespace MaskGateway.Runtime.Worker

open Lib MaskGateway.Pgwire MaskGateway.Runtime.Wire

/-! ### The states -/

/-- Why a session is closed. -/
inductive Why where
  /-- the worker may not go on after its reply -/
  | fatalReply
  /-- a step of the parent failed -/
  | failed
  /-- `close` was called -/
  | asked
  /-- a message of the worker was refused -/
  | refused
  deriving DecidableEq

/-- What `query` ends in: an error reply, or a frame that `send_result_to` can send. -/
inductive Answer where
  | error (reply : ErrorReply)
  | frame (bytes : List UInt8)
  deriving DecidableEq

/-- The parent. A `recv_exact` knows from the state how many bytes it waits for. -/
inductive Parent where
  /-- `READY` -/
  | ready
  /-- `send_all` of a QUERY -/
  | asking (rest : List UInt8)
  /-- the header of an ERROR or a RESULT -/
  | reply
  /-- its body -/
  | replyBody (kind : Kind) (size : Nat)
  /-- the header of a frame -/
  | frameHeader
  /-- the rest of the frame -/
  | frameBody (header : List UInt8) (frameBytes : Nat)
  /-- the header of a DONE -/
  | done (frame : List UInt8)
  /-- its body -/
  | doneBody (frame : List UInt8) (size : Nat)
  /-- `RESULT` -/
  | result (frame : List UInt8)
  /-- `send_all` of a CLOSE -/
  | closing (rest : List UInt8)
  /-- `CLOSED` or `HELD` -/
  | closed (why : Why)

/-- A step of the job that a send belongs to. -/
inductive Sent where
  | error
  | result
  | frame
  | done
  deriving DecidableEq

/-- Bytes for one `send_all`. -/
structure Outgoing where
  what : Sent
  bytes : List UInt8

/-- The worker. -/
inductive Child where
  /-- `_next`, before the first byte -/
  | waiting
  /-- `_next`, before the rest of the header -/
  | header (first : List UInt8)
  /-- `_next`, before the body -/
  | body (kind : Kind) (size : Nat)
  /-- `_one_job`: what the current `send_all` has left, and the sends after it -/
  | sending (rest : List UInt8) (queue : List Outgoing) (continuing : Bool)
  /-- `_loop` returned -/
  | ended (code : Nat)
  /-- an exception left `_loop` -/
  | refused
  /-- killed, or stopped by a closed channel -/
  | gone

/-- A session and its worker. -/
structure Link where
  parent : Parent := .ready
  /-- `_job` -/
  job : Nat := 0
  child : Child := .waiting
  /-- `previous` -/
  previous : Nat := 0
  toChild : List UInt8 := []
  toParent : List UInt8 := []
  /-- what each job ended in, on the worker's side -/
  produced : List Answer := []
  /-- what each `query` ended in -/
  returned : List Answer := []
  /-- the sends that the worker has started, with their job -/
  sent : List (Nat × Sent) := []

/-! ### The worker -/

/-- `_failure`. -/
def failure : Raised → WireFailure
  | .memoryError => .memory
  | .workerInputError => .protocol
  | .workerProtocolError => .protocol
  | .workerSessionStateError => .connection
  | .capabilityError => .connection
  | .databaseError => .connection
  | .snapshotError unavailable => if unavailable then .resource else .protocol
  | .resultFrameError memoryExhausted deadline =>
      if memoryExhausted then .memory else if deadline then .deadline else .protocol
  | .transportError timeout => if timeout then .deadline else .connection
  | _ => .internal

/-- The name of a member of `WireFailure`. -/
def wireName : WireFailure → String
  | .query => "QUERY"
  | .timeout => "TIMEOUT"
  | .type => "TYPE"
  | .limit => "LIMIT"
  | .memory => "MEMORY"
  | .resource => "RESOURCE"
  | .connection => "CONNECTION"
  | .internal => "INTERNAL"
  | .protocol => "PROTOCOL"
  | .deadline => "DEADLINE"

/-- `WireFailure[name]`. -/
def wireNamed (name : String) : Option WireFailure :=
  [WireFailure.query, .timeout, .type, .limit, .memory, .resource, .connection, .internal,
    .protocol, .deadline].find? (wireName · = name)

/-- `request.sql.decode("utf-8")`. -/
def decodeSql (sql : List UInt8) : Except Raised (List Char) :=
  match sql.toByteArray.utf8Decode? with
  | none => .error .other
  | some text => .ok text.toList

/-- An error of the wire, among the exceptions. -/
def ofWire {α : Type} (x : Except WorkerProtocolError α) : Except Raised α :=
  x.mapError fun _ => .workerProtocolError

/-- The `try` block of `_one_job`. -/
def compute (world : JobWorld) (request : Query) (limits : ResultLimits) :
    Except Raised JobOutcome := do
  raise world.before
  let sql ← decodeSql request.sql
  let identity ← ofWire (request.key.resultIdentity request.jobId)
  let outcome := runJob world sql identity limits
  raise (if outcome.failure = none ∨ outcome.canContinue = true then world.after else none)
  return outcome

/-- An ERROR, as `_one_job` sends it. -/
def sendError (request : Query) (category : WireFailure) (canContinue : Bool) :
    Except Raised (Answer × List Outgoing × Bool) := do
  let reply ← ofWire (ErrorReply.make request.key request.jobId category canContinue)
  let bytes ← ofWire (encodeError reply)
  return (.error reply, [⟨.error, bytes⟩], canContinue)

/-- `_one_job`: what the job ended in, the sends and whether the worker goes on. The last encoder
is called after the first send in the source; it is never the one that raises. -/
def oneJob (world : JobWorld) (request : Query) (limits : ResultLimits) :
    Except Raised (Answer × List Outgoing × Bool) :=
  match compute world request limits with
  | .error e => sendError request (failure e) false
  | .ok outcome =>
      match outcome.failure with
      | some category =>
          match wireNamed category.name with
          | none => .error .other
          | some category => sendError request category outcome.canContinue
      | none =>
          match outcome.frame with
          | none => .error .workerInputError
          | some frame => do
              let notice ← ofWire encodeResultNotice
              let done ← ofWire (encodeDone request.key request.jobId)
              return (.frame frame, [⟨.result, notice⟩, ⟨.frame, frame⟩, ⟨.done, done⟩], true)

/-- The bytes that the worker waits for. -/
def Child.wants : Child → Option Nat
  | .waiting => some 1
  | .header _ => some (headerBytes - 1)
  | .body _ size => some size
  | _ => none

/-- The worker goes on to the first of the sends. -/
def startSends (s : Link) (continuing : Bool) : List Outgoing → Link
  | [] => { s with child := if continuing then .waiting else .ended 1 }
  | first :: queue =>
      { s with child := .sending first.bytes queue continuing
               sent := s.sent ++ [(s.previous, first.what)] }

/-- A QUERY with its body: `_loop` and `_one_job`. -/
def receiveQuery (key : SessionKey) (limits : ResultLimits) (world : JobWorld) (data : List UInt8)
    (s : Link) : Link :=
  match decodeQuery data with
  | .error _ => { s with child := .refused }
  | .ok request =>
      if request.key = key ∧ request.jobId = s.previous + 1 then
        match oneJob world request limits with
        | .error _ => { s with child := .refused, previous := request.jobId }
        | .ok (answer, queue, continuing) =>
            startSends { s with previous := request.jobId, produced := s.produced ++ [answer] }
              continuing queue
      else { s with child := .refused }

/-- `_next` with the bytes that it waited for, and what `_loop` does with a message. -/
def Child.receive (key : SessionKey) (limits : ResultLimits) (world : JobWorld)
    (data : List UInt8) (s : Link) : Child → Link
  | .waiting => { s with child := .header data }
  | .header first =>
      match parseHeader (first ++ data) with
      | .error _ => { s with child := .refused }
      | .ok (kind, size) =>
          if kind = .query ∨ kind = .close then { s with child := .body kind size }
          else { s with child := .refused }
  | .body kind _ =>
      if kind = .close then { s with child := .ended 0 }
      else receiveQuery key limits world data s
  | _ => s

/-- The worker hands over `n` bytes. -/
def childSend (n : Nat) (s : Link) : Option Link :=
  match s.child with
  | .sending rest queue continuing =>
      if 1 ≤ n ∧ n ≤ rest.length then
        let s := { s with toParent := s.toParent ++ rest.take n
                          child := .sending (rest.drop n) queue continuing }
        some (if rest.drop n = [] then startSends s continuing queue else s)
      else none
  | _ => none

/-! ### The parent -/

/-- `_CONTROL_BYTES`. -/
def controlBytes : Nat := 256

/-- The first half of `_control`. -/
def control (allowed : List Kind) (data : List UInt8) :
    Except WorkerProtocolError (Kind × Nat) := do
  let (kind, size) ← parseHeader data
  need (kind ∈ allowed ∧ size ≤ controlBytes)
  return (kind, size)

/-- The bytes that the parent waits for. -/
def Parent.wants : Parent → Option Nat
  | .reply => some headerBytes
  | .replyBody _ size => some size
  | .frameHeader => some headerSize
  | .frameBody header frameBytes => some (frameBytes - header.length)
  | .done _ => some headerBytes
  | .doneBody _ size => some size
  | _ => none

/-- An error reply, in `_query` and at the end of `query`. -/
def receiveError (key : SessionKey) (job : Nat) (data : List UInt8) :
    Except WorkerProtocolError (Parent × Option Answer) := do
  let reply ← decodeError data
  need (reply.key = key ∧ reply.jobId = job)
  return (if reply.canContinue then .ready else .closed .fatalReply, some (.error reply))

/-- A step of `_query` with the bytes that it waited for: the next state, and what the call
returns when it ends. The receiver reads and validates the frame (`_read_payload`). -/
def Parent.receive (key : SessionKey) (limits : ResultLimits) (job : Nat) (data : List UInt8) :
    Parent → Except WorkerProtocolError (Parent × Option Answer)
  | .reply => do
      let (kind, size) ← control [.error, .result] data
      return (.replyBody kind size, none)
  | .replyBody kind _ =>
      if kind = .error then receiveError key job data else .ok (.frameHeader, none)
  | .frameHeader => do
      let identity ← key.resultIdentity job
      let header ← (inspectResultHeader data identity limits).mapError fun _ => .refused
      return (.frameBody data header.frameBytes, none)
  | .frameBody header _ => do
      let identity ← key.resultIdentity job
      let valid ← (validateResult (header ++ data) identity limits).mapError fun _ => .refused
      return (.done valid.wire, none)
  | .done frame => do
      let (_, size) ← control [.done] data
      return (.doneBody frame size, none)
  | .doneBody frame _ => do
      let done ← decodeDone data
      need (done = (key, job))
      return (.result frame, some (.frame frame))
  | p => .ok (p, none)

/-- `query` and `_query`, up to the `send_all`. The two first conditions are refused without a
trace; a text that is not one ends the session. -/
def query (key : SessionKey) (sql : List UInt8) (expiresAt : Expiry) (s : Link) : Option Link :=
  match s.parent with
  | .ready =>
      if s.job < maxId ∧ 1 ≤ sql.length ∧ sql.length ≤ maxSqlBytes then
        let s := { s with job := s.job + 1 }
        match (Query.make key s.job expiresAt.bits sql).bind encodeQuery with
        | .error _ => some { s with parent := .closed .failed }
        | .ok packet => some { s with parent := .asking packet }
      else none
  | _ => none

/-- The parent hands over `n` bytes. -/
def parentSend (n : Nat) (s : Link) : Option Link :=
  match s.parent with
  | .asking rest =>
      if 1 ≤ n ∧ n ≤ rest.length then
        some { s with toChild := s.toChild ++ rest.take n
                      parent := if rest.drop n = [] then .reply else .asking (rest.drop n) }
      else none
  | .closing rest =>
      if 1 ≤ n ∧ n ≤ rest.length then
        some { s with toChild := s.toChild ++ rest.take n
                      parent := if rest.drop n = [] then .closed .asked
                        else .closing (rest.drop n) }
      else none
  | _ => none

/-- `send_result_to`, and whether the client took the result. -/
def sendResultTo (taken : Bool) (s : Link) : Option Link :=
  match s.parent with
  | .result _ => some { s with parent := if taken then .ready else .closed .failed }
  | _ => none

/-- `close`: a CLOSE is sent when a session is idle. -/
def close (s : Link) : Option Link :=
  match s.parent, encodeClose with
  | .ready, .ok packet => some { s with parent := .closing packet }
  | .result _, .ok packet => some { s with parent := .closing packet }
  | _, _ => none

/-- A step of the parent fails in the middle of a call. -/
def parentFails (s : Link) : Option Link :=
  match s.parent with
  | .ready => none
  | .result _ => none
  | .closed _ => none
  | _ => some { s with parent := .closed .failed }

/-! ### The machine -/

/-- What can happen. -/
inductive Event where
  | query (sql : List UInt8) (expiresAt : Expiry)
  | sendResultTo (taken : Bool)
  | close
  | parentSend (n : Nat)
  | parentReceive
  | parentFails
  | childSend (n : Nat)
  | childReceive (world : JobWorld)
  | childGone

/-- A `recv_exact` of the parent gets its bytes. -/
def parentReceive (key : SessionKey) (limits : ResultLimits) (s : Link) : Option Link :=
  match s.parent.wants with
  | none => none
  | some size =>
      if size ≤ s.toParent.length then
        let left := { s with toParent := s.toParent.drop size }
        match s.parent.receive key limits s.job (s.toParent.take size) with
        | .error _ => some { left with parent := .closed .refused }
        | .ok (parent, answer) =>
            some { left with parent := parent, returned := s.returned ++ answer.toList }
      else none

/-- A `recv_exact` of the worker gets its bytes. -/
def childReceive (key : SessionKey) (limits : ResultLimits) (world : JobWorld) (s : Link) :
    Option Link :=
  match s.child.wants with
  | none => none
  | some size =>
      if size ≤ s.toChild.length then
        some (s.child.receive key limits world (s.toChild.take size)
          { s with toChild := s.toChild.drop size })
      else none

/-- The worker is killed, or finds the channel closed, once the session is closed. -/
def childGone (s : Link) : Option Link :=
  match s.parent with
  | .closed _ => some { s with child := .gone }
  | _ => none

/-- A step of the session, of its worker or of the caller. -/
def step (key : SessionKey) (limits : ResultLimits) (s : Link) : Event → Option Link
  | .query sql expiresAt => query key sql expiresAt s
  | .sendResultTo taken => sendResultTo taken s
  | .close => close s
  | .parentSend n => parentSend n s
  | .parentReceive => parentReceive key limits s
  | .parentFails => parentFails s
  | .childSend n => childSend n s
  | .childReceive world => childReceive key limits world s
  | .childGone => childGone s

end MaskGateway.Runtime.Worker
