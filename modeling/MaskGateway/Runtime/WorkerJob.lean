import MaskGateway.Pgwire.ResultEncoder
import MaskGateway.Runtime.WorkerProtocol

/-!
# `MaskGateway.Runtime.WorkerJob`: one job of a worker

`runtime/worker_job.py`, and the exception classes that it and `runtime/worker_process.py` tell
apart. A job runs one statement on the adapter of the worker and ends in a `JobOutcome`: a frame,
or the category of a failure and whether the worker may go on.

What the adapter does is a `JobWorld`: what each call of it returns or raises. Python dispatches on
the exact type of an exception and on at most one attribute of it, which is what `Raised` keeps.
-/

set_option autoImplicit false

namespace MaskGateway.Runtime.Worker

open Lib Db MaskGateway.Pgwire MaskGateway.Runtime.Wire

/-! ### Exceptions -/

/-- `ExecutionFailure`. -/
inductive ExecutionFailure where
  | query
  | timeout
  | resource
  | connection
  | internal
  deriving DecidableEq

/-- `EncodeFailure`. The encoder of `Pgwire.ResultEncoder` raises three of them; memory and
deadline come from its surroundings. -/
inductive EncodeFailure where
  | type
  | limit
  | memory
  | deadline
  | protocol
  deriving DecidableEq

/-- The name of a member of `EncodeFailure`. -/
def EncodeFailure.name : EncodeFailure → String
  | .type => "TYPE"
  | .limit => "LIMIT"
  | .memory => "MEMORY"
  | .deadline => "DEADLINE"
  | .protocol => "PROTOCOL"

/-- An exception, as far as the worker looks at it: its exact type and the attribute that the
handler reads. `none` is an attribute that is not a member of its enumeration. -/
inductive Raised where
  | typedExecutionTimeout
  | typedExecutionError (category : Option ExecutionFailure)
  | invalidQuery
  | queryRejected
  | databaseResultTypeError
  | encodeError (category : Option EncodeFailure)
  | memoryError
  /-- `memory_exhausted`, and whether the category is `DEADLINE` -/
  | resultFrameError (memoryExhausted deadline : Bool)
  | workerInputError
  | workerProtocolError
  | workerSessionStateError
  | capabilityError
  | databaseError
  /-- whether the category is `UNAVAILABLE` -/
  | snapshotError (unavailable : Bool)
  /-- whether the kind is `TIMEOUT` -/
  | transportError (timeout : Bool)
  /-- any other type, subclasses of the above among them -/
  | other
  deriving DecidableEq

/-- What the encoder of a result raises. -/
def Raised.ofEncoder : Encoder.EncodeFailure → Raised
  | .type => .encodeError (some .type)
  | .limit => .encodeError (some .limit)
  | .protocol => .encodeError (some .protocol)

/-! ### Failures of a job -/

/-- `JobFailure`. -/
inductive JobFailure where
  | query
  | timeout
  | type
  | limit
  | memory
  | resource
  | connection
  | internal
  | protocol
  | deadline
  deriving DecidableEq

/-- The name of a member of `JobFailure`. -/
def JobFailure.name : JobFailure → String
  | .query => "QUERY"
  | .timeout => "TIMEOUT"
  | .type => "TYPE"
  | .limit => "LIMIT"
  | .memory => "MEMORY"
  | .resource => "RESOURCE"
  | .connection => "CONNECTION"
  | .internal => "INTERNAL"
  | .protocol => "PROTOCOL"
  | .deadline => "DEADLINE"

/-- `JobFailure[name]`. -/
def JobFailure.named (name : String) : Option JobFailure :=
  [JobFailure.query, .timeout, .type, .limit, .memory, .resource, .connection, .internal,
    .protocol, .deadline].find? (·.name = name)

/-- `_CANDIDATES`. -/
def candidates : List JobFailure := [.query, .timeout, .type, .limit]

/-- `_TYPED`. -/
def typed : ExecutionFailure → Option JobFailure
  | .query => some .query
  | .resource => some .resource
  | .connection => some .connection
  | .internal => some .internal
  | .timeout => none

/-- `_classify`. The table `_ENCODE` is by name, and total when the module is loaded. -/
def classify : Raised → JobFailure
  | .typedExecutionTimeout => .timeout
  | .typedExecutionError (some category) => (typed category).getD .internal
  | .invalidQuery => .query
  | .queryRejected => .query
  | .databaseResultTypeError => .type
  | .encodeError (some category) => (JobFailure.named category.name).getD .internal
  | .memoryError => .memory
  | .resultFrameError memoryExhausted deadline =>
      if memoryExhausted then .memory else if deadline then .deadline else .protocol
  | _ => .internal

/-- What a frame of an outcome must be. -/
def FrameSize (frame : List UInt8) : Prop :=
  headerSize ≤ frame.length ∧ frame.length ≤ 16 * 1024 * 1024

/-- `JobOutcome`. -/
structure JobOutcome where
  frame : Option (List UInt8)
  failure : Option JobFailure
  canContinue : Bool
  /-- `JobOutcome.__post_init__` -/
  valid : match failure with
    | none => (∃ bytes, frame = some bytes ∧ FrameSize bytes) ∧ canContinue = true
    | some category => frame = none ∧ (canContinue = true → category ∈ candidates)

/-- The outcome after which the worker may not go on. -/
def JobOutcome.fatal (category : JobFailure) : JobOutcome where
  frame := none
  failure := some category
  canContinue := false
  valid := ⟨rfl, fun h => (nomatch h)⟩

/-! ### Running a job -/

/-- What the adapter does during a job, call by call. -/
structure JobWorld where
  /-- what is raised before the job starts: by the comparison of the session with its baseline, by
  the adapter that is asked for it, by the clock -/
  before : Option Raised
  /-- `adapter._settings.max_rows` -/
  maxRows : Nat
  /-- the three health checks on the way, and the one after a failure -/
  healthyBefore : Except Raised Bool
  healthyExecuted : Except Raised Bool
  healthyEncoded : Except Raised Bool
  healthyFailed : Except Raised Bool
  /-- `adapter._execute_typed_validated` -/
  execute : Except Raised TypedMaskedResult
  /-- what interrupts the encoder -/
  interrupt : Option Raised
  /-- what the second comparison with the baseline raises -/
  after : Option Raised

/-- `raise`, when there is something to raise. -/
def raise : Option Raised → Except Raised Unit
  | none => .ok ()
  | some e => .error e

/-- One block of `_valid_sql`: its size, or nothing when it holds a `U+0000`. A text that was
decoded from UTF-8 has no surrogates, so that the encoder of the source never fails on it. -/
def sqlBlock (block : List Char) : Option Nat :=
  if '\x00' ∈ block then none else some (utf8 block).length

/-- The loop of `_valid_sql`. -/
def sqlBlocks : (total : Nat) → List (List Char) → Bool
  | _, [] => true
  | total, block :: rest =>
      match sqlBlock block with
      | none => false
      | some size => total + size ≤ maxSqlBytes && sqlBlocks (total + size) rest

/-- `_valid_sql`, on a decoded text; `_SQL_BLOCK` is 4096. -/
def validSql (sql : List Char) : Bool :=
  sql.length ≤ maxSqlBytes && sqlBlocks 0 (blocks 4096 sql)

/-- `if not _healthy(...): return`, and what follows it. -/
def whenHealthy (healthy : Except Raised Bool) (next : Except Raised JobOutcome) :
    Except Raised JobOutcome := do
  let healthy ← healthy
  if healthy then next else .ok (.fatal .connection)

/-- The end of the `try` block of `run_job`, with the frame. -/
def finish (world : JobWorld) (limits : ResultLimits) (frame : List UInt8) :
    Except Raised JobOutcome :=
  if h : headerSize ≤ frame.length ∧ frame.length ≤ limits.maxFrameBytes then
    whenHealthy world.healthyEncoded <| .ok
      { frame := some frame, failure := none, canContinue := true,
        valid := ⟨⟨frame, rfl, h.1, Nat.le_trans h.2 limits.maxFrameBytes_range.2⟩, rfl⟩ }
  else .ok (.fatal .internal)

/-- The `try` block of `run_job`. -/
def attempt (world : JobWorld) (sql : List Char) (identity : ResultIdentity)
    (limits : ResultLimits) : Except Raised JobOutcome :=
  if validSql sql = false ∨ world.maxRows ≠ limits.maxRows then .ok (.fatal .protocol)
  else whenHealthy world.healthyBefore do
    let result ← world.execute
    whenHealthy world.healthyExecuted do
      raise world.interrupt
      let frame ← (Encoder.encodeResult result identity limits).mapError Raised.ofEncoder
      finish world limits frame

/-- The end of `run_job` after an exception: a candidate may go on when the connection is still
healthy. -/
def afterFailure (world : JobWorld) (category : JobFailure) : JobOutcome :=
  if h : category ∈ candidates then
    match world.healthyFailed with
    | .ok true =>
        { frame := none, failure := some category, canContinue := true, valid := ⟨rfl, fun _ => h⟩ }
    | .ok false => .fatal .connection
    | .error (.resultFrameError memoryExhausted deadline) =>
        .fatal (classify (.resultFrameError memoryExhausted deadline))
    | .error _ => .fatal .internal
  else .fatal category

/-- `run_job`. It returns on every exception. -/
def runJob (world : JobWorld) (sql : List Char) (identity : ResultIdentity)
    (limits : ResultLimits) : JobOutcome :=
  match attempt world sql identity limits with
  | .ok outcome => outcome
  | .error e => afterFailure world (classify e)

end MaskGateway.Runtime.Worker
