import MaskGateway.Pgwire.ResultFrame

/-!
# `MaskGateway.Runtime.WorkerProtocol`: the wire between the gateway and a worker

`runtime/worker_protocol.py`. A packet is a header of twelve bytes and a body whose length the
header declares. Eight kinds of message have eight pairs of an encoder and a decoder, each written
in the source with its own `struct` formats; the formats are lists of widths here.

The dataclasses of the source check themselves when they are built and again before they are
written. Here the checks are fields, so that the second check has nothing left to refuse, and
`make` is the first one. A float is the number of its IEEE pattern: the codecs only move it, and
ask of it that it is finite and positive, which is `0 < bits < 0x7FF0000000000000`.

Left out: `check_deadline`, which reads the clock, and the texts for the log.
-/

set_option autoImplicit false

namespace MaskGateway.Runtime.Wire

open Lib MaskGateway.Pgwire

/-! ### Constants -/

/-- `MAX_SNAPSHOT_BYTES`. -/
def maxSnapshotBytes : Nat := 65536

/-- `MAX_SQL_BYTES`. -/
def maxSqlBytes : Nat := 65536

/-- `_MAX_ID`. -/
def maxId : Nat := 2 ^ 63 - 1

/-- `_MAX_PID`. -/
def maxPid : Nat := 2 ^ 31 - 1

/-- `_MAX_FRAME`. -/
def maxFrame : Nat := 16 * 1024 * 1024

/-- `_NONCE_SIZE`. -/
def nonceSize : Nat := 32

/-- `_SIGKILL`. -/
def sigkill : Nat := 9

/-- The widths of `_HEADER`, `struct.Struct("!4sBBHI")`. -/
def packetWidths : List Nat := [4, 1, 1, 2, 4]

/-- `_MAGIC`, `b"MGW2"`. -/
def packetMagic : List UInt8 := [0x4D, 0x47, 0x57, 0x32]

/-- `_VERSION`. -/
def packetVersion : Nat := 2

/-- `HEADER_BYTES`. -/
def headerBytes : Nat := packetWidths.sum

/-- The widths of `_KEY`, `struct.Struct("!16s16sQQ")`. -/
def keyWidths : List Nat := [16, 16, 8, 8]

/-- The widths of `_LIMITS`, `struct.Struct("!IIIHH")`. -/
def limitsWidths : List Nat := [4, 4, 4, 2, 2]

/-- The widths of `_INIT`, `struct.Struct("!d32sI")`. -/
def initWidths : List Nat := [8, 32, 4]

/-- The widths of `_QUERY`, `struct.Struct("!Qd")`. -/
def queryWidths : List Nat := [8, 8]

/-- The widths of `_GUARD`, `struct.Struct("!IIQBBH")`. -/
def guardWidths : List Nat := [4, 4, 8, 1, 1, 2]

/-- The widths of `_ERROR`, `struct.Struct("!QBBH")`. -/
def errorWidths : List Nat := [8, 1, 1, 2]

/-- The widths of `_JOB`, `struct.Struct("!Q")`. -/
def jobWidths : List Nat := [8]

/-- `_INIT_FIXED`. -/
def initFixed : Nat := keyWidths.sum + limitsWidths.sum + initWidths.sum

/-- `_QUERY_FIXED`. -/
def queryFixed : Nat := keyWidths.sum + queryWidths.sum

/-! ### Kinds and failures -/

/-- `Kind`. -/
inductive Kind where
  | guardReady
  | init
  | opened
  | query
  | error
  | result
  | done
  | close
  deriving DecidableEq

/-- The value of a member of `Kind`. -/
def Kind.value : Kind → Nat
  | .guardReady => 1
  | .init => 2
  | .opened => 3
  | .query => 4
  | .error => 5
  | .result => 6
  | .done => 7
  | .close => 8

/-- `_KINDS`. -/
def kinds (tag : Nat) : Option Kind :=
  [Kind.guardReady, .init, .opened, .query, .error, .result, .done, .close].find? (·.value = tag)

/-- `WireFailure`. -/
inductive WireFailure where
  | query
  | timeout
  | type
  | limit
  | memory
  | resource
  | connection
  | internal
  | protocol
  | deadline
  deriving DecidableEq

/-- The value of a member of `WireFailure`. -/
def WireFailure.value : WireFailure → Nat
  | .query => 1
  | .timeout => 2
  | .type => 3
  | .limit => 4
  | .memory => 5
  | .resource => 6
  | .connection => 7
  | .internal => 8
  | .protocol => 9
  | .deadline => 10

/-- `_FAILURES`. -/
def failures (code : Nat) : Option WireFailure :=
  [WireFailure.query, .timeout, .type, .limit, .memory, .resource, .connection, .internal,
    .protocol, .deadline].find? (·.value = code)

/-- `_RECOVERABLE`. -/
def recoverable : List WireFailure := [.query, .timeout, .type, .limit]

/-- `_LENGTHS`: the least and the greatest length of a body. -/
def lengths : Kind → Nat × Nat
  | .guardReady => (guardWidths.sum, guardWidths.sum)
  | .init => (initFixed + 1, initFixed + maxSnapshotBytes)
  | .opened => (nonceSize, nonceSize)
  | .query => (queryFixed + 1, queryFixed + maxSqlBytes)
  | .error => (keyWidths.sum + errorWidths.sum, keyWidths.sum + errorWidths.sum)
  | .result => (0, 0)
  | .done => (keyWidths.sum + jobWidths.sum, keyWidths.sum + jobWidths.sum)
  | .close => (0, 0)

/-- `WorkerProtocolError`: one error, with the fixed text of the source. -/
inductive WorkerProtocolError where
  | refused
  deriving DecidableEq

/-- The text of the error. -/
def WorkerProtocolError.message : WorkerProtocolError → String
  | .refused => "protocolo privado do worker recusado"

/-- `_need`. -/
def need (condition : Prop) [Decidable condition] : Except WorkerProtocolError Unit :=
  refuseIf (¬ condition) .refused

/-! ### Values -/

/-- A float that `_expiry` accepts, by its IEEE pattern. -/
structure Expiry where
  bits : Nat
  bits_range : 0 < bits ∧ bits < 0x7FF0000000000000
  deriving DecidableEq

/-- `_expiry`, on the eight bytes that `struct` reads as a float. -/
def Expiry.make (bits : Nat) : Except WorkerProtocolError Expiry :=
  if h : 0 < bits ∧ bits < 0x7FF0000000000000 then .ok ⟨bits, h⟩ else .error .refused

/-- `SessionKey`. -/
structure SessionKey where
  sessionId : List UInt8
  datasourceId : List UInt8
  generation : Nat
  recordRevision : Nat
  sessionId_length : sessionId.length = 16
  datasourceId_length : datasourceId.length = 16
  generation_range : 1 ≤ generation ∧ generation ≤ maxId
  recordRevision_range : 1 ≤ recordRevision ∧ recordRevision ≤ maxId
  deriving DecidableEq

/-- `SessionKey.__post_init__`. -/
def SessionKey.make (sessionId datasourceId : List UInt8) (generation recordRevision : Nat) :
    Except WorkerProtocolError SessionKey :=
  if h : (sessionId.length = 16 ∧ datasourceId.length = 16) ∧
      (1 ≤ generation ∧ generation ≤ maxId) ∧ (1 ≤ recordRevision ∧ recordRevision ≤ maxId) then
    .ok ⟨sessionId, datasourceId, generation, recordRevision, h.1.1, h.1.2, h.2.1, h.2.2⟩
  else .error .refused

/-- `SessionKey.result_identity`. -/
def SessionKey.resultIdentity (key : SessionKey) (jobId : Nat) :
    Except WorkerProtocolError ResultIdentity :=
  if h : 1 ≤ jobId ∧ jobId ≤ maxId then
    .ok { sessionId := key.sessionId, datasourceId := key.datasourceId,
          generation := key.generation, recordRevision := key.recordRevision, jobId := jobId,
          sessionId_length := key.sessionId_length,
          datasourceId_length := key.datasourceId_length,
          generation_range := key.generation_range,
          recordRevision_range := key.recordRevision_range, jobId_range := h }
  else .error .refused

/-- `ResultLimits.__post_init__`, whose error becomes a `WorkerProtocolError`. -/
def makeLimits (maxRows maxFrameBytes maxCellBytes maxColumns maxNameBytes : Nat) :
    Except WorkerProtocolError ResultLimits :=
  if h : (1 ≤ maxRows ∧ maxRows ≤ 2 ^ 31 - 1) ∧
      (headerSize ≤ maxFrameBytes ∧ maxFrameBytes ≤ 16 * 1024 * 1024) ∧
      (1 ≤ maxCellBytes ∧ maxCellBytes ≤ 1024 * 1024) ∧
      (1 ≤ maxColumns ∧ maxColumns ≤ 1664) ∧ (1 ≤ maxNameBytes ∧ maxNameBytes ≤ 256) then
    .ok ⟨maxRows, maxFrameBytes, maxCellBytes, maxColumns, maxNameBytes, h.1, h.2.1, h.2.2.1,
      h.2.2.2.1, h.2.2.2.2⟩
  else .error .refused

/-- `SecretInit`. -/
structure SecretInit where
  key : SessionKey
  limits : ResultLimits
  expiresAt : Expiry
  nonce : List UInt8
  snapshot : List UInt8
  nonce_length : nonce.length = nonceSize
  snapshot_length : 1 ≤ snapshot.length ∧ snapshot.length ≤ maxSnapshotBytes

/-- `SecretInit.__post_init__`. -/
def SecretInit.make (key : SessionKey) (limits : ResultLimits) (expiresAt : Nat)
    (nonce snapshot : List UInt8) : Except WorkerProtocolError SecretInit := do
  let expiresAt ← Expiry.make expiresAt
  if h : nonce.length = nonceSize ∧ (1 ≤ snapshot.length ∧ snapshot.length ≤ maxSnapshotBytes) then
    .ok ⟨key, limits, expiresAt, nonce, snapshot, h.1, h.2⟩
  else .error .refused

/-- The texts that `Query` takes: UTF-8 without a zero byte, neither empty nor too long. -/
def SqlText (sql : List UInt8) : Prop :=
  (1 ≤ sql.length ∧ sql.length ≤ maxSqlBytes ∧ 0 ∉ sql) ∧ sql.foldlM feed .ready = some .ready

instance (sql : List UInt8) : Decidable (SqlText sql) :=
  inferInstanceAs (Decidable (_ ∧ _))

/-- `Query`. -/
structure Query where
  key : SessionKey
  jobId : Nat
  expiresAt : Expiry
  sql : List UInt8
  jobId_range : 1 ≤ jobId ∧ jobId ≤ maxId
  sql_text : SqlText sql
  deriving DecidableEq

/-- `Query.__post_init__`. -/
def Query.make (key : SessionKey) (jobId expiresAt : Nat) (sql : List UInt8) :
    Except WorkerProtocolError Query := do
  let expiresAt ← Expiry.make expiresAt
  if h : (1 ≤ jobId ∧ jobId ≤ maxId) ∧ SqlText sql then
    .ok ⟨key, jobId, expiresAt, sql, h.1, h.2⟩
  else .error .refused

/-- `ErrorReply`. -/
structure ErrorReply where
  key : SessionKey
  jobId : Nat
  category : WireFailure
  canContinue : Bool
  jobId_range : jobId ≤ maxId
  canContinue_of : canContinue = true → 0 < jobId ∧ category ∈ recoverable
  deriving DecidableEq

/-- `ErrorReply.__post_init__`. -/
def ErrorReply.make (key : SessionKey) (jobId : Nat) (category : WireFailure)
    (canContinue : Bool) : Except WorkerProtocolError ErrorReply :=
  if h : jobId ≤ maxId ∧ (canContinue = true → 0 < jobId ∧ category ∈ recoverable) then
    .ok ⟨key, jobId, category, canContinue, h.1, h.2⟩
  else .error .refused

/-! ### Packets -/

/-- `check_length`. -/
def checkLength (kind : Kind) (size : Nat) : Except WorkerProtocolError Unit := do
  need (size ≤ maxFrame)
  need ((lengths kind).1 ≤ size ∧ size ≤ (lengths kind).2)

/-- `_body`. -/
def body (kind : Kind) (data : List UInt8) : Except WorkerProtocolError Unit :=
  checkLength kind data.length

/-- `parse_header`. -/
def parseHeader (data : List UInt8) : Except WorkerProtocolError (Kind × Nat) := do
  need (data.length = headerBytes)
  match cut packetWidths data with
  | [magic, version, tag, reserved, size] => do
      need (magic = packetMagic ∧ ofBytes version = packetVersion ∧ ofBytes reserved = 0)
      match kinds (ofBytes tag) with
      | none => .error .refused
      | some kind => do
          checkLength kind (ofBytes size)
          return (kind, ofBytes size)
  | _ => .error .refused

/-- `_HEADER.pack`, as `_packet` calls it. -/
def packHeader (kind : Kind) (size : Nat) : List UInt8 :=
  packetMagic ++ toBytes 1 packetVersion ++ toBytes 1 kind.value ++ toBytes 2 0 ++ toBytes 4 size

/-- `_packet`. -/
def packet (kind : Kind) (data : List UInt8) : Except WorkerProtocolError (List UInt8) := do
  body kind data
  return packHeader kind data.length ++ data

/-! ### The codecs -/

/-- `_key_bytes`. -/
def keyBytes (key : SessionKey) : List UInt8 :=
  key.sessionId ++ key.datasourceId ++ toBytes 8 key.generation ++ toBytes 8 key.recordRevision

/-- `_key_from`. -/
def keyFrom (data : List UInt8) : Except WorkerProtocolError SessionKey :=
  match cut keyWidths data with
  | [session, datasource, generation, revision] =>
      SessionKey.make session datasource (ofBytes generation) (ofBytes revision)
  | _ => .error .refused

/-- `_LIMITS.pack`, as `encode_init` calls it. -/
def limitsBytes (limits : ResultLimits) : List UInt8 :=
  toBytes 4 limits.maxRows ++ toBytes 4 limits.maxFrameBytes ++ toBytes 4 limits.maxCellBytes ++
    toBytes 2 limits.maxColumns ++ toBytes 2 limits.maxNameBytes

/-- The limits that `decode_init` reads. -/
def limitsFrom (data : List UInt8) : Except WorkerProtocolError ResultLimits :=
  match cut limitsWidths data with
  | [rows, frame, cell, columns, name] =>
      makeLimits (ofBytes rows) (ofBytes frame) (ofBytes cell) (ofBytes columns) (ofBytes name)
  | _ => .error .refused

/-- `encode_init`. -/
def encodeInit (value : SecretInit) : Except WorkerProtocolError (List UInt8) :=
  packet .init (keyBytes value.key ++ limitsBytes value.limits ++
    (toBytes 8 value.expiresAt.bits ++ value.nonce ++ toBytes 4 value.snapshot.length) ++
    value.snapshot)

/-- `decode_init`. -/
def decodeInit (data : List UInt8) : Except WorkerProtocolError SecretInit := do
  body .init data
  let key ← keyFrom data
  let limits ← limitsFrom (data.drop keyWidths.sum)
  match cut initWidths (data.drop (keyWidths.sum + limitsWidths.sum)) with
  | [expiry, nonce, size] => do
      need (ofBytes size = data.length - initFixed)
      SecretInit.make key limits (ofBytes expiry) nonce (data.drop initFixed)
  | _ => .error .refused

/-- `encode_query`. -/
def encodeQuery (value : Query) : Except WorkerProtocolError (List UInt8) :=
  packet .query (keyBytes value.key ++ (toBytes 8 value.jobId ++ toBytes 8 value.expiresAt.bits) ++
    value.sql)

/-- `decode_query`. -/
def decodeQuery (data : List UInt8) : Except WorkerProtocolError Query := do
  body .query data
  match cut queryWidths (data.drop keyWidths.sum) with
  | [job, expiry] => do
      let key ← keyFrom data
      Query.make key (ofBytes job) (ofBytes expiry) (data.drop queryFixed)
  | _ => .error .refused

/-- `encode_error`. -/
def encodeError (value : ErrorReply) : Except WorkerProtocolError (List UInt8) :=
  packet .error (keyBytes value.key ++ (toBytes 8 value.jobId ++ toBytes 1 value.category.value ++
    toBytes 1 value.canContinue.toNat ++ toBytes 2 0))

/-- `decode_error`. -/
def decodeError (data : List UInt8) : Except WorkerProtocolError ErrorReply := do
  body .error data
  match cut errorWidths (data.drop keyWidths.sum) with
  | [job, code, continuing, reserved] =>
      match failures (ofBytes code) with
      | none => .error .refused
      | some category => do
          need ((ofBytes continuing = 0 ∨ ofBytes continuing = 1) ∧ ofBytes reserved = 0)
          let key ← keyFrom data
          ErrorReply.make key (ofBytes job) category (ofBytes continuing ≠ 0)
  | _ => .error .refused

/-- `encode_done`. -/
def encodeDone (key : SessionKey) (jobId : Nat) : Except WorkerProtocolError (List UInt8) := do
  need (1 ≤ jobId ∧ jobId ≤ maxId)
  packet .done (keyBytes key ++ toBytes 8 jobId)

/-- `decode_done`. -/
def decodeDone (data : List UInt8) : Except WorkerProtocolError (SessionKey × Nat) := do
  body .done data
  match cut jobWidths (data.drop keyWidths.sum) with
  | [job] => do
      need (1 ≤ ofBytes job ∧ ofBytes job ≤ maxId)
      let key ← keyFrom data
      return (key, ofBytes job)
  | _ => .error .refused

/-- `encode_result_notice`. -/
def encodeResultNotice : Except WorkerProtocolError (List UInt8) := packet .result []

/-- `encode_opened`. -/
def encodeOpened (tag : List UInt8) : Except WorkerProtocolError (List UInt8) := packet .opened tag

/-- `decode_opened`. -/
def decodeOpened (data : List UInt8) : Except WorkerProtocolError (List UInt8) := do
  body .opened data
  return data

/-- `encode_guard`. -/
def encodeGuard (pid parent addressBytes : Nat) : Except WorkerProtocolError (List UInt8) := do
  need ((2 ≤ pid ∧ pid ≤ maxPid) ∧ (1 ≤ parent ∧ parent ≤ maxPid) ∧ pid ≠ parent)
  need (64 * 1024 * 1024 ≤ addressBytes ∧ addressBytes ≤ 4096 * 1024 * 1024)
  packet .guardReady (toBytes 4 pid ++ toBytes 4 parent ++ toBytes 8 addressBytes ++ toBytes 1 0 ++
    toBytes 1 sigkill ++ toBytes 2 0)

/-- `decode_guard`. -/
def decodeGuard (data : List UInt8) : Except WorkerProtocolError (Nat × Nat × Nat) := do
  body .guardReady data
  match cut guardWidths data with
  | [pid, parent, address, dumpable, death, reserved] => do
      need (ofBytes dumpable = 0 ∧ ofBytes death = sigkill ∧ ofBytes reserved = 0)
      let _ ← encodeGuard (ofBytes pid) (ofBytes parent) (ofBytes address)
      return (ofBytes pid, ofBytes parent, ofBytes address)
  | _ => .error .refused

/-- `encode_close`. -/
def encodeClose : Except WorkerProtocolError (List UInt8) := packet .close []

/-! ### All kinds together -/

/-- A message, with the arguments of its encoder. -/
inductive Message where
  | guardReady (pid parent addressBytes : Nat)
  | init (value : SecretInit)
  | opened (tag : List UInt8)
  | query (value : Query)
  | error (value : ErrorReply)
  | result
  | done (key : SessionKey) (jobId : Nat)
  | close

/-- The kind of a message. -/
def Message.kind : Message → Kind
  | .guardReady .. => .guardReady
  | .init _ => .init
  | .opened _ => .opened
  | .query _ => .query
  | .error _ => .error
  | .result => .result
  | .done .. => .done
  | .close => .close

/-- The encoder of a kind. -/
def Message.encode : Message → Except WorkerProtocolError (List UInt8)
  | .guardReady pid parent addressBytes => encodeGuard pid parent addressBytes
  | .init value => encodeInit value
  | .opened tag => encodeOpened tag
  | .query value => encodeQuery value
  | .error value => encodeError value
  | .result => encodeResultNotice
  | .done key jobId => encodeDone key jobId
  | .close => encodeClose

/-- The decoder of a kind. The two kinds without a body have no decoder in the source: their body
is what the header asked for, and is not looked at. -/
def Message.decode (kind : Kind) (data : List UInt8) : Except WorkerProtocolError Message :=
  match kind with
  | .guardReady => do
      let (pid, parent, addressBytes) ← decodeGuard data
      return .guardReady pid parent addressBytes
  | .init => do return .init (← decodeInit data)
  | .opened => do return .opened (← decodeOpened data)
  | .query => do return .query (← decodeQuery data)
  | .error => do return .error (← decodeError data)
  | .result => do
      body .result data
      return .result
  | .done => do
      let (key, jobId) ← decodeDone data
      return .done key jobId
  | .close => do
      body .close data
      return .close

/-! ### A stream of packets -/

/-- Why a stream could not be read on. -/
inductive ReadFailure where
  /-- the stream ends inside a packet -/
  | ended
  /-- a header is refused -/
  | refused
  deriving DecidableEq

/-- `recv_exact`, on the bytes that are still to come. -/
def recvExact (size : Nat) (stream : List UInt8) :
    Except ReadFailure (List UInt8 × List UInt8) := do
  refuseIf (stream.length < size) .ended
  return (stream.take size, stream.drop size)

/-- A packet from the front of a stream, the way both sides read one: the header, and then as many
bytes as it declares. -/
def readPacket (stream : List UInt8) :
    Except ReadFailure ((Kind × List UInt8) × List UInt8) := do
  let (head, stream) ← recvExact headerBytes stream
  let (kind, size) ← (parseHeader head).mapError fun _ => .refused
  let (data, stream) ← recvExact size stream
  return ((kind, data), stream)

/-- The packets of a stream, up to its end. At most `fuel` of them are read. -/
def splitPackets : (fuel : Nat) → List UInt8 → Except ReadFailure (List (Kind × List UInt8))
  | 0, _ => .error .ended
  | fuel + 1, stream =>
      if stream = [] then .ok []
      else do
        let (first, stream) ← readPacket stream
        return first :: (← splitPackets fuel stream)

/-- All packets of a stream. A packet takes bytes, so that this much fuel is enough. -/
def allPackets (stream : List UInt8) : Except ReadFailure (List (Kind × List UInt8)) :=
  splitPackets (stream.length + 1) stream

end MaskGateway.Runtime.Wire
