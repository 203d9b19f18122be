import MaskGateway.Lib.Effect
import MaskGateway.Pgwire.Framing
import MaskGateway.Pgwire.Scram

/-!
# `MaskGateway.Pgwire.Transport`: the two channels of a startup session

`pgwire/transport.py`: `RawChannel` over the accepted socket, and `TlsChannel` over an `SSLObject` with
two memory buffers. What the session learns from outside is decided by `Surroundings`, each answer
from everything that happened before: the bytes of the client and how the socket cuts them, the stop
request and the clock, the TLS object, and the callbacks of the owner.

What happens is written down in a trace of `Event`s. The TLS object is an abstract channel: it says
what it decrypted and what it wants to send, and it may fail.

A loop that waits for the client has no bound in the source but the deadline. Here it has one more,
its rounds; a run that needs more of them is still going on (`Failure.waiting`), and nothing catches
that.
-/

set_option autoImplicit false

namespace MaskGateway.Pgwire.Session

open Lib

/-! ### What happens -/

/-- What a callback did: it returned `True` or something else, or it raised an `Exception`. -/
inductive Answer where
  | returned (value : Bool)
  | raised
  deriving DecidableEq

/-- What a session hands to its channel in one call. -/
inductive Reply where
  /-- `S` or `N` -/
  | sslAnswer (accepted : Bool)
  | sasl (mechanisms : List Name)
  | saslContinue (data : List UInt8)
  /-- `SASLFinal`, `AuthenticationOk`, the parameters, the key and `ReadyForQuery` -/
  | ready (serverFinal : List UInt8) (processId secretKey : Nat)
  | error (category : PgwireErrorCategory)
  deriving DecidableEq

/-- What happens in a session. -/
inductive Event where
  /-- a check of the stop request and a deadline passed -/
  | checked
  /-- bytes of the socket that the session itself reads and writes -/
  | clearIn (bytes : List UInt8)
  | clearOut (bytes : List UInt8)
  /-- bytes of the socket that the TLS object reads and writes -/
  | cipherIn (bytes : List UInt8)
  | cipherOut (bytes : List UInt8)
  /-- bytes that the TLS object decrypted for the session, and took from it -/
  | plainIn (bytes : List UInt8)
  | plainOut (bytes : List UInt8)
  /-- a TLS handshake begins, and is complete -/
  | shaking
  | secured
  /-- a reply is handed to the channel -/
  | replying (reply : Reply)
  /-- `parse_startup` is called -/
  | parsing (body : List UInt8)
  /-- the alias callback was called -/
  | asked (alias_ : Name) (answer : Answer)
  /-- `client_final` returned -/
  | proved (exchange : Scram.Exchange) (final : List UInt8) (identityAccepted : Bool)
  /-- `reserve_session` was called -/
  | reserved (answer : Answer)
  /-- the end of a session after an error: no more output, and input that nobody looks at -/
  | shutdown
  | discarded (bytes : List UInt8)

/-! ### Surroundings -/

/-- The deadlines of a session. -/
inductive Due where
  | startup
  | idle
  | report
  | linger
  deriving DecidableEq

/-- What the stop request and the clock say. -/
inductive Check where
  | passed
  | stopped
  | expired
  | failed
  deriving DecidableEq

/-- What `recv` does. No bytes are the end of the stream. -/
inductive Recv where
  | data (bytes : List UInt8)
  | timeout
  | failed
  deriving DecidableEq

/-- What `send` does. -/
inductive Send where
  | accepted (count : Nat)
  | timeout
  | failed
  deriving DecidableEq

/-- What `do_handshake` does. -/
inductive Handshake where
  | done
  | wantRead
  | failed
  deriving DecidableEq

/-- What `SSLObject.read` does. -/
inductive TlsRead where
  | data (bytes : List UInt8)
  | wantRead
  | zeroReturn
  | failed
  deriving DecidableEq

/-- What `SSLObject.write` does. -/
inductive TlsWrite where
  | accepted (count : Nat)
  | failed
  deriving DecidableEq

/-- Everything outside a session, each answer from what happened before. -/
structure Surroundings where
  check : List Event → Due → Check
  recv : List Event → Recv
  send : List Event → Send
  /-- `SSLContext.wrap_bio` succeeds -/
  wrapBio : List Event → Bool
  handshake : List Event → Handshake
  /-- what the TLS object has left to send -/
  outgoing : List Event → List UInt8
  tlsRead : List Event → TlsRead
  tlsWrite : List Event → TlsWrite
  aliasAccepted : List Event → Name → Answer
  reserveSession : List Event → Answer
  /-- `secrets.token_bytes`, for the nonce of the server -/
  nonce : List Event → Option (List UInt8)
  /-- the process id and the secret of `BackendKeyData` -/
  keyData : List Event → Nat × Nat

/-! ### State and failures -/

/-- `TransportFailure`. -/
inductive TransportFailure where
  | eof
  | timeout
  | stopped
  | io
  | tls
  | limit
  deriving DecidableEq

/-- What a session can raise: `PgwireStartupError`, `TransportError`, and nothing yet. -/
inductive Failure where
  | startup (category : PgwireErrorCategory)
  | transport (kind : TransportFailure)
  | waiting
  deriving DecidableEq

/-- The channel that a session uses. -/
inductive Channel where
  | raw
  | tls
  deriving DecidableEq

/-- The attributes of a session that change, and what has happened. -/
structure Wire where
  trace : List Event := []
  channel : Channel := .raw
  tlsUsed : Bool := false
  authenticated : Bool := false

/-- A part of a session. -/
abbrev Program (α : Type) : Type := EStateM Failure Wire α

/-- `TransportLimits`, as far as they do not concern the clock. -/
structure TransportLimits where
  chunkBytes : Nat
  tlsHandshakeRounds : Nat
  tlsHandshakeBytes : Nat
  lingerBytes : Nat

/-- `_TLS_WRITE_BLOCK`. -/
def tlsWriteBlock : Nat := 16384

/-- Something happens. -/
def log (event : Event) : Program Unit :=
  modify fun w => { w with trace := w.trace ++ [event] }

/-- An answer of the surroundings. -/
def ask {α : Type} (question : List Event → α) : Program α := do
  return question (← get).trace

section

variable (env : Surroundings) (limits : TransportLimits)

/-! ### `RawChannel` -/

/-- `check`. -/
def check (due : Due) : Program Unit := do
  match ← ask fun trace => env.check trace due with
  | .passed => log .checked
  | .stopped => throw (.transport .stopped)
  | .expired => throw (.transport .timeout)
  | .failed => throw (.transport .io)

/-- `recv_some`. The event says for whom the bytes are. -/
def recvSome (event : List UInt8 → Event) (due : Due) (maximum : Nat) :
    Nat → Program (List UInt8)
  | 0 => throw .waiting
  | rounds + 1 => do
      check env due
      match ← ask env.recv with
      | .timeout => recvSome event due maximum rounds
      | .failed => throw (.transport .io)
      | .data bytes =>
          let data := bytes.take (min maximum limits.chunkBytes)
          if data = [] then throw (.transport .eof)
          else do
            log (event data)
            return data

/-- The loop of `RawChannel.recv_exact`. -/
def rawRecvExact (rounds : Nat) (due : Due) (size : Nat) (buffer : List UInt8) :
    Nat → Program (List UInt8)
  | 0 => if buffer.length < size then throw .waiting else return buffer
  | more + 1 => do
      if buffer.length < size then
        let data ← recvSome env limits .clearIn due (size - buffer.length) rounds
        rawRecvExact rounds due size (buffer ++ data) more
      else return buffer

/-- `RawChannel.send_all`, from an offset on. The event says whose the bytes are. -/
def sendAll (event : List UInt8 → Event) (due : Due) : Nat → List UInt8 → Program Unit
  | _, [] => return ()
  | 0, _ :: _ => throw .waiting
  | rounds + 1, b :: rest => do
      check env due
      match ← ask env.send with
      | .timeout => sendAll event due rounds (b :: rest)
      | .failed => throw (.transport .io)
      | .accepted sent =>
          if 1 ≤ sent ∧ sent ≤ min (b :: rest).length limits.chunkBytes then do
            log (event ((b :: rest).take sent))
            sendAll event due rounds ((b :: rest).drop sent)
          else throw (.transport .io)

/-- `linger`: the output is closed and the input thrown away, up to a limit. -/
def lingerLoop (rounds : Nat) : Nat → Nat → Program Unit
  | 0, discarded => if discarded < limits.lingerBytes then throw .waiting else return ()
  | more + 1, discarded => do
      if discarded < limits.lingerBytes then
        let data ← recvSome env limits .discarded .linger (limits.lingerBytes - discarded) rounds
        lingerLoop rounds more (discarded + data.length)
      else return ()

/-- A program whose `TransportError` ends it. -/
def untilTransportError (x : Program Unit) : Program Unit :=
  tryCatch x fun failure =>
    match failure with
    | .transport _ => return ()
    | failure => throw failure

/-- `linger`. -/
def linger (rounds : Nat) : Program Unit := do
  log .shutdown
  untilTransportError (lingerLoop env limits rounds rounds 0)

/-! ### `TlsChannel` -/

/-- `_flush`: everything that the TLS object has left to send. -/
def flush (rounds : Nat) (due : Due) : Nat → Program Nat
  | 0 => throw .waiting
  | more + 1 => do
      let block := (← ask env.outgoing).take limits.chunkBytes
      if block = [] then return 0
      else do
        sendAll env limits .cipherOut due rounds block
        let sent ← flush rounds due more
        return block.length + sent

/-- `_feed`. -/
def feed (rounds : Nat) (due : Due) : Program Nat := do
  let data ← recvSome env limits .cipherIn due limits.chunkBytes rounds
  return data.length

/-- The loop of `handshake`. -/
def handshakeLoop (rounds : Nat) (due : Due) : Nat → Nat → Program Unit
  | 0, _ => throw (.transport .limit)
  | more + 1, transferred => do
      check env due
      match ← ask env.handshake with
      | .failed => throw (.transport .tls)
      | .done => do
          let sent ← flush env limits rounds due rounds
          -- the limit also holds for the output of the step that completes the handshake
          if limits.tlsHandshakeBytes < transferred + sent then throw (.transport .limit)
          else return ()
      | .wantRead => do
          let sent ← flush env limits rounds due rounds
          if limits.tlsHandshakeBytes < transferred + sent then throw (.transport .limit)
          else do
            let fed ← feed env limits rounds due
            if limits.tlsHandshakeBytes < transferred + sent + fed then throw (.transport .limit)
            else handshakeLoop rounds due more (transferred + sent + fed)

/-- The constructor of `TlsChannel`, then `handshake`. -/
def handshake (rounds : Nat) (due : Due) : Program Unit := do
  if ← ask env.wrapBio then do
    log .shaking
    handshakeLoop env limits rounds due limits.tlsHandshakeRounds 0
    log .secured
  else throw (.transport .tls)

/-- The loop of `TlsChannel.recv_exact`. -/
def tlsRecvExact (rounds : Nat) (due : Due) (size : Nat) (buffer : List UInt8) :
    Nat → Program (List UInt8)
  | 0 => if buffer.length < size then throw .waiting else return buffer
  | more + 1 => do
      if buffer.length < size then
        -- text that is decrypted already does not get around the stop request and the deadline
        check env due
        match ← ask env.tlsRead with
        | .zeroReturn => throw (.transport .eof)
        | .failed => throw (.transport .tls)
        | .wantRead => do
            let _ ← flush env limits rounds due rounds
            let _ ← feed env limits rounds due
            tlsRecvExact rounds due size buffer more
        | .data bytes =>
            let piece := bytes.take (min (size - buffer.length) limits.chunkBytes)
            if piece = [] then throw (.transport .eof)
            else do
              log (.plainIn piece)
              tlsRecvExact rounds due size (buffer ++ piece) more
      else return buffer

/-- `TlsChannel.send_all`, from an offset on. -/
def tlsSendAll (rounds : Nat) (due : Due) : Nat → List UInt8 → Program Unit
  | _, [] => return ()
  | 0, _ :: _ => throw .waiting
  | more + 1, b :: rest => do
      check env due
      match ← ask env.tlsWrite with
      | .failed => throw (.transport .tls)
      | .accepted taken =>
          if 1 ≤ taken ∧ taken ≤ min (b :: rest).length tlsWriteBlock then do
            log (.plainOut ((b :: rest).take taken))
            let _ ← flush env limits rounds due rounds
            tlsSendAll rounds due more ((b :: rest).drop taken)
          else throw (.transport .tls)

/-! ### The channel in use -/

/-- `self._channel.recv_exact`. -/
def recvExact (rounds : Nat) (due : Due) (size : Nat) : Program (List UInt8) := do
  match (← get).channel with
  | .raw => rawRecvExact env limits rounds due size [] rounds
  | .tls => tlsRecvExact env limits rounds due size [] rounds

/-- `self._channel.send_all`. -/
def sendBytes (rounds : Nat) (due : Due) (data : List UInt8) : Program Unit := do
  match (← get).channel with
  | .raw => sendAll env limits .clearOut due rounds data
  | .tls => tlsSendAll env limits rounds due rounds data

end

end MaskGateway.Pgwire.Session
