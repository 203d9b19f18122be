import MaskGateway.Lib.Supply
import MaskGateway.Lib.Machine
import MaskGateway.Pgwire.Transport

/-!
# `MaskGateway.Pgwire.Channels`: the loops of the channels, one operation at a time

`pgwire/transport.py`, `RawChannel` and `TlsChannel` without the handshake: one thread that calls
`send_all` and `recv_exact` of either channel, as often as it likes. Every event is a call, one check
of the stop request and the deadline, one operation of the socket, or one of the TLS object, with
what came of it; so a list of events is any sequence of partial sends, timeouts, fragments and
failures. Where the thread is in its loops is `Pc`.

What the socket and the TLS object do is free, within their contracts: `recv` and `read` give bytes
that have come, and not more than they were asked for; a `send` or `write` that returns a number of
bytes has taken these, and one that raises has taken none.

Which wait a check leaves for the operation after it is not modelled; `Transport.lean` has the same
loops with the trace that a startup session sees.
-/

set_option autoImplicit false

namespace MaskGateway.Pgwire.Channels

open Lib
open MaskGateway.Pgwire.Session (TransportFailure tlsWriteBlock)

/-- `TransportLimits`. The constructor refuses a limit under one. -/
structure Limits where
  chunkBytes : Nat
  chunkBytes_pos : 0 < chunkBytes

/-! ### The outside -/

/-- What the stop request and the clock say. -/
inductive Check where
  | passed
  | stopped
  | expired
  | failed (opaqueError : Bool)
  deriving DecidableEq

/-- What `send` does. A value that is no number is `none`. -/
inductive Sent where
  | returned (value : Option Int)
  | timeout (opaqueError : Bool)
  | failed (opaqueError : Bool)
  deriving DecidableEq

/-- What `SSLObject.write` does. -/
inductive Written where
  | returned (value : Option Int)
  | failed (opaqueError : Bool)
  deriving DecidableEq

/-- What `recv` does. No bytes are the end of the stream. -/
inductive Received where
  | data (count : Nat)
  | timeout
  | failed
  deriving DecidableEq

/-- What `SSLObject.read` does. -/
inductive Read where
  | data (count : Nat)
  | wantRead
  | zeroReturn
  | failed
  deriving DecidableEq

/-! ### The thread -/

/-- A call of a channel. -/
inductive Call where
  | sendAll (data : List UInt8)
  | recvExact (size : Nat)
  | tlsSendAll (data : List UInt8)
  | tlsRecvExact (size : Nat)
  deriving DecidableEq

/-- How a call ended. -/
inductive Result where
  | returned (bytes : List UInt8)
  | raised (kind : TransportFailure) (cleanupUncertain : Bool)
  deriving DecidableEq

/-- What `_flush` was called from, with the variables there. -/
inductive Flusher where
  | tlsSendAll (view : List UInt8) (offset : Nat)
  | tlsRecvExact (size : Nat) (buffer : List UInt8)
  deriving DecidableEq

/-- What `RawChannel.send_all` was called from. -/
inductive Sender where
  | caller
  | flush (flusher : Flusher)
  deriving DecidableEq

/-- What `recv_some` was called from: `recv_exact`, or `_feed` in the one of TLS. -/
inductive Receiver where
  | recvExact (size : Nat) (buffer : List UInt8)
  | feed (size : Nat) (buffer : List UInt8)
  deriving DecidableEq

/-- Where the thread is: in a loop of the channel, before or after the check of this round. -/
inductive Pc where
  | idle
  /-- in `RawChannel.send_all` -/
  | sending (checked : Bool) (view : List UInt8) (offset : Nat) (sender : Sender)
  /-- in `recv_some` -/
  | receiving (checked : Bool) (maximum : Nat) (receiver : Receiver)
  /-- in `TlsChannel.send_all`, at the TLS object -/
  | writing (checked : Bool) (view : List UInt8) (offset : Nat)
  /-- in `TlsChannel.recv_exact`, at the TLS object -/
  | reading (checked : Bool) (size : Nat) (buffer : List UInt8)
  deriving DecidableEq

/-- The thread, and all bytes that went through the channels. -/
structure State where
  pc : Pc
  /-- how the last call ended, where it did -/
  result : Option Result
  /-- what the socket accepted -/
  accepted : List UInt8
  /-- what the client sent -/
  inbound : Supply UInt8
  /-- `_incoming`: what was written to it -/
  fed : List UInt8
  /-- `_outgoing`: what is in it -/
  outgoing : List UInt8
  /-- what the TLS object wrote to `_outgoing` -/
  produced : List UInt8
  /-- what the TLS object accepted to encrypt -/
  plain : List UInt8
  /-- what the TLS object decrypted -/
  decrypted : Supply UInt8

/-- Before the first call. -/
def State.init : State :=
  ⟨.idle, none, [], ⟨[], []⟩, [], [], [], [], ⟨[], []⟩⟩

/-- What happens. An operation says what came of it, and which bytes came meanwhile. -/
inductive Event where
  | call (call : Call)
  | check (answer : Check)
  | send (sent : Sent)
  | recv (arrived : List UInt8) (received : Received)
  | write (produced : List UInt8) (written : Written)
  | read (arrived produced : List UInt8) (read : Read)
  deriving DecidableEq

namespace State

variable (limits : Limits)

/-- A call returns. -/
def finish (s : State) (bytes : List UInt8) : State :=
  { s with pc := .idle, result := some (.returned bytes) }

/-- `_fail`. -/
def fail (s : State) (kind : TransportFailure) (uncertain : Bool) : State :=
  { s with pc := .idle, result := some (.raised kind uncertain) }

/-- The head of the loop of `RawChannel.recv_exact`. -/
def recvLoop (s : State) (size : Nat) (buffer : List UInt8) : State :=
  if buffer.length < size then
    { s with pc := .receiving false (size - buffer.length) (.recvExact size buffer) }
  else s.finish buffer

/-- The head of the loop of `TlsChannel.recv_exact`. -/
def readLoop (s : State) (size : Nat) (buffer : List UInt8) : State :=
  if buffer.length < size then { s with pc := .reading false size buffer } else s.finish buffer

/-- The head of the loop of `TlsChannel.send_all`. -/
def writeLoop (s : State) (view : List UInt8) (offset : Nat) : State :=
  if offset < view.length then { s with pc := .writing false view offset } else s.finish []

/-- What follows `_flush`. -/
def flushed (s : State) : Flusher → State
  | .tlsSendAll view offset => s.writeLoop view offset
  -- `_feed`
  | .tlsRecvExact size buffer =>
      { s with pc := .receiving false limits.chunkBytes (.feed size buffer) }

/-- The head of the loop of `_flush`. A block is not empty, so it enters the loop that sends it. -/
def flushLoop (s : State) (flusher : Flusher) : State :=
  if s.outgoing = [] then s.flushed limits flusher
  else
    { s with
      pc := .sending false (s.outgoing.take limits.chunkBytes) 0 (.flush flusher)
      outgoing := s.outgoing.drop limits.chunkBytes }

/-- The head of the loop of `RawChannel.send_all`, and what follows it. -/
def sendLoop (s : State) (view : List UInt8) (offset : Nat) (sender : Sender) : State :=
  if offset < view.length then { s with pc := .sending false view offset sender }
  else
    match sender with
    | .caller => s.finish []
    | .flush flusher => s.flushLoop limits flusher

/-- A call begins. -/
def begin (s : State) : Call → State
  | .sendAll data => { s with result := none }.sendLoop limits data 0 .caller
  | .recvExact size => { s with result := none }.recvLoop size []
  | .tlsSendAll data => { s with result := none }.writeLoop data 0
  | .tlsRecvExact size => { s with result := none }.readLoop size []

/-- `check`, with what the thread does next where it passes. -/
def checked (s : State) (next : Pc) : Check → State
  | .passed => { s with pc := next }
  | .stopped => s.fail .stopped false
  | .expired => s.fail .timeout false
  | .failed opaqueError => s.fail .io opaqueError

/-- The rest of a round of `RawChannel.send_all`. -/
def sent (s : State) (view : List UInt8) (offset : Nat) (sender : Sender) : Sent → State
  | .timeout opaqueError =>
      if opaqueError then s.fail .io true else s.sendLoop limits view offset sender
  | .failed opaqueError => s.fail .io opaqueError
  | .returned none => s.fail .io false
  | .returned (some value) =>
      if 1 ≤ value ∧ value ≤ min (view.length - offset) limits.chunkBytes then
        { s with accepted := s.accepted ++ (view.drop offset).take value.toNat }.sendLoop limits view
          (offset + value.toNat) sender
      else s.fail .io false

/-- The rest of a round of `recv_some`, and what follows it. -/
def received (s : State) (maximum : Nat) (receiver : Receiver) : Received → Option State
  | .timeout => some { s with pc := .receiving false maximum receiver }
  | .failed => some (s.fail .io false)
  | .data count =>
      if count ≤ min (min maximum limits.chunkBytes) s.inbound.left.length then
        if count = 0 then some (s.fail .eof false)
        else
          let data := s.inbound.left.take count
          let s := { s with inbound := s.inbound.take count }
          match receiver with
          | .recvExact size buffer => some (s.recvLoop size (buffer ++ data))
          | .feed size buffer => some ({ s with fed := s.fed ++ data }.readLoop size buffer)
      else none

/-- The rest of a round of `TlsChannel.send_all`. -/
def written (s : State) (view : List UInt8) (offset : Nat) : Written → State
  | .failed opaqueError => s.fail .tls opaqueError
  | .returned none => s.fail .tls false
  | .returned (some value) =>
      if 1 ≤ value ∧ value ≤ min (view.length - offset) tlsWriteBlock then
        { s with plain := s.plain ++ (view.drop offset).take value.toNat }.flushLoop limits
          (.tlsSendAll view (offset + value.toNat))
      else s.fail .tls false

/-- The rest of a round of `TlsChannel.recv_exact`. -/
def readDone (s : State) (size : Nat) (buffer : List UInt8) : Read → Option State
  | .wantRead => some (s.flushLoop limits (.tlsRecvExact size buffer))
  | .zeroReturn => some (s.fail .eof false)
  | .failed => some (s.fail .tls false)
  | .data count =>
      if count ≤ min (min (size - buffer.length) limits.chunkBytes) s.decrypted.left.length then
        if count = 0 then some (s.fail .eof false)
        else
          some ({ s with decrypted := s.decrypted.take count }.readLoop size
            (buffer ++ s.decrypted.left.take count))
      else none

/-- The TLS object writes to `_outgoing`. -/
def produce (s : State) (bytes : List UInt8) : State :=
  { s with outgoing := s.outgoing ++ bytes, produced := s.produced ++ bytes }

end State

namespace Event

/-- A call begins. -/
def isCall : Event → Bool
  | .call _ => true
  | _ => false

/-- The socket or the TLS object is used. -/
def isOperation : Event → Bool
  | .call _ | .check _ => false
  | .send _ | .recv _ _ | .write _ _ | .read _ _ _ => true

end Event

section

variable (limits : Limits)

/-- A check happens at the head of a round. -/
def checkStep (s : State) (answer : Check) : Option State :=
  match s.pc with
  | .sending false view offset sender => some (s.checked (.sending true view offset sender) answer)
  | .receiving false maximum receiver => some (s.checked (.receiving true maximum receiver) answer)
  | .writing false view offset => some (s.checked (.writing true view offset) answer)
  | .reading false size buffer => some (s.checked (.reading true size buffer) answer)
  | _ => none

/-- One event. -/
def step (s : State) : Event → Option State
  | .call call =>
      match s.pc with
      | .idle => some (s.begin limits call)
      | _ => none
  | .check answer => checkStep s answer
  | .send sent =>
      match s.pc with
      | .sending true view offset sender => some (s.sent limits view offset sender sent)
      | _ => none
  | .recv arrived received =>
      match s.pc with
      | .receiving true maximum receiver =>
          { s with inbound := s.inbound.arrive arrived }.received limits maximum receiver received
      | _ => none
  | .write produced written =>
      match s.pc with
      | .writing true view offset =>
          some ((s.produce produced).written limits view offset written)
      | _ => none
  | .read arrived produced read =>
      match s.pc with
      | .reading true size buffer =>
          ({ s with decrypted := s.decrypted.arrive arrived }.produce produced).readDone limits size
            buffer read
      | _ => none

end

end MaskGateway.Pgwire.Channels
