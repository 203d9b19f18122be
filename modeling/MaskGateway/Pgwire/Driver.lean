import MaskGateway.Pgwire.Transport

/-!
# `MaskGateway.Pgwire.Driver`: one startup session

`pgwire/driver.py`: the negotiation of TLS, the SCRAM exchange, the alias and the reservation, the
answer that ends the startup, and the one message that is looked at after it. `run` reports a
`PgwireStartupError` to the client, best effort, and turns what happened into a `SessionResult`.
-/

set_option autoImplicit false

namespace MaskGateway.Pgwire.Session

open Lib

/-! ### Replies -/

/-- `PARAMETER_STATUS`. -/
def parameterStatus : List (Name × Name) :=
  [("server_version".toList, "16.0".toList), ("server_encoding".toList, "UTF8".toList),
   ("client_encoding".toList, "UTF8".toList), ("DateStyle".toList, "ISO, MDY".toList),
   ("integer_datetimes".toList, "on".toList),
   ("standard_conforming_strings".toList, "on".toList)]

/-- `ReadyForQuery`, idle. -/
def readyForQuery : List UInt8 := Framing.message 'Z' (utf8 ['I'])

/-- `_post_authentication`, with the process id and the secret that the system draws. -/
def postAuthentication (processId secretKey : Nat) : List UInt8 :=
  (parameterStatus.flatMap fun status =>
    Framing.message 'S' (utf8 status.1 ++ [0] ++ utf8 status.2 ++ [0])) ++
  Framing.message 'K' (toBytes 4 processId ++ toBytes 4 secretKey) ++ readyForQuery

/-- The bytes of a reply. -/
def Reply.bytes : Reply → List UInt8
  | .sslAnswer accepted => utf8 [if accepted then 'S' else 'N']
  | .sasl mechanisms => Framing.authenticationSasl mechanisms
  | .saslContinue data => Framing.authenticationSaslContinue data
  | .ready serverFinal processId secretKey =>
      Framing.authenticationSaslFinal serverFinal ++ Framing.authenticationOk ++
        postAuthentication processId secretKey
  | .error category => Framing.errorResponse category

/-! ### Results -/

/-- `SessionOutcome`. -/
inductive SessionOutcome where
  | terminated
  | failed (category : PgwireErrorCategory)
  | broken (failure : TransportFailure)
  deriving DecidableEq

/-- `SessionResult`. -/
structure SessionResult where
  outcome : SessionOutcome
  tlsUsed : Bool
  authenticated : Bool
  deriving DecidableEq

/-- The category of the error that an exchange fails with. -/
def ofScram : Scram.PgwireErrorCategory → PgwireErrorCategory
  | .authenticationFailed => .authenticationFailed
  | .protocolViolation => .protocolViolation
  | .internalError => .internalError

/-! ### Collaborators -/

/-- `ServerTls`: a context, and the channel binding of its certificate. -/
abbrev ServerTls := { channelBinding : List UInt8 // channelBinding ≠ [] }

/-- The collaborators of a session that do not change. Its constructor refuses `tls_required`
without a context. -/
structure Config where
  hash : Scram.Hash
  /-- `str.lower` -/
  lower : Name → Name
  /-- `PrincipalCredential.verifier_for` -/
  verifierFor : Name → Scram.ScramVerifier
  tls : Option ServerTls
  tlsRequired : Bool
  limits : TransportLimits
  tls_of_required : tlsRequired = true → tls ≠ none

section

variable (cfg : Config) (env : Surroundings) (rounds : Nat)

/-! ### Reading and sending -/

/-- A parser whose error is a `PgwireStartupError`. -/
def parsed {α : Type} (result : Except PgwireErrorCategory α) : Program α :=
  match result with
  | .ok a => return a
  | .error category => throw (.startup category)

/-- `_read_initial`. -/
def readInitial : Program (Framing.InitialKind × List UInt8) := do
  let length ← parsed (Framing.initialLength (← recvExact env cfg.limits rounds .startup 4))
  let body ← recvExact env cfg.limits rounds .startup (length - 4)
  let kind ← parsed (Framing.classifyInitial body)
  return (kind, body)

/-- `_read_typed`. -/
def readTyped : Program (List UInt8) := do
  let header ← recvExact env cfg.limits rounds .startup 5
  let size ← parsed (Framing.messageLength header 0x70)
  recvExact env cfg.limits rounds .startup size

/-- `_send`. -/
def send (reply : Reply) (due : Due) : Program Unit := do
  log (.replying reply)
  sendBytes env cfg.limits rounds due reply.bytes

/-! ### Phases -/

/-- `_negotiate`. -/
def negotiate : Program (List UInt8) := do
  let (kind, body) ← readInitial cfg env rounds
  match kind with
  | .sslRequest => do
      if cfg.tls.isSome then do
        send cfg env rounds (.sslAnswer true) .startup
        handshake env cfg.limits rounds .startup
        modify fun w => { w with channel := .tls, tlsUsed := true }
      else send cfg env rounds (.sslAnswer false) .startup
      let (kind, body) ← readInitial cfg env rounds
      if kind = .startup then return body else throw (.startup .protocolViolation)
  | .startup =>
      if cfg.tlsRequired then throw (.startup .protocolViolation) else return body

/-- `_call_alias`. -/
def callAlias (alias_ : Option Name) : Program Bool :=
  match alias_ with
  | some name =>
      if Framing.validAlias (some name) then do
        let answer ← ask fun trace => env.aliasAccepted trace name
        log (.asked name answer)
        return answer == .returned true
      else return false
  | none => return false

/-- `_call_reserve`: nothing when the callback raised. -/
def callReserve : Program (Option Bool) := do
  let answer ← ask env.reserveSession
  log (.reserved answer)
  match answer with
  | .returned value => return some value
  | .raised => return none

/-- The exchange of a session. -/
def newExchange (user : Name) (tlsUsed : Bool) : Scram.Exchange where
  verifier := cfg.verifierFor user
  channelBinding := if tlsUsed then cfg.tls.map Subtype.val else none
  serverNonce := none
  channelBinding_ne_nil := by
    cases tlsUsed with
    | false => simp
    | true =>
        cases htls : cfg.tls with
        | none => simp
        | some tls => simpa using tls.2
  serverNonce_printable _ h := nomatch h

/-- What a call on an exchange returns, or its `PgwireStartupError`. -/
def exchanged (outcome : Scram.Outcome) : Program (Scram.Exchange × List UInt8) :=
  match outcome.2 with
  | .ok data => return (outcome.1, data)
  | .error category => throw (.startup (ofScram category))

/-- `_authenticate`. -/
def authenticate (startup : Framing.StartupMessage) : Program (List UInt8) := do
  let exchange := newExchange cfg startup.user (← get).tlsUsed
  send cfg env rounds (.sasl exchange.mechanisms) .startup
  let (mechanism, first) ← parsed (Framing.parseSaslInitial (← readTyped cfg env rounds))
  let random ← ask env.nonce
  let (exchange, serverFirst) ← exchanged (exchange.clientFirst mechanism first random)
  send cfg env rounds (.saslContinue serverFirst) .startup
  let final ← readTyped cfg env rounds
  let accepted ← callAlias env startup.database
  let (_, serverFinal) ← exchanged (exchange.clientFinal cfg.hash final accepted)
  log (.proved exchange final accepted)
  return serverFinal

/-- `_TERMINATE_LENGTH`. -/
def terminateLength : Nat := 4

/-- `_after_ready`. No body is read: the message is neither interpreted nor executed. -/
def afterReady : Program SessionOutcome := do
  let kind ← recvExact env cfg.limits rounds .idle 1
  if kind ≠ utf8 ['X'] then throw (.startup .featureNotSupported)
  else do
    let length ← recvExact env cfg.limits rounds .idle 4
    if ofBytes length ≠ terminateLength then throw (.startup .protocolViolation)
    else return .terminated

/-- `_drive`. -/
def drive : Program SessionOutcome := do
  check env .startup
  let body ← negotiate cfg env rounds
  log (.parsing body)
  let startup ← parsed (Framing.parseStartup cfg.lower body)
  let serverFinal ← authenticate cfg env rounds startup
  -- the alias callback may have used up the deadline: no reservation after it
  check env .startup
  match ← callReserve env with
  | none => throw (.startup .internalError)
  | some false => throw (.startup .tooManyConnections)
  | some true => do
      let (processId, secretKey) ← ask env.keyData
      send cfg env rounds (.ready serverFinal processId secretKey) .startup
      modify fun w => { w with authenticated := true }
      afterReady cfg env rounds

/-- The deadline of an error. -/
def reportDue (authenticated : Bool) : Due := if authenticated then .report else .startup

/-- `_report`: a fixed `ErrorResponse`, best effort. -/
def report (category : PgwireErrorCategory) : Program Unit := do
  let due := reportDue (← get).authenticated
  let sent ← tryCatch (do send cfg env rounds (.error category) due; return true) fun failure =>
    match failure with
    | .transport _ => return false
    | failure => throw failure
  if sent then linger env cfg.limits rounds else return ()

/-- `run`. -/
def session : Program SessionResult := do
  let outcome ← tryCatch (drive cfg env rounds) fun failure =>
    match failure with
    | .startup category => do
        report cfg env rounds category
        return .failed category
    | .transport kind => return .broken kind
    | .waiting => throw .waiting
  return ⟨outcome, (← get).tlsUsed, (← get).authenticated⟩

end

end MaskGateway.Pgwire.Session
