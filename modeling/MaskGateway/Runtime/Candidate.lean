import MaskGateway.Datasource.Destination
import MaskGateway.Datasource.Operations
import MaskGateway.Runtime.Datasources

/-!
# `MaskGateway.Runtime.Candidate`: a generation before it is published

`runtime/candidate.py`. A candidate is built from the fields of a record or a draft and the secret:
the destination is resolved again, the policy compiled, and one connection opened to verify what the
server promises. Only `target` decides where that connection goes and which password it takes.

What the resolver answers, whether a policy compiles, and what the verification of a connection finds
are fields of `Surroundings`. So is every other failure that a call can meet.
-/

set_option autoImplicit false

namespace MaskGateway.Runtime.Candidate

open Lib
open MaskGateway.Datasource MaskGateway.Runtime.Datasources

/-- `CandidateFailure`. -/
inductive CandidateFailure where
  | destination
  | policy
  | connection
  | capability
  deriving DecidableEq

/-- `_FAILURE_MESSAGES`. -/
def CandidateFailure.message : CandidateFailure → String
  | .destination => "destino do datasource recusado"
  | .policy => "politica do datasource invalida"
  | .connection => "conexao com o datasource falhou"
  | .capability => "datasource sem as garantias exigidas"

/-- What building a candidate raises: `DatasourceCandidateError`, or what a collaborator raises and
`build_candidate` does not catch. -/
inductive CandidateError where
  | failed (category : CandidateFailure)
  | escaped (error : StoreError)
  deriving DecidableEq

/-- `CandidateSpec`. -/
structure CandidateSpec where
  host : Name
  port : Nat
  database : Name
  username : Name
  tls : TlsSettings
  policy : List (Name × Json)
  limits : DatasourceLimits
  destinationPolicy : DestinationPolicy
  expectedAddresses : Option (List Name)
  secret : Name

/-- `CandidateSpec.from_record`: the pinned addresses are compulsory. -/
def CandidateSpec.fromRecord (record : DatasourceRecord) (secret : Name) : CandidateSpec where
  host := record.host
  port := record.port
  database := record.database
  username := record.username
  tls := record.tls
  policy := record.policy
  limits := record.limits
  destinationPolicy := record.destinationPolicy
  expectedAddresses := some record.resolvedAddresses
  secret := secret

/-- `CandidateSpec.from_draft`. -/
def CandidateSpec.fromDraft (draft : DatasourceDraft) (secret : Name) : CandidateSpec where
  host := draft.host
  port := draft.port
  database := draft.database
  username := draft.username
  tls := draft.tls
  policy := draft.policy
  limits := draft.limits
  destinationPolicy := draft.destinationPolicy
  expectedAddresses := pinned draft.resolvedAddresses
  secret := secret

/-- What `make_conninfo` is given. -/
structure Conninfo where
  host : Name
  hostaddr : Name
  port : Nat
  dbname : Name
  user : Name
  password : Name
  sslmode : TlsMode
  connectTimeout : Nat
  deriving DecidableEq

/-- `CONNECT_TIMEOUT_SECONDS`. -/
def connectTimeoutSeconds : Nat := 10

/-- `",".join`. -/
def joined (texts : List Name) : Name := [','].intercalate texts

/-- `build_conninfo`. -/
def buildConninfo (spec : CandidateSpec) (addresses : List Name) : Conninfo where
  host := joined (addresses.map fun _ => spec.tls.serverName.getD spec.host)
  hostaddr := joined addresses
  port := spec.port
  dbname := spec.database
  user := spec.username
  password := spec.secret
  sslmode := spec.tls.mode
  connectTimeout := connectTimeoutSeconds

/-- A `PreparedRuntime`, with what the registry does not read of it. -/
structure Candidate where
  prepared : PreparedRuntime
  addresses : List Name
  conninfo : Conninfo

/-- What a resolver raises. -/
inductive ResolverError where
  /-- `DestinationValidationError` -/
  | refused (message : String)
  /-- `OSError` -/
  | system (message : String)
  /-- anything else -/
  | other (message : String)
  deriving DecidableEq

/-- The exception of a resolver, among those of the store. -/
def ResolverError.raised : ResolverError → StoreError
  | .refused message => ⟨.destination, message⟩
  | .system message => ⟨.filesystem, message⟩
  | .other message => ⟨.typeError, message⟩

/-- What a call meets outside: the answers of the collaborators, what the system draws, and the
failures of the store and the registry. -/
structure Surroundings where
  net : Addressing
  /-- The resolver of the service. -/
  answers : Name → Nat → Except ResolverError (List Name)
  /-- The policy compiles, with the secrets of the environment. -/
  compiles : List (Name × Json) → DatasourceLimits → Bool
  /-- The verifier, on a candidate. -/
  verify : Candidate → Except CandidateError Unit
  /-- The id and the nonce that the store draws. -/
  datasourceId : { id : Name // validDatasourceId id = true }
  nonce : Nonce
  faults : Faults := {}
  /-- The registry raises before it does anything. -/
  reserveFails : Option DatasourceError := none
  publishFails : Option DatasourceError := none
  withdrawFails : Option DatasourceError := none
  /-- The view cannot be put together. -/
  sealFails : Bool := false

/-- The resolver, as `resolve_destination` calls it. -/
def Surroundings.resolver (env : Surroundings) (host : Name) (port : Nat) :
    Except StoreError (List Name) :=
  (env.answers host port).mapError ResolverError.raised

section

variable (v : Validators) (env : Surroundings)

/-- The exceptions of the resolution that `build_candidate` catches. -/
def caughtByBuild (error : StoreError) : Bool :=
  error.kind = .destination || error.kind = .validation || error.kind = .filesystem

/-- `build_candidate` up to the verification. -/
def target (spec : CandidateSpec) : Except CandidateError Candidate :=
  match resolveDestination v env.net spec.host spec.port spec.destinationPolicy env.resolver
      spec.expectedAddresses with
  | .error error =>
      .error (if caughtByBuild error then .failed .destination else .escaped error)
  | .ok addresses =>
      if env.compiles spec.policy spec.limits then
        .ok { prepared := { maxSessions := spec.limits.maxSessions }
              addresses := addresses
              conninfo := buildConninfo spec addresses }
      else .error (.failed .policy)

/-- `build_candidate`. -/
def buildCandidate (spec : CandidateSpec) : Except CandidateError Candidate := do
  let candidate ← target v env spec
  env.verify candidate
  return candidate

/-- `verify_policy`. -/
def verifyPolicy (policy : List (Name × Json)) (limits : DatasourceLimits) :
    Except CandidateError Unit :=
  refuseIf (env.compiles policy limits = false) (.failed .policy)

end

end MaskGateway.Runtime.Candidate
