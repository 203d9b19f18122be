import MaskGateway.Datasource.Json
import MaskGateway.Lib.Base64

/-!
# `MaskGateway.Datasource.Models`: datasource records and their JSON form

`datasource/models.py` with the record half of `datasource/store.py` (`_record_to_json`,
`_parse_envelope`, `_parse_record`). A record is valid when every check that
`DatasourceRecord.__post_init__` and the constructors of its parts make passes; `CatalogRecord` is
the type of the valid ones.

What the checks ask of other packages is a parameter (`Validators`): which texts `ipaddress`
takes for an address and `datetime.fromisoformat` for a time with a zone, the white space and
the lower case of Unicode, and the masking schema that pydantic validates. Of these only one law is
used: the dump of a validated policy validates to itself.
-/

set_option autoImplicit false

namespace MaskGateway.Datasource

open Lib

/-- What the models ask of other packages. -/
structure Validators where
  /-- `ipaddress.ip_address` accepts the text. -/
  isAddress : Name → Bool
  /-- `datetime.fromisoformat` accepts the text and finds a time zone. -/
  isTimestamp : Name → Bool
  /-- White space for `str.strip`. -/
  isSpace : Char → Bool
  /-- `str.lower`. -/
  lower : Name → Name
  /-- `MaskingFileConfig.model_validate`, then `model_dump(mode="json")`. -/
  policy : List (Name × Json) → Option (List (Name × Json))
  /-- A dumped policy validates to itself. -/
  policy_dump : ∀ raw dumped, policy raw = some dumped → policy dumped = some dumped

/-! ### Texts -/

/-- `_safe_text`: not empty, not too long, no white space around it, no control character. -/
def safeText (v : Validators) (maxLength : Nat) (value : Name) : Bool :=
  value != [] && decide (value.length ≤ maxLength) && !(value.head?.any v.isSpace) &&
    !(value.getLast?.any v.isSpace) &&
    value.all fun c => !(decide (c.toNat < 32) || c.toNat == 127)

/-- `validate_datasource_id`: `dso_` and 32 lowercase hexadecimal digits. -/
def validDatasourceId (value : Name) : Bool :=
  value.take 4 == "dso_".toList && (value.drop 4).length == 32 &&
    (value.drop 4).all fun c => "0123456789abcdef".toList.contains c

/-- `validate_alias`: a lowercase letter and up to 62 of `a-z0-9_-`. -/
def validAlias : Name → Bool
  | [] => false
  | first :: rest =>
      first.isLower && decide (rest.length ≤ 62) &&
        rest.all fun c => c.isLower || c.isDigit || c == '_' || c == '-'

/-- A label of a host name. -/
def validLabel (label : Name) : Bool :=
  label != [] && decide (label.length ≤ 63) &&
    label.all fun c => c.isAlpha || c.isDigit || c == '-'

/-- `validate_host`. -/
def validHost (v : Validators) (host : Name) : Bool :=
  safeText v 253 host && !(host.contains '/') && !(host.contains '@') &&
    !(host.contains '\\') &&
    (v.isAddress host ||
      ((host.contains '.' || host.contains ':') &&
        ((host.rdropWhile (· == '.')).splitOn '.').all validLabel))

/-! ### Parts of a record -/

/-- The TLS modes. -/
inductive TlsMode where
  | disable
  | require
  | verifyFull
  deriving DecidableEq

/-- The text of a TLS mode. -/
def TlsMode.text : TlsMode → String
  | .disable => "disable"
  | .require => "require"
  | .verifyFull => "verify-full"

/-- The TLS mode of a JSON value. -/
def TlsMode.ofJson (value : Json) : Option TlsMode :=
  [TlsMode.disable, .require, .verifyFull].find? fun mode => value.isText mode.text

/-- TLS settings. -/
structure TlsSettings where
  mode : TlsMode
  serverName : Option Name
  deriving DecidableEq

/-- `TlsSettings.__post_init__`. -/
def TlsSettings.valid (v : Validators) (tls : TlsSettings) : Bool :=
  tls.serverName.all (validHost v)

/-- The limits of a datasource, in their ranges. -/
structure DatasourceLimits where
  statementTimeoutMs : Nat
  maxRows : Nat
  maxSessions : Nat
  timeout_range : 100 ≤ statementTimeoutMs ∧ statementTimeoutMs ≤ 600000
  rows_range : 1 ≤ maxRows ∧ maxRows ≤ 1000000
  sessions_range : 1 ≤ maxSessions ∧ maxSessions ≤ 1000
  deriving DecidableEq

/-- The network policy stored with a datasource. -/
structure DestinationPolicy where
  allowPublic : Bool
  allowLoopback : Bool
  allowedHosts : List Name
  deriving DecidableEq

/-- `DestinationPolicy.__post_init__`. -/
def DestinationPolicy.valid (v : Validators) (policy : DestinationPolicy) : Bool :=
  decide (policy.allowedHosts.map v.lower = policy.allowedHosts) &&
    decide policy.allowedHosts.Nodup && policy.allowedHosts.all (validHost v)

/-- The outcomes of a connection test. -/
inductive TestStatus where
  | never
  | passed
  | failed
  deriving DecidableEq

/-- The text of a test status. -/
def TestStatus.text : TestStatus → String
  | .never => "never"
  | .passed => "passed"
  | .failed => "failed"

/-- The test status of a JSON value. -/
def TestStatus.ofJson (value : Json) : Option TestStatus :=
  [TestStatus.never, .passed, .failed].find? fun status => value.isText status.text

/-- The last connection test. -/
structure LastTest where
  status : TestStatus := .never
  checkedAt : Option Name := none
  deriving DecidableEq

/-- `LastTest.__post_init__`. -/
def LastTest.valid (v : Validators) (test : LastTest) : Bool :=
  test.checkedAt.all v.isTimestamp

/-- A sealed secret: nonce and ciphertext of AES-256-GCM, version 1. -/
structure EncryptedSecret where
  nonce : List UInt8
  ciphertext : List UInt8
  nonce_length : nonce.length = 12
  ciphertext_length : 16 ≤ ciphertext.length
  deriving DecidableEq

/-! ### Drafts and records -/

/-- The data of a datasource that are not secret. -/
structure DatasourceDraft where
  alias_ : Name
  displayName : Name
  host : Name
  port : Nat
  database : Name
  username : Name
  enabled : Bool
  tls : TlsSettings
  policy : List (Name × Json)
  limits : DatasourceLimits
  destinationPolicy : DestinationPolicy
  resolvedAddresses : List Name

/-- `DatasourceDraft.__post_init__`, with the checks of the parts. -/
def DatasourceDraft.valid (v : Validators) (draft : DatasourceDraft) : Bool :=
  validAlias draft.alias_ && safeText v 128 draft.displayName && validHost v draft.host &&
    decide (1 ≤ draft.port ∧ draft.port ≤ 65535) && safeText v 63 draft.database &&
    safeText v 63 draft.username && decide draft.resolvedAddresses.Nodup &&
    draft.resolvedAddresses.all v.isAddress && draft.tls.valid v &&
    draft.destinationPolicy.valid v

/-- A stored record, without the secret in clear. -/
structure DatasourceRecord extends DatasourceDraft where
  id : Name
  revision : Nat
  lastTest : LastTest
  upstreamSecret : EncryptedSecret

/-- `DatasourceRecord.__post_init__`, with the checks of the parts and of the policy. -/
structure DatasourceRecord.Valid (v : Validators) (record : DatasourceRecord) : Prop where
  id : validDatasourceId record.id = true
  draft : record.toDatasourceDraft.valid v = true
  revision : 1 ≤ record.revision
  lastTest : record.lastTest.valid v = true
  policy : v.policy record.policy = some record.policy

/-- The records that a catalog holds: those that pass every check. -/
abbrev CatalogRecord (v : Validators) := { record : DatasourceRecord // record.Valid v }

/-! ### The JSON form -/

/-- `envelope_to_json`. -/
def envelopeToJson (envelope : EncryptedSecret) : Json :=
  .obj [("algorithm".toList, .str "AES-256-GCM".toList),
    ("ciphertext".toList, .str (Base64.encode envelope.ciphertext)),
    ("nonce".toList, .str (Base64.encode envelope.nonce)),
    ("version".toList, .int 1)]

/-- A text, or `null` for none. -/
def optionalText : Option Name → Json
  | some value => .str value
  | none => .null

/-- `_record_to_json`. -/
def recordToJson (record : DatasourceRecord) : Json :=
  .obj [("alias".toList, .str record.alias_),
    ("database".toList, .str record.database),
    ("destination_policy".toList, .obj
      [("allow_loopback".toList, .bool record.destinationPolicy.allowLoopback),
       ("allow_public".toList, .bool record.destinationPolicy.allowPublic),
       ("allowed_hosts".toList, .arr (record.destinationPolicy.allowedHosts.map Json.str))]),
    ("display_name".toList, .str record.displayName),
    ("enabled".toList, .bool record.enabled),
    ("host".toList, .str record.host),
    ("id".toList, .str record.id),
    ("last_test".toList, .obj
      [("checked_at".toList, optionalText record.lastTest.checkedAt),
       ("status".toList, .str record.lastTest.status.text.toList)]),
    ("limits".toList, .obj
      [("max_rows".toList, .int record.limits.maxRows),
       ("max_sessions".toList, .int record.limits.maxSessions),
       ("statement_timeout_ms".toList, .int record.limits.statementTimeoutMs)]),
    ("policy".toList, .obj record.policy),
    ("port".toList, .int record.port),
    ("resolved_addresses".toList, .arr (record.resolvedAddresses.map Json.str)),
    ("revision".toList, .int record.revision),
    ("tls".toList, .obj
      [("mode".toList, .str record.tls.mode.text.toList),
       ("server_name".toList, optionalText record.tls.serverName)]),
    ("upstream_secret".toList, envelopeToJson record.upstreamSecret),
    ("username".toList, .str record.username)]

/-- The error that `_parse_record` makes of a failed model check. -/
def invalidRecord : StoreError := ⟨.corrupt, "registro de datasource invalido"⟩

/-- The error of `_parse_envelope`. -/
def invalidEnvelope : StoreError := ⟨.corrupt, "envelope criptografico invalido"⟩

/-- `decode_b64`: a text of the alphabet, not empty. -/
def decodeB64 : Json → Option (List UInt8)
  | .str (c :: value) => Base64.decode (c :: value)
  | _ => none

/-- `_parse_envelope`. -/
def parseEnvelope (value : Json) : Except StoreError EncryptedSecret := do
  let raw ← requireMapping value
  refuseIf (hasKeys raw ["algorithm", "ciphertext", "nonce", "version"] = false)
    invalidEnvelope
  refuseIf ((member raw "algorithm").isText "AES-256-GCM" = false ∨
    (member raw "version").isOne = false) invalidEnvelope
  match decodeB64 (member raw "nonce"), decodeB64 (member raw "ciphertext") with
  | some nonce, some ciphertext =>
      if h : nonce.length = 12 ∧ 16 ≤ ciphertext.length then
        return ⟨nonce, ciphertext, h.1, h.2⟩
      else throw invalidEnvelope
  | _, _ => throw invalidEnvelope

/-- A text or `None`; anything else fails the check of the model. -/
def optionalTextOf : Json → Except StoreError (Option Name)
  | .null => .ok none
  | .str value => .ok (some value)
  | _ => .error invalidRecord

/-- The text of a text. -/
def Json.text? : Json → Option Name
  | .str value => some value
  | _ => none

/-- A value that a model check may have refused. -/
def orInvalid {α : Type} : Option α → Except StoreError α
  | some value => .ok value
  | none => .error invalidRecord

/-- The destination policy of a record. -/
def parseDestination (v : Validators) (value : Json) : Except StoreError DestinationPolicy := do
  let raw ← requireMapping value
  requireKeys raw ["allow_loopback", "allow_public", "allowed_hosts"]
  let allowLoopback ← requireBool (member raw "allow_loopback")
  let allowPublic ← requireBool (member raw "allow_public")
  let allowedHosts ← requireStrTuple (member raw "allowed_hosts")
  let policy : DestinationPolicy := ⟨allowPublic, allowLoopback, allowedHosts⟩
  refuseIf (policy.valid v = false) invalidRecord
  return policy

/-- The TLS settings of a record. -/
def parseTls (v : Validators) (value : Json) : Except StoreError TlsSettings := do
  let raw ← requireMapping value
  requireKeys raw ["mode", "server_name"]
  let mode ← orInvalid (TlsMode.ofJson (member raw "mode"))
  let serverName ← optionalTextOf (member raw "server_name")
  refuseIf (TlsSettings.valid v ⟨mode, serverName⟩ = false) invalidRecord
  return ⟨mode, serverName⟩

/-- The limits of a record. -/
def parseLimits (value : Json) : Except StoreError DatasourceLimits := do
  let raw ← requireMapping value
  requireKeys raw ["max_rows", "max_sessions", "statement_timeout_ms"]
  let maxRows ← requireInt 1 (member raw "max_rows")
  let maxSessions ← requireInt 1 (member raw "max_sessions")
  let statementTimeoutMs ← requireInt 1 (member raw "statement_timeout_ms")
  if h : (100 ≤ statementTimeoutMs ∧ statementTimeoutMs ≤ 600000) ∧
      (1 ≤ maxRows ∧ maxRows ≤ 1000000) ∧ (1 ≤ maxSessions ∧ maxSessions ≤ 1000) then
    return ⟨statementTimeoutMs, maxRows, maxSessions, h.1, h.2.1, h.2.2⟩
  else throw invalidRecord

/-- The last test of a record. -/
def parseLastTest (v : Validators) (value : Json) : Except StoreError LastTest := do
  let raw ← requireMapping value
  requireKeys raw ["checked_at", "status"]
  let status ← orInvalid (TestStatus.ofJson (member raw "status"))
  let checkedAt ← optionalTextOf (member raw "checked_at")
  refuseIf (LastTest.valid v ⟨status, checkedAt⟩ = false) invalidRecord
  return ⟨status, checkedAt⟩

/-- `DatasourcePolicy.from_mapping`: the dumped policy, which validates to itself. -/
def parsePolicy (v : Validators) (raw : List (Name × Json)) :
    Except StoreError { policy : List (Name × Json) // v.policy policy = some policy } :=
  match h : v.policy raw with
  | some policy => .ok ⟨policy, v.policy_dump _ policy h⟩
  | none => .error invalidRecord

/-- The keys of a record. -/
def recordKeys : List String :=
  ["alias", "database", "destination_policy", "display_name", "enabled", "host", "id",
   "last_test", "limits", "policy", "port", "resolved_addresses", "revision", "tls",
   "upstream_secret", "username"]

/-- `_parse_record`. -/
def parseRecord (v : Validators) (value : Json) : Except StoreError (CatalogRecord v) := do
  let raw ← requireMapping value
  requireKeys raw recordKeys
  let destinationPolicy ← parseDestination v (member raw "destination_policy")
  let tls ← parseTls v (member raw "tls")
  let limits ← parseLimits (member raw "limits")
  let lastTest ← parseLastTest v (member raw "last_test")
  let policyRaw ← requireMapping (member raw "policy")
  let alias_ ← requireStr (member raw "alias")
  let displayName ← requireStr (member raw "display_name")
  let host ← requireStr (member raw "host")
  let port ← requireInt 1 (member raw "port")
  let database ← requireStr (member raw "database")
  let username ← requireStr (member raw "username")
  let enabled ← requireBool (member raw "enabled")
  let policy ← parsePolicy v policyRaw
  let resolvedAddresses ← requireStrTuple (member raw "resolved_addresses")
  let draft : DatasourceDraft :=
    { alias_, displayName, host, port, database, username, enabled, tls, policy := policy.1,
      limits, destinationPolicy, resolvedAddresses }
  refuseIf (draft.valid v = false) invalidRecord
  let upstreamSecret ← parseEnvelope (member raw "upstream_secret")
  let id ← orInvalid (member raw "id").text?
  refuseIf (validDatasourceId id = false) invalidRecord
  let revision ← requireInt 1 (member raw "revision")
  -- the constructor of the record checks all of it once more
  if h : validDatasourceId id = true ∧ draft.valid v = true ∧ 1 ≤ revision ∧
      lastTest.valid v = true then
    return ⟨{ toDatasourceDraft := draft, id, revision, lastTest, upstreamSecret },
      ⟨h.1, h.2.1, h.2.2.1, h.2.2.2, policy.2⟩⟩
  else throw invalidRecord

end MaskGateway.Datasource
