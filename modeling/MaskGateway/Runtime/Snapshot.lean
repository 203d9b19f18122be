import MaskGateway.Config.Loader
import MaskGateway.Datasource.Models
import MaskGateway.Datasource.JsonText

/-!
# `MaskGateway.Runtime.Snapshot`: the inputs of a compilation, as bytes

`runtime/snapshot.py`, with the recording compilation of `runtime/candidate.py` and the
`DatasourcePolicy` of `datasource/models.py`. The parent compiles a policy with a provider of secrets
that records what is read, and captures what went in: the policy, the effective limits, the connection
and the secrets. A worker gets the captured inputs together with an identity, checks both, and compiles
again with the captured secrets only.

The bytes are JSON in ASCII with sorted keys. Memory and the recursion limit of Python are left out, so
the category `UNAVAILABLE` is never raised here. The limit on the digits of an integer is not: an
integer that Python cannot print makes `_canonical` refuse.
-/

set_option autoImplicit false

namespace MaskGateway.Runtime.Snapshot

open Lib
open Masking Config
open Datasource (Json Floats DatasourceLimits dumpsWith readText notFinite hasKeys member
  validDatasourceId)

/-! ### Values -/

mutual

/-- A condition holds of a value and of every value inside it. -/
def every (cond : Json → Bool) : Json → Bool
  | .arr items => cond (.arr items) && everyItem cond items
  | .obj fields => cond (.obj fields) && everyField cond fields
  | value => cond value

/-- The same for items. -/
def everyItem (cond : Json → Bool) : List Json → Bool
  | [] => true
  | item :: items => every cond item && everyItem cond items

/-- The same for fields. -/
def everyField (cond : Json → Bool) : List (Name × Json) → Bool
  | [] => true
  | (_, value) :: fields => every cond value && everyField cond fields

end

mutual

/-- How many brackets are open at once in the text of a value. -/
def depth : Json → Nat
  | .arr items => depthItems items + 1
  | .obj fields => depthFields fields + 1
  | _ => 0

/-- The depth of the deepest item. -/
def depthItems : List Json → Nat
  | [] => 0
  | item :: items => max (depth item) (depthItems items)

/-- The depth of the deepest field. -/
def depthFields : List (Name × Json) → Nat
  | [] => 0
  | (_, value) :: fields => max (depth value) (depthFields fields)

end

/-- No key occurs twice in an object, as in every mapping of Python. -/
def keysOnce : Json → Bool
  | .obj fields => decide (fields.map Prod.fst).Nodup
  | _ => true

/-- `sys.int_info.default_max_str_digits`: the digits of the longest integer that Python prints. -/
def maxStrDigits : Nat := 4300

/-- Python prints an integer: it has no more digits than that. -/
def printable : Json → Bool
  | .int value => decide (value.natAbs < 10 ^ maxStrDigits)
  | _ => true

/-! ### Canonical bytes -/

/-- `MAX_SNAPSHOT_BYTES`. -/
def maxSnapshotBytes : Nat := 64 * 1024

/-- `_MAX_DEPTH`. -/
def maxDepth : Nat := 32

/-- `_MAX_IDENTITY`. -/
def maxIdentity : Nat := 2 ^ 63 - 1

/-- `_IDENTITY_ALLOWANCE`. -/
def identityAllowance : Nat := 512

/-- `\u` and the four digits of a UTF-16 unit. -/
def unitText (unit : Nat) : List Char :=
  ['\\', 'u', Nat.digitChar (unit / 4096), Nat.digitChar (unit / 256 % 16),
    Nat.digitChar (unit / 16 % 16), Nat.digitChar (unit % 16)]

/-- The escapes of `ensure_ascii=True`: what is not printable ASCII goes as one unit or as a pair. -/
def escapeAscii (c : Char) : List Char :=
  if c = '"' then ['\\', '"']
  else if c = '\\' then ['\\', '\\']
  else if c = '\n' then ['\\', 'n']
  else if c = '\r' then ['\\', 'r']
  else if c = '\t' then ['\\', 't']
  else if c = '\x0c' then ['\\', 'f']
  else if c = '\x08' then ['\\', 'b']
  else if 32 ≤ c.toNat ∧ c.toNat ≤ 126 then [c]
  else if c.toNat < 0x10000 then unitText c.toNat
  else
    unitText (0xD800 + (c.toNat - 0x10000) / 1024) ++
      unitText (0xDC00 + (c.toNat - 0x10000) % 1024)

/-- The bytes of an ASCII text. -/
def asciiBytes (text : List Char) : List UInt8 := text.map fun c => UInt8.ofNat c.toNat

/-- `str.encode("ascii")`, which raises at any other character. -/
def encodeAscii (text : List Char) : Option (List UInt8) :=
  if text.all fun c => decide (c.toNat < 128) then some (asciiBytes text) else none

/-- `bytes.decode("ascii")`. -/
def decodeAscii (data : List UInt8) : Option (List Char) :=
  if data.all fun byte => decide (byte.toNat < 128) then
    some (data.map fun byte => Char.ofNat byte.toNat)
  else none

/-- The text that `_canonical` encodes. -/
def canonicalText (value : Json) : List Char := dumpsWith escapeAscii value.sorted

/-- `_canonical`. -/
def canonical (value : Json) : Option (List UInt8) :=
  if value.finite = true ∧ every printable value = true ∧
      (canonicalText value).length ≤ maxSnapshotBytes then
    encodeAscii (canonicalText value)
  else none

/-- Where `_depth_guard` is. -/
structure Guard where
  depth : Int := 0
  quoted : Bool := false
  escaped : Bool := false
  deriving DecidableEq

/-- One byte of `_depth_guard`. -/
def Guard.step (guard : Guard) (byte : UInt8) : Option Guard :=
  if guard.quoted then
    if guard.escaped then some { guard with escaped := false }
    else if byte = 92 then some { guard with escaped := true }
    else if byte = 34 then some { guard with quoted := false }
    else some guard
  else if byte = 34 then some { guard with quoted := true }
  else if byte = 91 ∨ byte = 123 then
    if (maxDepth : Int) < guard.depth + 1 then none else some { guard with depth := guard.depth + 1 }
  else if byte = 93 ∨ byte = 125 then some { guard with depth := guard.depth - 1 }
  else some guard

/-- `_depth_guard` lets the bytes through. -/
def depthGuard (data : List UInt8) : Bool := (data.foldlM Guard.step {}).isSome

/-! ### Failures -/

/-- `SnapshotFailure`. -/
inductive SnapshotFailure where
  | invalid
  | policy
  | unavailable
  deriving DecidableEq

/-- `_refuse()` where there is nothing. -/
def orRefuse {α : Type} : Option α → Except SnapshotFailure α
  | none => .error .invalid
  | some value => .ok value

/-- `_decode`. -/
def decode (floats : Floats) (data : List UInt8) : Except SnapshotFailure (List (Name × Json)) :=
  if data = [] ∨ maxSnapshotBytes < data.length ∨ depthGuard data = false then .error .invalid
  else
    match (decodeAscii data).bind (readText floats) with
    | some (.obj fields) =>
        if canonical (.obj fields) = some data then .ok fields else .error .invalid
    | _ => .error .invalid

/-! ### The identity -/

/-- The checks of `SnapshotIdentity`. -/
def validIdentity (datasourceId : Name) (generation recordRevision : Nat) : Bool :=
  validDatasourceId datasourceId && decide (1 ≤ generation ∧ generation ≤ maxIdentity) &&
    decide (1 ≤ recordRevision ∧ recordRevision ≤ maxIdentity)

/-- `SnapshotIdentity`. -/
structure SnapshotIdentity where
  datasourceId : Name
  generation : Nat
  recordRevision : Nat
  valid : validIdentity datasourceId generation recordRevision = true
  deriving DecidableEq

/-- `SnapshotIdentity._mapping`. -/
def SnapshotIdentity.mapping (identity : SnapshotIdentity) : List (Name × Json) :=
  [("datasource_id".toList, .str identity.datasourceId),
    ("generation".toList, .int identity.generation),
    ("record_revision".toList, .int identity.recordRevision)]

/-- `SnapshotIdentity(...)` of what a mapping holds. -/
def makeIdentity : Json → Json → Json → Option SnapshotIdentity
  | .str datasourceId, .int (.ofNat generation), .int (.ofNat recordRevision) =>
      if h : validIdentity datasourceId generation recordRevision = true then
        some ⟨datasourceId, generation, recordRevision, h⟩
      else none
  | _, _, _ => none

/-- `_identity`. -/
def readIdentity : Json → Option SnapshotIdentity
  | .obj fields =>
      if hasKeys fields ["datasource_id", "generation", "record_revision"] then
        makeIdentity (member fields "datasource_id") (member fields "generation")
          (member fields "record_revision")
      else none
  | _ => none

/-! ### Secrets -/

/-- What `RecordingSecrets` reads from: any provider, in any state; nothing where it raises. -/
structure SecretSource (σ : Type) where
  read : Name → σ → Option (Option Name × σ)

/-- `RecordingSecrets`: the state of its source, and the first value read of each name. -/
structure Recording (σ : Type) where
  source : σ
  values : List (Name × Option Name) := []

/-- `RecordingSecrets.get`. -/
def recording {σ : Type} (source : SecretSource σ) :
    SecretProvider (Recording σ) SnapshotFailure where
  get name state :=
    if name ≠ hmacKeyEnv then .error .policy
    else
      match state.values.lookup name with
      | some value => .ok (value, state)
      | none =>
          match source.read name state.source with
          | none => .error .policy
          | some (value, rest) => .ok (value, ⟨rest, state.values ++ [(name, value)]⟩)

/-- `RecordingSecrets._captured`. -/
def Recording.captured {σ : Type} (state : Recording σ) : List (Name × Name) :=
  state.values.filterMap fun entry => entry.2.map fun value => (entry.1, value)

/-- `_ClosedSecrets`: the values, and the names read so far. -/
structure ClosedSecrets where
  values : List (Name × Name)
  read : List Name := []
  deriving DecidableEq

/-- `_ClosedSecrets.get`. -/
def closedSecrets : SecretProvider ClosedSecrets SnapshotFailure where
  get name state :=
    match state.values.lookup name with
    | none => .error .policy
    | some value =>
        .ok (some value,
          { state with read := if name ∈ state.read then state.read else state.read ++ [name] })

/-- `_ClosedSecrets.complete`. -/
def ClosedSecrets.complete (state : ClosedSecrets) : Bool :=
  (state.values.map Prod.fst).all (fun name => state.read.contains name) &&
    state.read.all fun name => (state.values.map Prod.fst).contains name

/-! ### The parts of a compilation -/

/-- What Python and pydantic decide. -/
structure Platform where
  coerce : Coercions
  texts : Texts
  floats : Floats

/-- `freeze_json` of a mapping: the fields with the keys in their order, at every depth. -/
def frozen (fields : List (Name × Json)) : List (Name × Json) :=
  (Json.sortedFields fields).insertionSort fun a b => a.1 ≤ b.1

/-- `DatasourcePolicy.from_mapping`. -/
def policyOf (platform : Platform) (raw : List (Name × Json)) : Option (List (Name × Json)) :=
  (modelValidate platform.coerce raw).map fun parsed => frozen (modelDump parsed.1)

/-- `DatasourcePolicy`: what `from_mapping` returns for some mapping. -/
structure DatasourcePolicy (platform : Platform) where
  value : List (Name × Json)
  validated : ∃ raw, every keysOnce (.obj raw) = true ∧ policyOf platform raw = some value

/-- `effective_database_settings`. -/
def effectiveDatabaseSettings (fileConfig : Document) (limits : DatasourceLimits) :
    DatabaseSettings where
  statementTimeoutMs := min fileConfig.database.statementTimeoutMs limits.statementTimeoutMs
  maxRows := min fileConfig.database.maxRows limits.maxRows

/-- `_compile`. -/
def compile {σ ε : Type} (platform : Platform) (provider : SecretProvider σ ε)
    (policy : List (Name × Json)) (limits : DatasourceLimits) (state : σ) :
    Except (CompileError ε) (GatewayConfig × σ) := do
  let (loaded, state) ← parseConfigBundle platform.coerce platform.texts provider policy state
  return (⟨loaded.gateway.masking, effectiveDatabaseSettings loaded.fileConfig.1 limits,
    loaded.gateway.sql⟩, state)

/-! ### What a snapshot holds -/

/-- The limits, as a mapping. -/
def settingsFields (settings : DatabaseSettings) : List (Name × Json) :=
  [("statement_timeout_ms".toList, .int settings.statementTimeoutMs),
    ("max_rows".toList, .int settings.maxRows)]

/-- `_database`. -/
def readSettings : Json → Option DatabaseSettings
  | .obj fields =>
      if hasKeys fields ["statement_timeout_ms", "max_rows"] then
        match member fields "statement_timeout_ms", member fields "max_rows" with
        | .int timeout, .int rows =>
            if (100 ≤ timeout ∧ timeout ≤ 600000) ∧ 1 ≤ rows ∧ rows ≤ 1000000 then
              some ⟨timeout, rows⟩
            else none
        | _, _ => none
      else none
  | _ => none

/-- A secret of a snapshot: no name but that of the key. -/
def readSecret : Name × Json → Option (Name × Name)
  | (name, .str value) => if name = hmacKeyEnv then some (name, value) else none
  | _ => none

/-- The secrets of a snapshot. -/
def readSecrets : Json → Option (List (Name × Name))
  | .obj fields => fields.mapM readSecret
  | _ => none

/-- The connection of a snapshot: a text that is not empty and has no NUL. -/
def readConninfo : Json → Option Name
  | .str conninfo => if conninfo ≠ [] ∧ '\x00' ∉ conninfo then some conninfo else none
  | _ => none

/-- The mapping that `capture_template` writes. -/
def runtimeFields (policy : List (Name × Json)) (settings : DatabaseSettings) (conninfo : Name)
    (secrets : List (Name × Name)) : List (Name × Json) :=
  [("policy".toList, .obj policy), ("database".toList, .obj (settingsFields settings)),
    ("conninfo".toList, .str conninfo),
    ("secrets".toList, .obj (secrets.map fun secret => (secret.1, .str secret.2)))]

/-- What `_runtime` returns. -/
structure Inputs where
  policy : List (Name × Json)
  database : DatabaseSettings
  conninfo : Name
  secrets : List (Name × Name)

/-- `_runtime`. Whatever it raises is refused as invalid. -/
def runtime (platform : Platform) (raw : List (Name × Json)) : Except SnapshotFailure Inputs := do
  refuseIf (hasKeys raw ["policy", "database", "conninfo", "secrets"] = false) .invalid
  let policyRaw ← orRefuse (readObject (member raw "policy"))
  let policy ← orRefuse (policyOf platform policyRaw)
  let written ← orRefuse (canonical (.obj policy))
  let given ← orRefuse (canonical (.obj policyRaw))
  refuseIf (written ≠ given) .invalid
  let database ← orRefuse (readSettings (member raw "database"))
  let source ← orRefuse (readSettings (member policy "database"))
  refuseIf (source.maxRows < database.maxRows ∨
    source.statementTimeoutMs < database.statementTimeoutMs) .invalid
  let conninfo ← orRefuse (readConninfo (member raw "conninfo"))
  let secrets ← orRefuse (readSecrets (member raw "secrets"))
  return { policy, database, conninfo, secrets }

/-! ### Templates -/

/-- `SnapshotTemplate`. -/
structure SnapshotTemplate (platform : Platform) where
  payload : List UInt8
  small : payload.length ≤ maxSnapshotBytes - identityAllowance
  readable : ∃ fields inputs, decode platform.floats payload = .ok fields ∧
    runtime platform fields = .ok inputs

/-- `SnapshotTemplate(payload)`. -/
def makeTemplate (platform : Platform) (payload : List UInt8) :
    Except SnapshotFailure (SnapshotTemplate platform) :=
  if hsmall : payload.length ≤ maxSnapshotBytes - identityAllowance then
    match hfields : decode platform.floats payload with
    | .error _ => .error .invalid
    | .ok fields =>
        match hinputs : runtime platform fields with
        | .error _ => .error .invalid
        | .ok inputs => .ok ⟨payload, hsmall, fields, inputs, hfields, hinputs⟩
  else .error .invalid

/-- The mapping that `bind` writes. -/
def envelope (identity : SnapshotIdentity) (fields : List (Name × Json)) : List (Name × Json) :=
  [("version".toList, .int 1), ("identity".toList, .obj identity.mapping),
    ("runtime".toList, .obj fields)]

/-- `SnapshotTemplate.bind`. -/
def SnapshotTemplate.bind {platform : Platform} (template : SnapshotTemplate platform)
    (identity : SnapshotIdentity) : Except SnapshotFailure (List UInt8) := do
  let fields ← decode platform.floats template.payload
  orRefuse (canonical (.obj (envelope identity fields)))

/-- `capture_template`. -/
def captureTemplate {platform : Platform} (policy : DatasourcePolicy platform)
    (config : GatewayConfig) (conninfo : Name) (secrets : List (Name × Name)) :
    Except SnapshotFailure (SnapshotTemplate platform) := do
  let payload ← orRefuse
    (canonical (.obj (runtimeFields policy.value config.database conninfo secrets)))
  makeTemplate platform payload

/-! ### Compiling again -/

/-- `RecompiledSnapshot`, with the policy of its engine. -/
structure RecompiledSnapshot where
  identity : SnapshotIdentity
  config : GatewayConfig
  engine : MaskingPolicy Transformer
  conninfo : Name

/-- The category of an error of the compilation. -/
def CompileError.category : CompileError SnapshotFailure → SnapshotFailure
  | .invalid | .rule .. => .policy
  | .provider category => category

/-- `recompile_snapshot` up to the compilation: the inputs of a snapshot for this identity. -/
def openSnapshot (platform : Platform) (data : List UInt8) (expected : SnapshotIdentity) :
    Except SnapshotFailure Inputs := do
  let raw ← decode platform.floats data
  refuseIf (hasKeys raw ["version", "identity", "runtime"] = false) .invalid
  match member raw "version" with
  | .int version => do
      refuseIf (version ≠ 1) .invalid
      let identity ← orRefuse (readIdentity (member raw "identity"))
      refuseIf (identity ≠ expected) .invalid
      let fields ← orRefuse (readObject (member raw "runtime"))
      runtime platform fields
  | _ => .error .invalid

/-- `recompile_snapshot`, with the closed secrets as the compilation leaves them. -/
def recompileWith (platform : Platform) (data : List UInt8) (expected : SnapshotIdentity) :
    Except SnapshotFailure (RecompiledSnapshot × ClosedSecrets) := do
  let inputs ← openSnapshot platform data expected
  let (loaded, secrets) ← (parseConfigBundle platform.coerce platform.texts closedSecrets
    inputs.policy ⟨inputs.secrets, []⟩).mapError CompileError.category
  refuseIf (secrets.complete = false) .policy
  let config : GatewayConfig := ⟨loaded.gateway.masking, inputs.database, loaded.gateway.sql⟩
  return (⟨expected, config, config.masking, inputs.conninfo⟩, secrets)

/-- `recompile_snapshot`. -/
def recompileSnapshot (platform : Platform) (data : List UInt8) (expected : SnapshotIdentity) :
    Except SnapshotFailure RecompiledSnapshot :=
  (recompileWith platform data expected).map Prod.fst

end MaskGateway.Runtime.Snapshot
