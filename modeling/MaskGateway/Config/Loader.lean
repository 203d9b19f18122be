import MaskGateway.Config.Models
import MaskGateway.Lib.Except
import MaskGateway.Masking.Transformers

/-!
# `MaskGateway.Config.Loader`: a mapping becomes a compiled policy

`MaskingFileConfig.model_validate` and `model_dump` of `config/models.py` on JSON values,
`compile_policy` of `config/loader.py`, `SqlPolicy.build` of `sql/policy.py`, and `parse_config_bundle`
of `config/gateway.py`.

The models are not strict: an integer is also read from other values, from a text of digits for
instance, and so is a boolean. Which values those are belongs to pydantic (`Coercions`); here only that
an integer is read as itself, and a boolean as itself.
-/

set_option autoImplicit false

namespace MaskGateway.Config

open Lib
open Masking
open Datasource (Json)

/-! ### Reading a mapping -/

/-- What pydantic reads as an integer, and as a boolean. -/
structure Coercions where
  int : Json → Option Int
  bool : Json → Option Bool
  int_int : ∀ value, int (.int value) = some value
  bool_bool : ∀ value, bool (.bool value) = some value

/-- `extra="forbid"`: no key but these. -/
def closed (fields : List (Name × Json)) (names : List String) : Bool :=
  fields.all fun field => (names.map String.toList).contains field.1

/-- A field that must be there. -/
def requiredField {α : Type} (fields : List (Name × Json)) (key : String) (read : Json → Option α) :
    Option α :=
  (fields.lookup key.toList).bind read

/-- A field with a default. -/
def optionalField {α : Type} (fields : List (Name × Json)) (key : String) (default_ : α)
    (read : Json → Option α) : Option α :=
  match fields.lookup key.toList with
  | none => some default_
  | some value => read value

/-- `str`. -/
def readText : Json → Option Name
  | .str value => some value
  | _ => none

/-- `str | None`. -/
def readId : Json → Option (Option Name)
  | .null => some none
  | .str value => some (some value)
  | _ => none

/-- `MatchMode`. -/
def readMode : Json → Option MatchMode
  | .str value =>
      if value = "contains".toList then some .contains
      else if value = "exact".toList then some .exact
      else none
  | _ => none

/-- `dict[str, Any]`. -/
def readObject : Json → Option (List (Name × Json))
  | .obj fields => some fields
  | _ => none

/-- `list[...]`. -/
def readList {α : Type} (read : Json → Option α) : Json → Option (List α)
  | .arr items => items.mapM read
  | _ => none

section

variable (coerce : Coercions)

/-- `revision`, which is not negative. -/
def readRevision (value : Json) : Option Nat :=
  match coerce.int value with
  | some (.ofNat revision) => some revision
  | _ => none

/-- `RuleConfig`. -/
def readRule : Json → Option RuleConfig
  | .obj fields =>
      if closed fields ["match", "mode", "case_sensitive", "transformer", "config", "id"] then do
        let match_ ← requiredField fields "match" readText
        let mode ← optionalField fields "mode" .contains readMode
        let caseSensitive ← optionalField fields "case_sensitive" false coerce.bool
        let transformer ← requiredField fields "transformer" readText
        let config ← optionalField fields "config" [] readObject
        let id ← optionalField fields "id" none readId
        return { match_, mode, caseSensitive, transformer, config, id }
      else none
  | _ => none

/-- `ExceptionConfig`. -/
def readException : Json → Option ExceptionConfig
  | .obj fields =>
      if closed fields ["match", "mode", "case_sensitive", "id"] then do
        let match_ ← requiredField fields "match" readText
        let mode ← optionalField fields "mode" .exact readMode
        let caseSensitive ← optionalField fields "case_sensitive" false coerce.bool
        let id ← optionalField fields "id" none readId
        return { match_, mode, caseSensitive, id }
      else none
  | _ => none

/-- `DatabaseConfig`. -/
def readDatabase : Json → Option DatabaseConfig
  | .obj fields =>
      if closed fields ["statement_timeout_ms", "max_rows"] then do
        let statementTimeoutMs ← optionalField fields "statement_timeout_ms" 30000 coerce.int
        let maxRows ← optionalField fields "max_rows" 1000 coerce.int
        return { statementTimeoutMs, maxRows }
      else none
  | _ => none

/-- `SqlConfig`. -/
def readSql : Json → Option SqlConfig
  | .obj fields =>
      if closed fields ["allowed_pg_functions", "denied_functions"] then do
        let allowedPgFunctions ← optionalField fields "allowed_pg_functions" [] (readList readText)
        let deniedFunctions ← optionalField fields "denied_functions" [] (readList readText)
        return { allowedPgFunctions, deniedFunctions }
      else none
  | _ => none

/-- The fields of `MaskingFileConfig`. -/
def readDocument (fields : List (Name × Json)) : Option Document :=
  if closed fields ["revision", "masking", "exceptions", "database", "sql"] then do
    let revision ← optionalField fields "revision" 0 (readRevision coerce)
    let masking ← optionalField fields "masking" [] (readList (readRule coerce))
    let exceptions ← optionalField fields "exceptions" [] (readList (readException coerce))
    let database ← optionalField fields "database" {} (readDatabase coerce)
    let sql ← optionalField fields "sql" {} readSql
    return { revision, masking, exceptions, database, sql }
  else none

/-- `MaskingFileConfig.model_validate` of a mapping. -/
def modelValidate (fields : List (Name × Json)) : Option MaskingFileConfig :=
  (readDocument coerce fields).bind validateFileConfig

end

/-! ### Writing a mapping -/

/-- The text of a mode. -/
def modeText : MatchMode → Name
  | .contains => "contains".toList
  | .exact => "exact".toList

/-- An id, or `None`. -/
def idJson : Option Name → Json
  | none => .null
  | some id => .str id

/-- A rule in `model_dump(mode="json")`. -/
def ruleFields (rule : RuleConfig) : List (Name × Json) :=
  [("match".toList, .str rule.match_), ("mode".toList, .str (modeText rule.mode)),
    ("case_sensitive".toList, .bool rule.caseSensitive),
    ("transformer".toList, .str rule.transformer), ("config".toList, .obj rule.config),
    ("id".toList, idJson rule.id)]

/-- An exception. -/
def exceptionFields (item : ExceptionConfig) : List (Name × Json) :=
  [("match".toList, .str item.match_), ("mode".toList, .str (modeText item.mode)),
    ("case_sensitive".toList, .bool item.caseSensitive), ("id".toList, idJson item.id)]

/-- The limits. -/
def databaseFields (database : DatabaseConfig) : List (Name × Json) :=
  [("statement_timeout_ms".toList, .int database.statementTimeoutMs),
    ("max_rows".toList, .int database.maxRows)]

/-- The extensions of the SQL policy. -/
def sqlFields (sql : SqlConfig) : List (Name × Json) :=
  [("allowed_pg_functions".toList, .arr (sql.allowedPgFunctions.map Json.str)),
    ("denied_functions".toList, .arr (sql.deniedFunctions.map Json.str))]

/-- `MaskingFileConfig.model_dump(mode="json")`. -/
def modelDump (document : Document) : List (Name × Json) :=
  [("revision".toList, .int document.revision),
    ("masking".toList, .arr (document.masking.map fun rule => .obj (ruleFields rule))),
    ("exceptions".toList, .arr (document.exceptions.map fun item => .obj (exceptionFields item))),
    ("database".toList, .obj (databaseFields document.database)),
    ("sql".toList, .obj (sqlFields document.sql))]

/-! ### The compiled policy -/

/-- `_spec` of a rule. -/
def RuleConfig.spec (rule : RuleConfig) : MatchSpec := ⟨rule.match_, rule.mode, rule.caseSensitive⟩

/-- `_spec` of an exception. -/
def ExceptionConfig.spec (item : ExceptionConfig) : MatchSpec :=
  ⟨item.match_, item.mode, item.caseSensitive⟩

/-- What `parse_config_bundle` raises: `ConfigError`, or what the provider of secrets raises. -/
inductive CompileError (ε : Type) where
  /-- `configuracao invalida` -/
  | invalid
  /-- `regra #index (match=...)`, and what its builder said -/
  | rule (index : Nat) (match_ : Name) (error : TransformerError)
  | provider (error : ε)
  deriving DecidableEq

/-- An error of a builder, raised again with the rule it is about. -/
def atRule {ε : Type} (index : Nat) (rule : RuleConfig) : BuildError ε → CompileError ε
  | .config error => .rule index rule.match_ error
  | .provider error => .provider error

section

variable {σ ε : Type} (texts : Texts) (provider : SecretProvider σ ε)

/-- The rules of `compile_policy`, from the rule at `index` on. -/
def compileRules : Nat → List RuleConfig → σ →
    Except (CompileError ε) (List (MaskingRule Transformer) × σ)
  | _, [], state => .ok ([], state)
  | index, rule :: rules, state => do
      let (transformer, state) ←
        (build texts provider rule.transformer rule.config state).mapError (atRule index rule)
      let (compiled, state) ← compileRules (index + 1) rules state
      return (⟨rule.spec, transformer, rule.transformer, index⟩ :: compiled, state)

/-- Rules are numbered by their position. -/
theorem compileRules_index {rules : List RuleConfig} :
    ∀ {first : Nat} {state after : σ} {compiled : List (MaskingRule Transformer)},
      compileRules texts provider first rules state = .ok (compiled, after) →
      ∀ (i : Nat) (rule : MaskingRule Transformer), compiled[i]? = some rule →
        rule.index = first + i := by
  induction rules with
  | nil =>
      intro first state after compiled h i rule hrule
      cases h
      cases hrule
  | cons head rules ih =>
      intro first state after compiled h i rule hrule
      simp only [compileRules, bind_eq_ok, pure_eq_ok] at h
      obtain ⟨⟨transformer, middle⟩, -, ⟨rest, last⟩, hrest, heq⟩ := h
      cases heq
      cases i with
      | zero =>
          cases hrule
          rfl
      | succ i =>
          have hindex := ih hrest i rule hrule
          omega

/-- `compile_policy`. -/
def compilePolicy (parsed : Document) (state : σ) :
    Except (CompileError ε) (MaskingPolicy Transformer × σ) :=
  match h : compileRules texts provider 0 parsed.masking state with
  | .error error => .error error
  | .ok (rules, state) =>
      .ok ({ exceptions := parsed.exceptions.mapIdx fun index item => ⟨item.spec, index⟩
             rules := rules
             index_eq := fun i rule hrule => by
               simpa using compileRules_index texts provider h i rule hrule }, state)

end

/-! ### The SQL policy -/

/-- `DEFAULT_ALLOWED_PG_FUNCTIONS`. -/
def defaultAllowedPgFunctions : List Name :=
  ["pg_typeof", "pg_size_pretty", "pg_column_size"].map String.toList

/-- `DEFAULT_DENIED_PREFIXES`. -/
def defaultDeniedPrefixes : List Name :=
  ["dblink", "lo_", "query_to_xml", "table_to_xml", "cursor_to_xml", "schema_to_xml",
    "database_to_xml"].map String.toList

/-- `DEFAULT_DENIED_FUNCTIONS`. -/
def defaultDeniedFunctions : List Name :=
  ["set_config", "setseed", "lo_import", "lo_export"].map String.toList

/-- `DENIED_RELATIONS`. -/
def deniedRelations : List Name :=
  ["pg_statistic", "pg_stats", "pg_stats_ext", "pg_stats_ext_exprs", "pg_statistic_ext",
    "pg_statistic_ext_data"].map String.toList

/-- `SqlPolicy`. The lists stand for sets. -/
structure SqlPolicy where
  allowedPgFunctions : List Name := defaultAllowedPgFunctions
  deniedFunctions : List Name := defaultDeniedFunctions
  deniedPrefixes : List Name := defaultDeniedPrefixes
  deniedRelations : List Name := Config.deniedRelations
  deriving DecidableEq

/-- `_normalize`, with `canonical_function_name`. -/
def normalizeFunctions (texts : Texts) (names : List Name) : List Name :=
  (names.filter fun name => texts.strip name ≠ []).map fun name => texts.casefold (texts.strip name)

/-- `SqlPolicy.build`. -/
def SqlPolicy.build (texts : Texts) (extraAllowed extraDenied : List Name) : SqlPolicy where
  allowedPgFunctions := defaultAllowedPgFunctions ++ normalizeFunctions texts extraAllowed
  deniedFunctions := defaultDeniedFunctions ++ normalizeFunctions texts extraDenied

/-! ### The whole configuration -/

/-- `DatabaseSettings`. -/
structure DatabaseSettings where
  statementTimeoutMs : Int
  maxRows : Int
  deriving DecidableEq

/-- `GatewayConfig`. -/
structure GatewayConfig where
  masking : MaskingPolicy Transformer
  database : DatabaseSettings
  sql : SqlPolicy

/-- `LoadedConfig`. -/
structure LoadedConfig where
  fileConfig : MaskingFileConfig
  gateway : GatewayConfig

/-- `build_gateway_config`. -/
def buildGatewayConfig (texts : Texts) (parsed : Document) (policy : MaskingPolicy Transformer) :
    GatewayConfig where
  masking := policy
  database := ⟨parsed.database.statementTimeoutMs, parsed.database.maxRows⟩
  sql := SqlPolicy.build texts parsed.sql.allowedPgFunctions parsed.sql.deniedFunctions

/-- `parse_config_bundle` of a mapping. -/
def parseConfigBundle {σ ε : Type} (coerce : Coercions) (texts : Texts)
    (provider : SecretProvider σ ε) (raw : List (Name × Json)) (state : σ) :
    Except (CompileError ε) (LoadedConfig × σ) :=
  match modelValidate coerce raw with
  | none => .error .invalid
  | some parsed => do
      let (policy, state) ← compilePolicy texts provider parsed.1 state
      return (⟨parsed, buildGatewayConfig texts parsed.1 policy⟩, state)

end MaskGateway.Config
