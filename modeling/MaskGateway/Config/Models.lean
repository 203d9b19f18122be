import MaskGateway.Datasource.Json

/-!
# `MaskGateway.Config.Models`: the content of `masking.yaml`

`config/models.py`, with the ids of `config/ids.py` and `validate_file_config`. A `Document` is what a
caller proposes; a `MaskingFileConfig` is one that the models let through. The `config` of a rule is a
JSON object: no transformer takes anything else.
-/

set_option autoImplicit false

namespace MaskGateway.Config

open Masking (MatchMode)
open Datasource (Json)

/-! ### Ids -/

/-- A prefix and 32 lowercase hexadecimal digits. -/
def validId (idPrefix value : Name) : Bool :=
  value.take idPrefix.length == idPrefix && (value.drop idPrefix.length).length == 32 &&
    (value.drop idPrefix.length).all fun c => "0123456789abcdef".toList.contains c

/-- `RULE_ID_PATTERN`. -/
def validRuleId : Name → Bool := validId "rul_".toList

/-- `EXCEPTION_ID_PATTERN`. -/
def validExceptionId : Name → Bool := validId "exc_".toList

/-- What `new_rule_id` returns. -/
abbrev RuleId := { id : Name // validRuleId id = true }

/-- What `new_exception_id` returns. -/
abbrev ExceptionId := { id : Name // validExceptionId id = true }

/-! ### The document -/

/-- `ExceptionConfig`. -/
structure ExceptionConfig where
  match_ : Name
  mode : MatchMode := .exact
  caseSensitive : Bool := false
  id : Option Name := none
  deriving DecidableEq

/-- `RuleConfig`. -/
structure RuleConfig where
  match_ : Name
  mode : MatchMode := .contains
  caseSensitive : Bool := false
  transformer : Name
  config : List (Name × Json) := []
  id : Option Name := none

/-- `DatabaseConfig`. -/
structure DatabaseConfig where
  statementTimeoutMs : Int := 30000
  maxRows : Int := 1000
  deriving DecidableEq

/-- `SqlConfig`. -/
structure SqlConfig where
  allowedPgFunctions : List Name := []
  deniedFunctions : List Name := []
  deriving DecidableEq

/-- The whole document. -/
structure Document where
  revision : Nat := 0
  masking : List RuleConfig := []
  exceptions : List ExceptionConfig := []
  database : DatabaseConfig := {}
  sql : SqlConfig := {}

/-! ### What the models check -/

/-- The fields of an exception. -/
def ExceptionConfig.valid (item : ExceptionConfig) : Bool :=
  decide (item.match_ ≠ []) && item.id.all validExceptionId

/-- The fields of a rule. -/
def RuleConfig.valid (rule : RuleConfig) : Bool :=
  decide (rule.match_ ≠ []) && decide (rule.transformer ≠ []) && rule.id.all validRuleId

/-- The ranges of the limits. -/
def DatabaseConfig.valid (database : DatabaseConfig) : Bool :=
  decide (100 ≤ database.statementTimeoutMs ∧ database.statementTimeoutMs ≤ 600000) &&
    decide (1 ≤ database.maxRows ∧ database.maxRows ≤ 1000000)

/-- The ids of the rules, those that have one. -/
def Document.ruleIds (document : Document) : List Name := document.masking.filterMap (·.id)

/-- The ids of the exceptions, those that have one. -/
def Document.exceptionIds (document : Document) : List Name := document.exceptions.filterMap (·.id)

/-- `_adopted_requires_ids`: once adopted, every item has an id and no two have the same. -/
def Document.adoptedRequiresIds (document : Document) : Bool :=
  document.revision == 0 ||
    (document.masking.all (·.id.isSome) && document.exceptions.all (·.id.isSome) &&
      decide document.ruleIds.Nodup && decide document.exceptionIds.Nodup)

/-- Everything that `MaskingFileConfig` checks. -/
def Document.valid (document : Document) : Bool :=
  document.masking.all (·.valid) && document.exceptions.all (·.valid) && document.database.valid &&
    document.adoptedRequiresIds

/-- `MaskingFileConfig`. -/
abbrev MaskingFileConfig := { document : Document // document.valid = true }

/-- `validate_file_config`; nothing where it raises `ConfigError`. -/
def validateFileConfig (document : Document) : Option MaskingFileConfig :=
  if h : document.valid = true then some ⟨document, h⟩ else none

/-- The document was adopted by the Admin API. -/
def Document.adopted (document : Document) : Prop := document.revision ≠ 0

end MaskGateway.Config
