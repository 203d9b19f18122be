import MaskGateway.Config.Models
import MaskGateway.Lib.Except
import MaskGateway.Lib.Keyed
import MaskGateway.Lib.Machine

/-!
# `MaskGateway.Admin.Mutations`: what a write does to the document

`admin/http/mutations.py`. A mutation takes the current document and proposes another, or raises. Then
`_next_document` of `admin/service.py` numbers the proposal and validates it; every refusal that is not
an `AdminError` of the mutation is `CONFIG_INVALID`.

    create_rule, replace_rule, delete_rule, reorder_rules
    create_exception, replace_exception, delete_exception
    replace_database, replace_sql, replace_config, adopt

The bodies of the requests are what the schemas of `admin/http/schemas.py` let through. The ids that
the server draws are an argument (`Drawn`), and so is `canonical_function_name`.
-/

set_option autoImplicit false

namespace MaskGateway.Admin

open Lib Config
open Masking (MatchMode)
open Datasource (Json)

/-- The categories of `AdminErrorCategory` that a mutation, or what follows it, raises. -/
inductive MutationError where
  | notFound
  | immutableField
  | configInvalid
  deriving DecidableEq

/-- The detail of a category. -/
def MutationError.detail : MutationError → String
  | .notFound => "The requested resource does not exist."
  | .immutableField => "A field in the request cannot be modified."
  | .configInvalid => "The candidate configuration is not valid."

/-! ### Requests -/

/-- `RuleContent`. -/
structure RuleContent where
  match_ : Name
  mode : MatchMode := .contains
  caseSensitive : Bool := false
  transformer : Name
  config : List (Name × Json) := []
  match_ne : match_ ≠ []
  transformer_ne : transformer ≠ []

/-- `ExceptionContent`. -/
structure ExceptionContent where
  match_ : Name
  mode : MatchMode := .exact
  caseSensitive : Bool := false
  match_ne : match_ ≠ []

/-- `DatabaseWriteRequest` and `ConfigReplaceDatabase`. -/
abbrev DatabaseWrite := { database : DatabaseConfig // database.valid = true }

/-- `SqlWriteRequest` and `ConfigReplaceSql`: of `allowed_pg_functions` only its presence counts. -/
structure SqlWrite where
  deniedFunctions : List Name
  allowedPgFunctionsPresent : Bool := false

/-- `ConfigReplaceRequest`. -/
structure ConfigReplace where
  masking : List (RuleContent × Option RuleId)
  exceptions : List (ExceptionContent × Option ExceptionId)
  database : DatabaseWrite
  sql : SqlWrite

/-- What the server draws for the items of a request, by their place in it. -/
structure Drawn where
  rules : Nat → RuleId
  exceptions : Nat → ExceptionId

/-- The mutations, with their requests. -/
inductive Mutation where
  | createRule (rule : RuleContent) (position : Option Nat)
  | replaceRule (ruleId : Name) (rule : RuleContent)
  | deleteRule (ruleId : Name)
  | reorderRules (ruleIds : List RuleId)
  | createException (item : ExceptionContent)
  | replaceException (exceptionId : Name) (item : ExceptionContent)
  | deleteException (exceptionId : Name)
  | replaceDatabase (database : DatabaseWrite)
  | replaceSql (sql : SqlWrite)
  | replaceConfig (config : ConfigReplace)

/-! ### Items -/

/-- `_rule_dict`, with an id. -/
def ruleDict (content : RuleContent) (id : Name) : RuleConfig where
  match_ := content.match_
  mode := content.mode
  caseSensitive := content.caseSensitive
  transformer := content.transformer
  config := content.config
  id := some id

/-- `_exception_dict`, with an id. -/
def exceptionDict (content : ExceptionContent) (id : Name) : ExceptionConfig where
  match_ := content.match_
  mode := content.mode
  caseSensitive := content.caseSensitive
  id := some id

/-- `_index_of_id`, on rules. -/
def ruleIndex (items : List RuleConfig) (target : Name) : Option Nat :=
  placeOf (·.id) items (some target)

/-- `_index_of_id`, on exceptions. -/
def exceptionIndex (items : List ExceptionConfig) (target : Name) : Option Nat :=
  placeOf (·.id) items (some target)

/-- `adopt`: every item gets an id. -/
def adopt (drawn : Drawn) (current : Document) : Document :=
  { current with
    masking := current.masking.mapIdx fun i rule => { rule with id := some (drawn.rules i).1 }
    exceptions := current.exceptions.mapIdx fun i item =>
      { item with id := some (drawn.exceptions i).1 } }

/-! ### Rules -/

/-- `create_rule`. -/
def createRule (drawn : Drawn) (rule : RuleContent) (position : Option Nat) (current : Document) :
    Except MutationError Document := do
  let index := position.getD current.masking.length
  refuseIf (current.masking.length < index) .configInvalid
  return { current with
    masking := current.masking.insertIdx index (ruleDict rule (drawn.rules 0).1) }

/-- `replace_rule`. -/
def replaceRule (ruleId : Name) (rule : RuleContent) (current : Document) :
    Except MutationError Document :=
  match ruleIndex current.masking ruleId with
  | none => .error .notFound
  | some index => .ok { current with masking := current.masking.set index (ruleDict rule ruleId) }

/-- `delete_rule`. -/
def deleteRule (ruleId : Name) (current : Document) : Except MutationError Document :=
  match ruleIndex current.masking ruleId with
  | none => .error .notFound
  | some index => .ok { current with masking := current.masking.eraseIdx index }

/-- `sorted`, on texts. -/
def sorted (texts : List Name) : List Name :=
  texts.insertionSort fun a b => @LE.le Name List.instLE a b

/-- `reorder_rules`. A rule without an id is refused like the rest: sorting raises. -/
def reorderRules (ruleIds : List RuleId) (current : Document) : Except MutationError Document := do
  let requested := ruleIds.map (·.1)
  refuseIf (current.masking.any (·.id.isNone) = true) .configInvalid
  refuseIf (requested.length ≠ current.ruleIds.length ∨
    sorted requested ≠ sorted current.ruleIds) .configInvalid
  match requested.mapM fun id => itemOf (·.id) current.masking (some id) with
  | some masking => return { current with masking }
  | none => throw .configInvalid

/-! ### Exceptions -/

/-- `create_exception`: at the end. -/
def createException (drawn : Drawn) (item : ExceptionContent) (current : Document) :
    Except MutationError Document :=
  .ok { current with
    exceptions := current.exceptions ++ [exceptionDict item (drawn.exceptions 0).1] }

/-- `replace_exception`. -/
def replaceException (exceptionId : Name) (item : ExceptionContent) (current : Document) :
    Except MutationError Document :=
  match exceptionIndex current.exceptions exceptionId with
  | none => .error .notFound
  | some index =>
      .ok { current with
        exceptions := current.exceptions.set index (exceptionDict item exceptionId) }

/-- `delete_exception`. -/
def deleteException (exceptionId : Name) (current : Document) : Except MutationError Document :=
  match exceptionIndex current.exceptions exceptionId with
  | none => .error .notFound
  | some index => .ok { current with exceptions := current.exceptions.eraseIdx index }

/-! ### Database and SQL -/

/-- `replace_database`. -/
def replaceDatabase (database : DatabaseWrite) (current : Document) :
    Except MutationError Document :=
  .ok { current with database := database.1 }

section

variable (canonicalFunctionName : Name → Name)

/-- The loop of `_merge_denied`, with the keys that were seen. -/
def mergeLoop : List Name → List Name → List Name
  | _, [] => []
  | seen, name :: rest =>
      let key := canonicalFunctionName name
      if key = [] ∨ key ∈ seen then mergeLoop seen rest
      else name :: mergeLoop (key :: seen) rest

/-- `_merge_denied`. -/
def mergeDenied (existing added : List Name) : List Name :=
  mergeLoop canonicalFunctionName [] (existing ++ added)

/-- `replace_sql`. -/
def replaceSql (sql : SqlWrite) (current : Document) : Except MutationError Document := do
  refuseIf (sql.allowedPgFunctionsPresent = true) .immutableField
  return { current with
    sql := { current.sql with
      deniedFunctions :=
        mergeDenied canonicalFunctionName current.sql.deniedFunctions sql.deniedFunctions } }

/-! ### The whole configuration -/

/-- `_resolve_id`. -/
def resolveId (provided : Option Name) (currentIds : List Name) (generated : Name) :
    Except MutationError Name :=
  match provided with
  | none => .ok generated
  | some id => if id ∈ currentIds then .ok id else .error .immutableField

/-- A rule of `replace_config`, with its place. -/
def resolveRule (drawn : Drawn) (currentIds : List Name)
    (entry : (RuleContent × Option RuleId) × Nat) : Except MutationError RuleConfig := do
  let id ← resolveId (entry.1.2.map (·.1)) currentIds (drawn.rules entry.2).1
  return ruleDict entry.1.1 id

/-- An exception of `replace_config`, with its place. -/
def resolveException (drawn : Drawn) (currentIds : List Name)
    (entry : (ExceptionContent × Option ExceptionId) × Nat) :
    Except MutationError ExceptionConfig := do
  let id ← resolveId (entry.1.2.map (·.1)) currentIds (drawn.exceptions entry.2).1
  return exceptionDict entry.1.1 id

/-- `replace_config`. The document that it returns has no revision. -/
def replaceConfig (drawn : Drawn) (config : ConfigReplace) (current : Document) :
    Except MutationError Document := do
  refuseIf (config.sql.allowedPgFunctionsPresent = true) .immutableField
  let masking ← config.masking.zipIdx.mapM (resolveRule drawn current.ruleIds)
  let exceptions ← config.exceptions.zipIdx.mapM (resolveException drawn current.exceptionIds)
  return { masking, exceptions, database := config.database.1
           sql := { allowedPgFunctions := current.sql.allowedPgFunctions
                    deniedFunctions := config.sql.deniedFunctions } }

/-! ### The next document -/

/-- What a mutation proposes. -/
def Mutation.propose (drawn : Drawn) (current : Document) :
    Mutation → Except MutationError Document
  | .createRule rule position => Admin.createRule drawn rule position current
  | .replaceRule ruleId rule => Admin.replaceRule ruleId rule current
  | .deleteRule ruleId => Admin.deleteRule ruleId current
  | .reorderRules ruleIds => Admin.reorderRules ruleIds current
  | .createException item => Admin.createException drawn item current
  | .replaceException exceptionId item => Admin.replaceException exceptionId item current
  | .deleteException exceptionId => Admin.deleteException exceptionId current
  | .replaceDatabase database => Admin.replaceDatabase database current
  | .replaceSql sql => Admin.replaceSql canonicalFunctionName sql current
  | .replaceConfig config => Admin.replaceConfig drawn config current

/-- `_next_document`: the server numbers what the mutation proposes, and the models validate it. -/
def nextDocument (drawn : Drawn) (mutation : Mutation) (current : MaskingFileConfig) :
    Except MutationError MaskingFileConfig := do
  let proposed ← mutation.propose canonicalFunctionName drawn current.1
  match validateFileConfig { proposed with revision := current.1.revision + 1 } with
  | some next => return next
  | none => throw .configInvalid

/-- One accepted mutation of a run, with what is drawn for it. -/
def step (current : MaskingFileConfig) (event : Mutation × Drawn) : Option MaskingFileConfig :=
  (nextDocument canonicalFunctionName event.2 event.1 current).toOption

end

end MaskGateway.Admin
