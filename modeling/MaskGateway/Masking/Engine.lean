import MaskGateway.Lib.Texts

/-!
# `MaskGateway.Masking.Engine`: rules, column descriptors and the decision per column

The masking policy (`masking/rules.py`), the descriptor of a result column
(`masking/descriptor.py`), the two matchers (`masking/matcher.py`) and the pipeline of
`MaskingEngine._resolve` (`masking/engine.py`):

    derived rule  →  exception on the authoritative name  →  first rule on either name  →  allow

A name is a list of characters. `str.casefold` is a parameter of everything that compares
names: nothing below depends on which letters it folds.

A compiled policy numbers its rules by their position, which is what lets a rule index travel
from the analysis of a statement to the engine; `MaskingPolicy` carries that as a field. The
transformer of a rule is a value of any type `τ`: deciding never applies it.
-/

set_option autoImplicit false

namespace MaskGateway

/-- A Python string. -/
abbrev Name := List Char

namespace Masking

/-! ### Rules and policy -/

/-- How a column name is compared with the pattern of a rule. -/
inductive MatchMode where
  | contains
  | exact
  deriving DecidableEq

/-- The matching criterion of a rule or an exception. -/
structure MatchSpec where
  pattern : Name
  mode : MatchMode := .contains
  caseSensitive : Bool := false
  deriving DecidableEq

/-- Whether the criterion matches one name. No name never matches. -/
def MatchSpec.matches (casefold : Name → Name) (spec : MatchSpec) : Option Name → Bool
  | none => false
  | some name =>
      let needle := if spec.caseSensitive then spec.pattern else casefold spec.pattern
      let haystack := if spec.caseSensitive then name else casefold name
      match spec.mode with
      | .exact => haystack == needle
      | .contains => decide (needle <:+: haystack)

/-- A compiled rule, bound to its transformer. -/
structure MaskingRule (τ : Type) where
  spec : MatchSpec
  transformer : τ
  transformerName : Name
  index : Nat

/-- A compiled exception. -/
structure MaskingException where
  spec : MatchSpec
  index : Nat

/-- Exceptions and rules in the order of the file, the rules numbered by position as
`compile_policy` does. -/
structure MaskingPolicy (τ : Type) where
  exceptions : List MaskingException
  rules : List (MaskingRule τ)
  index_eq : ∀ (i : Nat) (rule : MaskingRule τ), rules[i]? = some rule → rule.index = i

/-! ### Column descriptors -/

/-- How much is known about where a result column comes from. -/
inductive ProvenanceKind where
  | direct
  | view
  | derived
  | unknown
  deriving DecidableEq

/-- What the engine reads about one result column. -/
structure ColumnDescriptor where
  outputName : Name
  originName : Option Name := none
  originSchema : Option Name := none
  originTable : Option Name := none
  provenanceKind : ProvenanceKind := .unknown
  derivedRuleIndex : Option Nat := none
  deriving DecidableEq

/-- The names that rules are matched against, without duplicates. -/
def ColumnDescriptor.names (column : ColumnDescriptor) : List Name :=
  match column.originName with
  | none => [column.outputName]
  | some origin =>
      if origin = column.outputName then [column.outputName] else [column.outputName, origin]

/-- `column.origin_name or column.output_name`: an empty origin name counts as none. -/
def ColumnDescriptor.authoritative (column : ColumnDescriptor) : Name :=
  match column.originName with
  | none => column.outputName
  | some [] => column.outputName
  | some origin => origin

section Matchers

variable (casefold : Name → Name) {τ : Type}

/-- Whether the criterion matches the output name or the origin name. -/
def specMatchesColumn (spec : MatchSpec) (column : ColumnDescriptor) : Bool :=
  column.names.any fun name => spec.matches casefold (some name)

/-- `ExceptionMatcher.find_by_name`: the first exception that covers one name. -/
def findExceptionByName (exceptions : List MaskingException) (name : Name) :
    Option MaskingException :=
  exceptions.find? fun exception => exception.spec.matches casefold (some name)

/-- `RuleMatcher.find`: the first rule that covers the column. -/
def findRule (rules : List (MaskingRule τ)) (column : ColumnDescriptor) :
    Option (MaskingRule τ) :=
  rules.find? fun rule => specMatchesColumn casefold rule.spec column

/-- Some exception covers the name. -/
def MaskingPolicy.excepts (policy : MaskingPolicy τ) (name : Name) : Bool :=
  policy.exceptions.any fun exception => exception.spec.matches casefold (some name)

/-- Some rule covers the name. -/
def MaskingPolicy.covers (policy : MaskingPolicy τ) (name : Name) : Bool :=
  policy.rules.any fun rule => rule.spec.matches casefold (some name)

end Matchers

/-! ### The engine -/

/-- The outcome of the pipeline for one column. -/
inductive Action where
  | exception
  | mask
  | allow
  deriving DecidableEq

/-- What was decided about one column: metadata only. -/
structure Decision where
  action : Action
  outputName : Name
  originName : Option Name := none
  ruleIndex : Option Nat := none
  transformerName : Option Name := none
  deriving DecidableEq

section Engine

variable (casefold : Name → Name) {τ : Type}

/-- `MaskingEngine._derived_rule`: the rule that the analysis of the statement proved for this
position. An index that is not one of a rule is ignored. -/
def derivedRule (policy : MaskingPolicy τ) (column : ColumnDescriptor) :
    Option (MaskingRule τ) :=
  match column.derivedRuleIndex with
  | none => none
  | some index => policy.rules[index]?

/-- `MaskingEngine._resolve`. -/
def resolve (policy : MaskingPolicy τ) (column : ColumnDescriptor) : Decision × Option τ :=
  match derivedRule policy column with
  | some derived =>
      ({ action := .mask, outputName := column.outputName, originName := column.originName,
         ruleIndex := some derived.index, transformerName := some derived.transformerName },
       some derived.transformer)
  | none =>
      match findExceptionByName casefold policy.exceptions column.authoritative with
      | some exception =>
          ({ action := .exception, outputName := column.outputName,
             originName := column.originName, ruleIndex := some exception.index }, none)
      | none =>
          match findRule casefold policy.rules column with
          | some rule =>
              ({ action := .mask, outputName := column.outputName,
                 originName := column.originName, ruleIndex := some rule.index,
                 transformerName := some rule.transformerName }, some rule.transformer)
          | none =>
              ({ action := .allow, outputName := column.outputName,
                 originName := column.originName }, none)

/-- `MaskingEngine.decide`: the decision, without the transformer. -/
def decideColumn (policy : MaskingPolicy τ) (column : ColumnDescriptor) : Decision :=
  (resolve casefold policy column).1

end Engine

end Masking

end MaskGateway
