import MaskGateway.Lib.Except
import MaskGateway.Masking.Engine

/-!
# `MaskGateway.Db.Columns`: descriptors from the description and the provenance

`db/columns.py`: `describe_columns` joins three vectors by position: the column names of the
result, the origins that PostgreSQL reports, and the sensitivity that the analysis of the
statement reports. The third one is used only when it has as many entries as the result has
columns.
-/

set_option autoImplicit false

namespace MaskGateway.Db

open Masking Lib

/-- Where a result column comes from. -/
structure ColumnOrigin where
  kind : ProvenanceKind
  name : Option Name := none
  schema : Option Name := none
  table : Option Name := none
  deriving DecidableEq

/-- PostgreSQL says that the column comes from no single table column. -/
def derivedOrigin : ColumnOrigin := { kind := .derived }

/-- The origin could not be determined. -/
def unknownOrigin : ColumnOrigin := { kind := .unknown }

/-- The failures of `describe_columns`. -/
inductive DatabaseError where
  | noResultSet
  | misaligned (origins columns : Nat)
  deriving DecidableEq

/-- The text of a failure. -/
def DatabaseError.message : DatabaseError → String
  | .noResultSet => "a consulta nao produziu result set"
  | .misaligned origins columns =>
      "proveniencia desalinhada: " ++ toString origins ++ " origens para " ++
        toString columns ++ " colunas"

/-- The sensitivity that is applied: the one given when its length is that of the result. -/
def derivedEntries (columns : Nat) (sensitivity : Option (List (Option Nat))) :
    List (Option Nat) :=
  match sensitivity with
  | none => List.replicate columns none
  | some entries => if entries.length = columns then entries else List.replicate columns none

/-- The descriptor of one column. -/
def describeColumn (name : Name) (origin : ColumnOrigin) (rule : Option Nat) :
    ColumnDescriptor where
  outputName := name
  originName := origin.name
  originSchema := origin.schema
  originTable := origin.table
  provenanceKind := origin.kind
  derivedRuleIndex := rule

/-- `describe_columns`. -/
def describeColumns (description : Option (List Name)) (origins : Option (List ColumnOrigin))
    (sensitivity : Option (List (Option Nat))) :
    Except DatabaseError (List ColumnDescriptor) :=
  match description with
  | none => .error .noResultSet
  | some names => do
      let derived := derivedEntries names.length sensitivity
      let resolved := origins.getD (List.replicate names.length unknownOrigin)
      refuseIf (resolved.length ≠ names.length) (.misaligned resolved.length names.length)
      return (names.zip (resolved.zip derived)).map fun (name, origin, rule) =>
        describeColumn name origin rule

end MaskGateway.Db
