import MaskGateway.Lib.Except
import MaskGateway.Masking.Engine

/-!
# `MaskGateway.Db.Result`: masked results and their advertised types

`db/result.py`. The rows are positional, and the values of a row are whatever the driver or a
transformer returned: `Cell` tells the four kinds that the wire knows from the rest. A Python
string is a sequence of code points, among them the surrogates that no encoding of text has.

`TypedMaskedResult.postInit` is the check that runs when a typed result is made, and a
`TypedMaskedResult` carries its success.
-/

set_option autoImplicit false

namespace MaskGateway.Db

open Masking Lib

/-- One element of a Python string: a scalar value, or one of the 2048 surrogates. -/
inductive CodePoint where
  | scalar (c : Char)
  | surrogate (code : Fin 2048)
  deriving DecidableEq

/-- A value of a masked row. -/
inductive Cell where
  | null
  | text (value : List CodePoint)
  | int (value : Int)
  | bool (value : Bool)
  /-- an object of any other type -/
  | other
  deriving DecidableEq

/-- `WIRE_TYPE_SIZES`. -/
def wireTypeSize (oid : Nat) : Option Int :=
  [(16, 1), (21, 2), (23, 4), (20, 8), (19, 64), (25, -1), (1042, -1), (1043, -1)].lookup oid

/-- `MAX_WIRE_COLUMNS`. -/
def maxWireColumns : Nat := 1664

/-- `WIRE_TEXT_OID`. -/
def wireTextOid : Nat := 25

/-- `DatabaseResultIntegrityError`. -/
inductive ResultIntegrityError where
  | metadataUnavailable
  deriving DecidableEq

/-- `MaskedResult`: columns, decisions and rows that are already masked. -/
structure MaskedResult where
  columns : List ColumnDescriptor
  decisions : List Decision
  rows : List (List Cell)
  /-- the database had more rows than were asked for -/
  truncated : Bool := false

/-- `MaskedResult.row_count`. -/
def MaskedResult.rowCount (item : MaskedResult) : Nat := item.rows.length

/-- The check of one column in `TypedMaskedResult.__post_init__`: the two names agree, the type
is known, and a masked column is a text. -/
def checkTypedColumn : ColumnDescriptor × Decision × Nat → Except ResultIntegrityError Unit
  | (descriptor, decision, oid) =>
      refuseIf (decision.outputName ≠ descriptor.outputName ∨ wireTypeSize oid = none ∨
        (decision.action = .mask ∧ oid ≠ wireTextOid)) .metadataUnavailable

/-- `TypedMaskedResult.__post_init__`. -/
def TypedMaskedResult.postInit (item : MaskedResult) (typeOids : List Nat) :
    Except ResultIntegrityError Unit := do
  let width := item.columns.length
  refuseIf (¬ (1 ≤ width ∧ width ≤ maxWireColumns) ∨ item.decisions.length ≠ width ∨
    typeOids.length ≠ width) .metadataUnavailable
  forM (item.columns.zip (item.decisions.zip typeOids)) checkTypedColumn
  refuseIf (∃ row ∈ item.rows, row.length ≠ width) .metadataUnavailable

/-- `TypedMaskedResult`: masked rows with the type of each column. -/
structure TypedMaskedResult where
  masked : MaskedResult
  typeOids : List Nat
  checked : TypedMaskedResult.postInit masked typeOids = .ok ()

end MaskGateway.Db
