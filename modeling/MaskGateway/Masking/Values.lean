import MaskGateway.Lib.Effect
import MaskGateway.Masking.Engine

/-!
# `MaskGateway.Masking.Values`: the engine applied to values

`MaskingEngine.mask_value`, `mask_row` and `mask_rows` (`masking/engine.py`), and the entry
point `Transformer.apply` (`masking/transformers/base.py`).

A value comes from the database and may be of any type `ν`; no value is `None`, the NULL of
the database. What a transformer does to a text is a program over a world `ω`: most of them
leave it alone, `random` draws from it, and any of them may raise. A statement that two
maskings are equal as programs says that they apply the same transformers to the same values in
the same order.
-/

set_option autoImplicit false

namespace MaskGateway.Masking

open Lib

/-- What stops the masking of a row. -/
inductive MaskError (ε : Type) where
  /-- the `ValueError` of `_check_arity` -/
  | arity (values columns : Nat)
  /-- what the transformer raised -/
  | transformer (error : ε)
  deriving DecidableEq

/-- The text of the arity error: the two counts and no value. -/
def arityMessage (values columns : Nat) : String :=
  "linha com " ++ toString values ++ " valores para " ++ toString columns ++ " colunas"

/-- What the transformers of a policy do: `canonicalize`, the `transform` of each transformer,
and a text as a value. -/
structure Transformers (τ ν ε ω : Type) where
  canonicalize : ν → Except ε Name
  transform : τ → Name → EStateM ε ω Name
  ofText : Name → ν

section Engine

variable (casefold : Name → Name) {τ ν ε ω : Type} (transformers : Transformers τ ν ε ω)
  (policy : MaskingPolicy τ)

/-- `Transformer.apply`. -/
def apply (transformer : τ) : Option ν → EStateM ε ω (Option ν)
  | none => pure none
  | some value => do
      let text ← reading fun _ => transformers.canonicalize value
      let masked ← transformers.transform transformer text
      return some (transformers.ofText masked)

/-- `MaskingEngine.mask_value`. -/
def maskValue (column : ColumnDescriptor) (value : Option ν) :
    EStateM (MaskError ε) ω (Option ν) :=
  match value with
  | none => pure none
  | some value =>
      match (resolve casefold policy column).2 with
      | none => pure (some value)
      | some transformer =>
          (apply transformers transformer (some value)).adaptExcept .transformer

/-- `MaskingEngine._check_arity`. -/
def checkArity (columns : List ColumnDescriptor) (row : List (Option ν)) :
    EStateM (MaskError ε) ω Unit :=
  if columns.length ≠ row.length then throw (.arity row.length columns.length) else pure ()

/-- `MaskingEngine.mask_row`. -/
def maskRow (columns : List ColumnDescriptor) (row : List (Option ν)) :
    EStateM (MaskError ε) ω (List (Option ν)) := do
  checkArity columns row
  (columns.zip row).mapM fun (column, value) =>
    maskValue casefold transformers policy column value

/-- One cell in `mask_rows`, where the transformers are already known. -/
def maskCell : Option τ → Option ν → EStateM (MaskError ε) ω (Option ν)
  | _, none => pure none
  | none, some value => pure (some value)
  | some transformer, some value =>
      (apply transformers transformer (some value)).adaptExcept .transformer

/-- `MaskingEngine.mask_rows`: every column is resolved once. -/
def maskRows (columns : List ColumnDescriptor) (rows : List (List (Option ν))) :
    EStateM (MaskError ε) ω (List (List (Option ν))) :=
  let resolved := columns.map fun column => (resolve casefold policy column).2
  rows.mapM fun row => do
    checkArity columns row
    (resolved.zip row).mapM fun (transformer, value) => maskCell transformers transformer value

end Engine

section Lengths

variable {casefold : Name → Name} {τ ν ε ω : Type} {transformers : Transformers τ ν ε ω}
  {policy : MaskingPolicy τ} {columns : List ColumnDescriptor}

/-- One row comes out for each row that goes in. -/
theorem length_maskRows {rows masked : List (List (Option ν))} {w w' : ω}
    (h : maskRows casefold transformers policy columns rows w = .ok masked w') :
    masked.length = rows.length := length_of_mapM h

end Lengths

end MaskGateway.Masking
