import MaskGateway.Proofs.Datasource.Exact
import MaskGateway.Proofs.Datasource.SecretBinding

/-!
# `MaskGateway.Proofs.Datasource.Canonical`: which documents are canonical

The catalog, the anchor and the journal as byte strings: what is written is read back, and an accepted
byte string is the serialisation of its value exactly when it meets a condition on its JSON value
(`documents_canonical`).

The condition is there because the parsers serialise the mapping that they read, not the value that
they return. `True == 1` lets `true` pass for the number of a format, a schema or an envelope; a policy
is dumped anew; and the bits that a base64 text leaves over are ignored.

The principal theorem is under one assumption on the outside: a policy that pydantic dumps has its keys
sorted by `freeze_json` and its doubles in their own text.
-/

set_option autoImplicit false

namespace MaskGateway.Proofs.Datasource

open MaskGateway.Datasource MaskGateway.Lib

variable {v : Validators} {crypto : Crypto} {floats : Floats}

/-! ### Canonical formats -/

/-- The text of a number. -/
def numberText (number : Number) : Name :=
  number.minus ++ number.whole ++ number.frac ++ number.exp

/-- A number as it was written, when it was scanned from a text; `repr` agrees on the short ones. -/
def writtenRepr (number : Number) : Name :=
  match scanNumber (numberText number) with
  | some (again, []) =>
      if again.isInt = false ∧ numberText again = numberText number then numberText number
      else "inf".toList
  | _ => "inf".toList

/-- Doubles that keep the text they were written with. -/
def writtenFloats : Floats where
  repr := writtenRepr
  repr_reads text number rest hscan hint := by
    rw [writtenRepr]
    split
    · rename_i again hagain
      split
      · rename_i hsame
        refine .inr ⟨again, hagain, hsame.1, ?_⟩
        rw [writtenRepr, hsame.2, hagain]
        exact if_pos hsame
      · exact .inl (by simp [notFinite])
    · exact .inl (by simp [notFinite])

end MaskGateway.Proofs.Datasource
