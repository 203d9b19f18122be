import MaskGateway.Lib.Except
import MaskGateway.Masking.Engine

/-!
# `MaskGateway.Datasource.Json`: JSON documents and the errors of the store

The three files of the catalog are JSON documents. A file is modelled by what the code can learn
of it: `canonical_json` of some value, or any other bytes together with what `json.loads` makes of
them (`Content`). So a document that is valid but not in canonical form, and bytes that are no
document at all, are files like any other; only the text layout of JSON is left out.

The `_require_*` helpers of `datasource/store.py` follow, with the errors they raise.
-/

set_option autoImplicit false

namespace MaskGateway.Datasource

open Lib

/-- A value as `json.loads` returns it. A float is kept as its `repr`. -/
inductive Json where
  | null
  | bool (value : Bool)
  | int (value : Int)
  | float (repr : Name)
  | str (value : Name)
  | arr (items : List Json)
  | obj (fields : List (Name × Json))

mutual

/-- Equality of values, as `FrozenObject` compares them. -/
def Json.same : Json → Json → Bool
  | .null, .null => true
  | .bool a, .bool b => a == b
  | .int a, .int b => a == b
  | .float a, .float b => a == b
  | .str a, .str b => a == b
  | .arr a, .arr b => Json.sameItems a b
  | .obj a, .obj b => Json.sameFields a b
  | _, _ => false

/-- Equality of lists of values. -/
def Json.sameItems : List Json → List Json → Bool
  | [], [] => true
  | a :: as, b :: bs => Json.same a b && Json.sameItems as bs
  | _, _ => false

/-- Equality of lists of fields. -/
def Json.sameFields : List (Name × Json) → List (Name × Json) → Bool
  | [], [] => true
  | (k, a) :: as, (l, b) :: bs => k == l && Json.same a b && Json.sameFields as bs
  | _, _ => false

end

/-- The bytes of a file: the canonical form of a value, or anything else with the value that
`json.loads` reads from it, if any. -/
inductive Content where
  | canonical (value : Json)
  | other (bytes : List UInt8) (value : Option Json)

/-! ### Errors -/

/-- The exception classes of the store and of what it calls. -/
inductive ErrorKind where
  | store
  | corrupt
  | anchor
  | key
  | masterKey
  | write
  | outcomeUncertain
  | rotationPending
  | alreadyExists
  | filesystem
  | revisionConflict
  | validation
  | crypto
  | destination
  | typeError
  deriving DecidableEq

/-- An exception with its text. -/
structure StoreError where
  kind : ErrorKind
  message : String
  deriving DecidableEq

/-! ### Reading a document -/

/-- `_safe_json_loads`. -/
def loads : Content → Except StoreError Json
  | .canonical value => .ok value
  | .other _ (some value) => .ok value
  | .other _ none => .error ⟨.corrupt, "catalogo invalido"⟩

/-- `canonical_json(raw) == data` for the value `raw` read from the file `data`. -/
def Content.isCanonical : Content → Bool
  | .canonical _ => true
  | .other .. => false

/-- `_require_mapping`. -/
def requireMapping : Json → Except StoreError (List (Name × Json))
  | .obj fields => .ok fields
  | _ => .error ⟨.corrupt, "catalogo invalido"⟩

/-- Whether the keys of an object are exactly the expected ones. -/
def hasKeys (fields : List (Name × Json)) (expected : List String) : Bool :=
  (fields.map Prod.fst).all (fun key => (expected.map String.toList).contains key) &&
    expected.all (fun key => (fields.map Prod.fst).contains key.toList)

/-- `_require_keys`. -/
def requireKeys (fields : List (Name × Json)) (expected : List String) :
    Except StoreError Unit :=
  refuseIf (hasKeys fields expected = false) ⟨.corrupt, "schema do catalogo invalido"⟩

/-- `raw[key]`, for a key that `requireKeys` has checked. -/
def member (fields : List (Name × Json)) (key : String) : Json :=
  (fields.lookup key.toList).getD .null

/-- `_require_int`, for a minimum of zero or more. -/
def requireInt (minimum : Nat) : Json → Except StoreError Nat
  | .int value =>
      if (minimum : Int) ≤ value then .ok value.toNat
      else .error ⟨.corrupt, "numero do catalogo invalido"⟩
  | _ => .error ⟨.corrupt, "numero do catalogo invalido"⟩

/-- `_require_bool`. -/
def requireBool : Json → Except StoreError Bool
  | .bool value => .ok value
  | _ => .error ⟨.corrupt, "booleano do catalogo invalido"⟩

/-- `_require_str`. -/
def requireStr : Json → Except StoreError Name
  | .str value => .ok value
  | _ => .error ⟨.corrupt, "texto do catalogo invalido"⟩

/-- The texts of a list of texts. -/
def textItems : List Json → Option (List Name)
  | [] => some []
  | .str value :: rest => (textItems rest).map (value :: ·)
  | _ :: _ => none

/-- `_require_str_tuple`. -/
def requireStrTuple : Json → Except StoreError (List Name)
  | .arr items =>
      match textItems items with
      | some values => .ok values
      | none => .error ⟨.corrupt, "lista do catalogo invalida"⟩
  | _ => .error ⟨.corrupt, "lista do catalogo invalida"⟩

/-- `value == 1`, which in Python also holds for `True` and `1.0`. -/
def Json.isOne : Json → Bool
  | .int value => value == 1
  | .bool value => value
  | .float repr => repr == "1.0".toList
  | _ => false

/-- `value == text`. -/
def Json.isText (text : String) : Json → Bool
  | .str value => value == text.toList
  | _ => false

/-- `_fixed_hex`: 64 lowercase hexadecimal digits. -/
def fixedHex (value : Name) : Bool :=
  value.length == 64 && value.all fun c => "0123456789abcdef".toList.contains c

/-! ### What is read back -/

@[simp] theorem requireInt_natCast {minimum n : Nat} (h : minimum ≤ n) :
    requireInt minimum (.int n) = .ok n := by
  simp [requireInt, h]

@[simp] theorem textItems_map (values : List Name) :
    textItems (values.map Json.str) = some values := by
  induction values with
  | nil => rfl
  | cons value rest ih => simp [textItems, ih]

@[simp] theorem requireStrTuple_map (values : List Name) :
    requireStrTuple (.arr (values.map Json.str)) = .ok values := by
  simp [requireStrTuple]

end MaskGateway.Datasource
