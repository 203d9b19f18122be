import Mathlib

/-!
# `MaskGateway.Frontend.Commands`: what the administrative pages send

The part of `frontend/src/commands.js` that the coordinator uses. `Data` is what `JSON.parse` and
the forms of the pages build: data without accessors, prototypes or shared references, so of
`capture` the depth, the numbers and the forbidden keys are left to check.
-/

set_option autoImplicit false

namespace MaskGateway.Frontend

/-- JSON data. A number that is no integer is kept as its text. -/
inductive Data where
  | null
  | bool (value : Bool)
  | num (value : Int)
  | odd (text : String)
  | str (value : String)
  | list (items : List Data)
  | obj (fields : List (String × Data))

mutual

/-- Equality of the texts that `JSON.stringify` writes of captured data. -/
def Data.same : Data → Data → Bool
  | .null, .null => true
  | .bool a, .bool b => a == b
  | .num a, .num b => a == b
  | .odd a, .odd b => a == b
  | .str a, .str b => a == b
  | .list a, .list b => Data.sameItems a b
  | .obj a, .obj b => Data.sameFields a b
  | _, _ => false

/-- Equality of the texts of two lists. -/
def Data.sameItems : List Data → List Data → Bool
  | [], [] => true
  | a :: as, b :: bs => Data.same a b && Data.sameItems as bs
  | _, _ => false

/-- Equality of the texts of the fields of two objects. -/
def Data.sameFields : List (String × Data) → List (String × Data) → Bool
  | [], [] => true
  | (k, a) :: as, (l, b) :: bs => k == l && Data.same a b && Data.sameFields as bs
  | _, _ => false

end

/-- `Number.MAX_SAFE_INTEGER`. -/
def maxSafeInteger : Nat := 9007199254740991

/-- `safeVersion`; it throws when there is none. -/
def safeVersion : Data → Option Nat
  | .num n => if 0 ≤ n ∧ n ≤ maxSafeInteger then some n.toNat else none
  | _ => none

mutual

/-- `capture`; it throws when there is none. -/
def capture (depth : Nat) (value : Data) : Option Data :=
  if 16 < depth then none
  else
    match value with
    | .null => some .null
    | .str s => some (.str s)
    | .bool b => some (.bool b)
    | .num n => if n.natAbs ≤ maxSafeInteger then some (.num n) else none
    | .odd _ => none
    | .list items => (captureItems (depth + 1) items).map .list
    | .obj fields => (captureFields (depth + 1) fields).map .obj

/-- The elements of an array. -/
def captureItems (depth : Nat) : List Data → Option (List Data)
  | [] => some []
  | v :: vs => do
      let v ← capture depth v
      let vs ← captureItems depth vs
      some (v :: vs)

/-- The entries of an object. -/
def captureFields (depth : Nat) : List (String × Data) → Option (List (String × Data))
  | [] => some []
  | (k, v) :: fields => do
      if k ∈ ["__proto__", "constructor", "prototype"] then none
      let v ← capture depth v
      let fields ← captureFields depth fields
      some ((k, v) :: fields)

end

/-- `Command`, a frozen object. `object` tells it from every other object that was frozen. -/
structure Command where
  id : String
  version : Nat
  draft : Data
  identity : Option String
  object : Nat

/-- `FailureKind`, `authentication` apart. -/
inductive Trouble where
  | conflict
  | busy
  | incompatible
  | unknown
  | uncertain
  deriving DecidableEq

/-- The kinds of an outcome. -/
inductive Kind where
  | success
  | authentication
  | failed (trouble : Trouble)
  deriving DecidableEq

/-- `Outcome`. -/
structure Outcome where
  kind : Kind
  version : Option Data
  message : String

end MaskGateway.Frontend
