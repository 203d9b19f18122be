import MaskGateway.Datasource.Json
import MaskGateway.Lib.Utf8

/-!
# `MaskGateway.Masking.Transformers`: from the parameters of a rule to its transformer

The builders of `masking/transformers` and `build_default_registry`. A transformer is kept as what its
constructor stores, so two transformers that do the same to every value are the same value here. What
they do to a value is in `Masking.Values`.

A builder reads its parameters and, for `hmac_sha256`, one secret of a provider. The provider is any
state with a way to read it (`SecretProvider`): the environment, the recorder of a compilation, the
closed set of a snapshot.

Three things of Python are parameters (`Texts`): `str.casefold`, `str.strip`, and what `re` says of a
pattern with its replacement.
-/

set_option autoImplicit false

namespace MaskGateway.Masking

open Lib
open Datasource (Json)

/-! ### What Python decides -/

/-- What `re` says of a pattern and its replacement. -/
inductive RegexCheck where
  | fine
  | badPattern
  | badReplacement
  | missingGroup
  deriving DecidableEq

/-- The functions of Python on texts that the compilation calls. -/
structure Texts where
  /-- `str.casefold` -/
  casefold : Name → Name
  /-- `str.strip` -/
  strip : Name → Name
  /-- `re.compile(pattern).sub(replacement, "")` -/
  regex : Name → Name → RegexCheck

/-! ### Secrets -/

/-- `SecretProvider`: how a name is read, in each state of the provider. -/
structure SecretProvider (σ ε : Type) where
  get : Name → σ → Except ε (Option Name × σ)

/-- `HMAC_KEY_ENV`. -/
def hmacKeyEnv : Name := "MASKGW_HMAC_KEY".toList

/-- `HMAC_KEY_MIN_LENGTH`. -/
def hmacKeyMinLength : Nat := 32

/-! ### Transformers -/

/-- `_ALGORITHMS`. -/
inductive HashAlgorithm where
  | md5
  | sha256
  | sha512
  deriving DecidableEq

/-- The name of an algorithm. -/
def HashAlgorithm.name : HashAlgorithm → Name
  | .md5 => "md5".toList
  | .sha256 => "sha256".toList
  | .sha512 => "sha512".toList

/-- `RandomStrategy`. -/
inductive RandomStrategy where
  | alphanumeric
  | digits
  deriving DecidableEq

/-- `RandomStrategy(value)`. -/
def RandomStrategy.ofName (value : Name) : Option RandomStrategy :=
  if value = "alphanumeric".toList then some .alphanumeric
  else if value = "digits".toList then some .digits
  else none

/-- What the constructor of a transformer stores. -/
inductive Transformer where
  | hash (algorithm : HashAlgorithm)
  | hmacSha256 (key : List UInt8)
  | regex (pattern replacement : Name)
  | random (strategy : RandomStrategy) (preserveLength : Bool) (length : Option Nat)
  | fixed (value : Name)
  | truncate (length : Nat)
  deriving DecidableEq

/-! ### Errors -/

/-- What is wrong with the parameters of a transformer: each text of `ConfigError` with the names it
shows. -/
inductive Problem where
  /-- `parametro(s) ... nao sao permitidos no masking.yaml` -/
  | forbidden (found : List Name)
  /-- `nao aceita parametros` -/
  | noParams
  /-- `parametro(s) desconhecido(s) ...; aceitos: ...` -/
  | unknown (found allowed : List Name)
  /-- `parametro(s) obrigatorio(s) ausente(s) ...` -/
  | missing (found : List Name)
  /-- `parametro ... deve ser inteiro` -/
  | notInt (parameter : Name)
  /-- `parametro ... deve ser >= 0` -/
  | belowMinimum (parameter : Name)
  /-- `parametro ... deve ser string` -/
  | notText (parameter : Name)
  /-- `parametro ... deve ser booleano` -/
  | notBool (parameter : Name)
  /-- `strategy ... invalida` -/
  | invalidStrategy (strategy : Name)
  /-- `'length' nao pode ser combinado com 'preserve_length: true'` -/
  | ambiguousLength
  /-- `'length' e obrigatorio quando 'preserve_length' e false` -/
  | lengthRequired
  /-- `pattern invalido` -/
  | invalidPattern
  /-- `replacement invalido` -/
  | invalidReplacement
  /-- `replacement referencia grupo inexistente` -/
  | missingGroup
  /-- `chave HMAC ausente` -/
  | missingKey
  /-- `chave HMAC muito curta` -/
  | shortKey
  deriving DecidableEq

/-- `ConfigError` of `TransformerRegistry.build`. -/
inductive TransformerError where
  /-- `transformer desconhecido` -/
  | unknown (name : Name)
  /-- a builder refuses the parameters -/
  | problem (transformer : Name) (problem : Problem)
  deriving DecidableEq

/-- What building a transformer raises: its own error, or what the provider raises. -/
inductive BuildError (ε : Type) where
  | config (error : TransformerError)
  | provider (error : ε)
  deriving DecidableEq

/-! ### Parameters -/

/-- `FORBIDDEN_PARAMS`. -/
def forbiddenParams : List Name :=
  ["key", "keys", "hmac_key", "secret", "secret_key", "password", "passwd", "token", "salt",
    "pepper", "credential", "credentials"].map String.toList

/-- The names of a mapping. -/
def paramNames (config : List (Name × Json)) : List Name := config.map Prod.fst

/-- `sorted` of names. -/
def sortedNames (names : List Name) : List Name := names.insertionSort (· ≤ ·)

/-- `reject_secret_params`. -/
def rejectSecretParams (texts : Texts) (config : List (Name × Json)) : Except Problem Unit :=
  let found := (paramNames config).filter fun name => forbiddenParams.contains (texts.casefold name)
  refuseIf (found ≠ []) (.forbidden (sortedNames found))

/-- `require_params`. -/
def requireParams (texts : Texts) (config : List (Name × Json)) (required optional : List String) :
    Except Problem (List (Name × Json)) := do
  rejectSecretParams texts config
  let allowed := (required ++ optional).map String.toList
  let unknown := (paramNames config).filter fun name => !(allowed.contains name)
  refuseIf (unknown ≠ []) (.unknown (sortedNames unknown) (sortedNames allowed))
  let missing := (required.map String.toList).filter fun name =>
    !((paramNames config).contains name)
  refuseIf (missing ≠ []) (.missing (sortedNames missing))
  return config

/-- `require_int`, with the minimum of zero that every caller asks for. -/
def requireInt (parameter : String) : Json → Except Problem Nat
  | .int value =>
      if value < 0 then .error (.belowMinimum parameter.toList) else .ok value.toNat
  | _ => .error (.notInt parameter.toList)

/-- `params[name]`, for a text. -/
def requireText (parameter : String) (params : List (Name × Json)) : Except Problem Name :=
  match params.lookup parameter.toList with
  | some (.str value) => .ok value
  | _ => .error (.notText parameter.toList)

/-! ### Builders -/

section

variable (texts : Texts) (config : List (Name × Json))

/-- `build_hash`. -/
def buildHash (algorithm : HashAlgorithm) : Except Problem Transformer := do
  rejectSecretParams texts config
  refuseIf (config ≠ []) .noParams
  return .hash algorithm

/-- `build_hmac_sha256` up to the key. -/
def checkHmacParams : Except Problem Unit := do
  rejectSecretParams texts config
  refuseIf (config ≠ []) .noParams

/-- `build_hmac_sha256` with what the provider returned. -/
def hmacOfKey : Option Name → Except Problem Transformer
  | none => .error .missingKey
  | some key =>
      if key.length < hmacKeyMinLength then .error .shortKey else .ok (.hmacSha256 (utf8 key))

/-- `build_regex`. -/
def buildRegex : Except Problem Transformer := do
  let params ← requireParams texts config ["pattern", "replacement"] []
  let pattern ← requireText "pattern" params
  let replacement ← requireText "replacement" params
  match texts.regex pattern replacement with
  | .fine => return .regex pattern replacement
  | .badPattern => throw .invalidPattern
  | .badReplacement => throw .invalidReplacement
  | .missingGroup => throw .missingGroup

/-- `params.get("preserve_length", True)`, a boolean. -/
def preserveLengthOf (params : List (Name × Json)) : Except Problem Bool :=
  match params.lookup "preserve_length".toList with
  | none => .ok true
  | some (.bool value) => .ok value
  | some _ => .error (.notBool "preserve_length".toList)

/-- `require_int(params, "length")` where there is one. -/
def lengthOf (params : List (Name × Json)) : Except Problem (Option Nat) :=
  match params.lookup "length".toList with
  | none => .ok none
  | some value => (requireInt "length" value).map some

/-- `build_random`. -/
def buildRandom : Except Problem Transformer := do
  let params ← requireParams texts config ["strategy"] ["preserve_length", "length"]
  let raw ← requireText "strategy" params
  match RandomStrategy.ofName raw with
  | none => throw (.invalidStrategy raw)
  | some strategy => do
      let preserveLength ← preserveLengthOf params
      let hasLength := (params.lookup "length".toList).isSome
      refuseIf (preserveLength = true ∧ hasLength = true) .ambiguousLength
      refuseIf (preserveLength = false ∧ hasLength = false) .lengthRequired
      let length ← lengthOf params
      return .random strategy preserveLength length

/-- `build_fixed`. -/
def buildFixed : Except Problem Transformer := do
  let params ← requireParams texts config ["value"] []
  let value ← requireText "value" params
  return .fixed value

/-- `build_truncate`. -/
def buildTruncate : Except Problem Transformer := do
  let params ← requireParams texts config ["length"] []
  let length ← requireInt "length" ((params.lookup "length".toList).getD .null)
  return .truncate length

end

/-! ### The registry -/

section

variable {σ ε : Type} (texts : Texts) (provider : SecretProvider σ ε)

/-- The error of a builder, with the name of its transformer. -/
def named {α : Type} (name : Name) (built : Except Problem α) : Except (BuildError ε) α :=
  built.mapError fun problem => .config (.problem name problem)

/-- `build_hmac_sha256`: the one builder that reads a secret. -/
def buildHmacSha256 (config : List (Name × Json)) (state : σ) :
    Except (BuildError ε) (Transformer × σ) := do
  named "hmac_sha256".toList (checkHmacParams texts config)
  match provider.get hmacKeyEnv state with
  | .error error => throw (.provider error)
  | .ok (key, state) => do
      let transformer ← named "hmac_sha256".toList (hmacOfKey key)
      return (transformer, state)

/-- A builder that reads no secret, if the name is of one. -/
def pureBuilder (config : List (Name × Json)) (name : Name) : Option (Except Problem Transformer) :=
  if name = "md5".toList then some (buildHash texts config .md5)
  else if name = "sha256".toList then some (buildHash texts config .sha256)
  else if name = "sha512".toList then some (buildHash texts config .sha512)
  else if name = "regex".toList then some (buildRegex texts config)
  else if name = "random".toList then some (buildRandom texts config)
  else if name = "fixed".toList then some (buildFixed texts config)
  else if name = "truncate".toList then some (buildTruncate texts config)
  else none

/-- `TransformerRegistry.build` of `build_default_registry`. -/
def build (name : Name) (config : List (Name × Json)) (state : σ) :
    Except (BuildError ε) (Transformer × σ) :=
  if name = "hmac_sha256".toList then buildHmacSha256 texts provider config state
  else
    match pureBuilder texts config name with
    | none => .error (.config (.unknown name))
    | some built => (named name built).map fun transformer => (transformer, state)

end

end MaskGateway.Masking
