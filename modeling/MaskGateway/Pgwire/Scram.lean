import MaskGateway.Lib.Base64
import MaskGateway.Lib.Sha256
import MaskGateway.Lib.Utf8

/-!
# `MaskGateway.Pgwire.Scram`: the server side of a SCRAM exchange

`pgwire/scram.py`. An exchange takes a client-first and then a client-final, once each; whatever
else it is given, and whatever it refuses, leaves it failed for good.

The two regular expressions of the source are parsers here. Each is matched against the whole
text, and each of its parts is a run of characters without a comma, so that the commas say where
the parts end.

HMAC-SHA-256 and SHA-256 are the parameter `Hash`: an exchange uses them and looks at nothing but
the length of what they return. What the system's random source gives is an argument.
-/

set_option autoImplicit false

namespace MaskGateway.Pgwire.Scram

open Lib

/-! ### Constants -/

/-- `SCRAM_SHA_256`. -/
def scramSha256 : List Char := "SCRAM-SHA-256".toList

/-- `SCRAM_SHA_256_PLUS`. -/
def scramSha256Plus : List Char := "SCRAM-SHA-256-PLUS".toList

/-- `f"p={CHANNEL_BINDING_TYPE}"`. -/
def bindingFlag : List Char := "p=tls-server-end-point".toList

/-- `MIN_CLIENT_NONCE`. -/
def minClientNonce : Nat := 8

/-- `MAX_CLIENT_NONCE`. -/
def maxClientNonce : Nat := 256

/-- `PROOF_BYTES`. -/
def proofBytes : Nat := 32

/-- `MAX_SASL_MESSAGE`. -/
def maxSaslMessage : Nat := 2048

/-- The categories of `PgwireErrorCategory` that an exchange fails with. -/
inductive PgwireErrorCategory where
  | authenticationFailed
  | protocolViolation
  | internalError
  deriving DecidableEq

/-- HMAC-SHA-256 and SHA-256. -/
structure Hash where
  hmac : (key message : List UInt8) → List UInt8
  sha256 : List UInt8 → List UInt8
  hmac_length : ∀ key message, (hmac key message).length = 32

/-- The two functions themselves. -/
def Hash.standard : Hash where
  hmac := Sha256.hmac
  sha256 := Sha256.sha256
  hmac_length := Sha256.length_hmac

/-- `ScramVerifier`. -/
structure ScramVerifier where
  salt : List UInt8
  iterations : Nat
  storedKey : List UInt8
  serverKey : List UInt8
  real : Bool
  deriving DecidableEq

/-! ### Texts -/

/-- `[\x21-\x2b\x2d-\x7e]`: printable, but no comma. -/
def isPrintable (c : Char) : Bool :=
  (0x21 ≤ c.toNat && c.toNat ≤ 0x2B) || (0x2D ≤ c.toNat && c.toNat ≤ 0x7E)

/-- `[^=,\x00-\x1f\x7f]`. -/
def isNameChar (c : Char) : Bool :=
  c != '=' && c != ',' && 0x1F < c.toNat && c.toNat != 0x7F

/-- `(?:[^=,\x00-\x1f\x7f]|=2C|=3D)*`. -/
def isSaslName : List Char → Bool
  | '=' :: '2' :: 'C' :: rest => isSaslName rest
  | '=' :: '3' :: 'D' :: rest => isSaslName rest
  | c :: rest => isNameChar c && isSaslName rest
  | [] => true

/-- `[A-Za-z0-9+/]*={0,2}`. -/
def isBase64Text (text : List Char) : Bool :=
  (text.dropWhile Base64.isStandard).all (· == '=') &&
    (text.dropWhile Base64.isStandard).length ≤ 2

/-- The text up to its first comma. -/
def beforeComma (text : List Char) : List Char := text.takeWhile (· ≠ ',')

/-- The text from its first comma on. -/
def fromComma (text : List Char) : List Char := text.dropWhile (· ≠ ',')

/-- `_CLIENT_FIRST_BARE.fullmatch(bare)`: the nonce. -/
def clientFirstBare : List Char → Option (List Char)
  | 'n' :: '=' :: rest =>
      match fromComma rest with
      | ',' :: 'r' :: '=' :: nonce =>
          if isSaslName (beforeComma rest) ∧ nonce.all isPrintable ∧
              minClientNonce ≤ nonce.length ∧ nonce.length ≤ maxClientNonce then some nonce
          else none
      | _ => none
  | _ => none

/-- The groups of `_CLIENT_FINAL`. -/
structure ClientFinal where
  cbind : List Char
  nonce : List Char
  proof : List Char
  deriving DecidableEq

/-- The group `without_proof`. -/
def ClientFinal.withoutProof (m : ClientFinal) : List Char :=
  'c' :: '=' :: m.cbind ++ ',' :: 'r' :: '=' :: m.nonce

/-- `_CLIENT_FINAL.fullmatch(text)`. -/
def clientFinalMatch : List Char → Option ClientFinal
  | 'c' :: '=' :: rest =>
      match fromComma rest with
      | ',' :: 'r' :: '=' :: tail =>
          match fromComma tail with
          | ',' :: 'p' :: '=' :: proof =>
              if isBase64Text (beforeComma rest) ∧ (beforeComma tail ≠ [] ∧
                  (beforeComma tail).all isPrintable) ∧ isBase64Text proof then
                some ⟨beforeComma rest, beforeComma tail, proof⟩
              else none
          | _ => none
      | _ => none
  | _ => none

/-- `_flag_allowed`. -/
def flagAllowed (plus : Bool) (flag : List Char) (bindingOffered : Bool) : Bool :=
  if plus then flag == bindingFlag
  else if flag = ['y'] then !bindingOffered
  else flag == ['n']

/-! ### The exchange -/

/-- `_Stage`. -/
inductive Stage where
  | awaitFirst
  | awaitFinal
  | done
  | failed
  deriving DecidableEq

/-- `ScramServerExchange`. Its constructor refuses an empty channel binding and a nonce that is
not printable. -/
structure Exchange where
  verifier : ScramVerifier
  channelBinding : Option (List UInt8)
  serverNonce : Option (List Char)
  stage : Stage := .awaitFirst
  nonce : List Char := []
  authPrefix : List Char := []
  cbindInput : List UInt8 := []
  channelBinding_ne_nil : channelBinding ≠ some []
  serverNonce_printable : ∀ nonce, serverNonce = some nonce →
    nonce ≠ [] ∧ nonce.all isPrintable = true

/-- `mechanisms`. -/
def Exchange.mechanisms (e : Exchange) : List (List Char) :=
  match e.channelBinding with
  | none => [scramSha256]
  | some _ => [scramSha256Plus, scramSha256]

/-- What a call gives: the exchange after it, and what it returns or raises. -/
abbrev Outcome : Type := Exchange × Except PgwireErrorCategory (List UInt8)

/-- `_fail`. -/
def Exchange.fail (e : Exchange) (category : PgwireErrorCategory) : Outcome :=
  ({ e with stage := .failed }, .error category)

/-- `_text`. -/
def messageText (data : List UInt8) : Option (List Char) :=
  if data.length > maxSaslMessage then none else decodeUtf8 data

/-- `_random_suffix`, on what the random source gives. -/
def randomSuffix (random : Option (List UInt8)) : Option (List Char) :=
  random.map Base64.encodePadded

/-- The server-first message. -/
def serverFirst (verifier : ScramVerifier) (nonce : List Char) : List Char :=
  'r' :: '=' :: nonce ++ ',' :: 's' :: '=' :: Base64.encodePadded verifier.salt ++
    ',' :: 'i' :: '=' :: Nat.toDigits 10 verifier.iterations

/-- `client_first` from the parsed message on. -/
def Exchange.answerFirst (e : Exchange) (plus : Bool) (flag bare clientNonce : List Char)
    (random : Option (List UInt8)) : Outcome :=
  match e.serverNonce <|> randomSuffix random with
  | none => e.fail .internalError
  | some suffix =>
      let nonce := clientNonce ++ suffix
      let first := serverFirst e.verifier nonce
      let binding := if plus then e.channelBinding.getD [] else []
      ({ e with
          nonce := nonce
          cbindInput := utf8 (flag ++ [',', ',']) ++ binding
          authPrefix := bare ++ ',' :: first ++ [',']
          stage := .awaitFinal },
        .ok (utf8 first))

/-- `client_first`. The text is cut at its first two commas, and between them there must be
nothing. -/
def Exchange.clientFirst (e : Exchange) (mechanism : List Char) (data : List UInt8)
    (random : Option (List UInt8)) : Outcome :=
  if e.stage ≠ .awaitFirst ∨ mechanism ∉ e.mechanisms then e.fail .protocolViolation
  else
    match messageText data with
    | none => e.fail .protocolViolation
    | some message =>
        match fromComma message with
        | ',' :: ',' :: bare =>
            let flag := beforeComma message
            let plus := mechanism == scramSha256Plus
            if flagAllowed plus flag e.channelBinding.isSome then
              match clientFirstBare bare with
              | none => e.fail .protocolViolation
              | some clientNonce => e.answerFirst plus flag bare clientNonce random
            else e.fail .protocolViolation
        | _ => e.fail .protocolViolation

/-- `bytes(a ^ b for a, b in zip(left, right))`. -/
def xorBytes (left right : List UInt8) : List UInt8 := List.zipWith (· ^^^ ·) left right

/-- `_b64decode`, on a text that `_CLIENT_FINAL` lets through. Where padding follows whole groups
the versions of Python differ; such a text never has the length of a proof. -/
def rawProof (m : ClientFinal) : Option (List UInt8) :=
  match Base64.decodePadded m.proof with
  | none => none
  | some raw => if raw.length = proofBytes then some raw else none

/-- `auth_message`, with the text of the proof left out. -/
def Exchange.authMessage (e : Exchange) (m : ClientFinal) : List UInt8 :=
  utf8 (e.authPrefix ++ m.withoutProof)

/-- `accepted`. -/
def Exchange.accepted (hash : Hash) (e : Exchange) (m : ClientFinal) (proof : List UInt8)
    (identityAccepted : Bool) : Bool :=
  let channelOk := m.cbind == Base64.encodePadded e.cbindInput
  let nonceOk := m.nonce == e.nonce
  let signature := hash.hmac e.verifier.storedKey (e.authMessage m)
  let proofOk := hash.sha256 (xorBytes proof signature) == e.verifier.storedKey
  channelOk && nonceOk && proofOk && e.verifier.real && identityAccepted

/-- `client_final`. -/
def Exchange.clientFinal (hash : Hash) (e : Exchange) (data : List UInt8)
    (identityAccepted : Bool) : Outcome :=
  if e.stage ≠ .awaitFinal then e.fail .protocolViolation
  else
    match (messageText data).bind clientFinalMatch with
    | none => e.fail .protocolViolation
    | some m =>
        match rawProof m with
        | none => e.fail .protocolViolation
        | some proof =>
            if e.accepted hash m proof identityAccepted then
              ({ e with stage := .done },
                .ok (utf8 ('v' :: '=' :: Base64.encodePadded
                  (hash.hmac e.verifier.serverKey (e.authMessage m)))))
            else e.fail .authenticationFailed

/-! ### Calls -/

/-- A call on an exchange. -/
inductive Call where
  | first (mechanism : List Char) (data : List UInt8) (random : Option (List UInt8))
  | final (data : List UInt8) (identityAccepted : Bool)

/-- One call. -/
def Exchange.call (hash : Hash) (e : Exchange) : Call → Outcome
  | .first mechanism data random => e.clientFirst mechanism data random
  | .final data identityAccepted => e.clientFinal hash data identityAccepted

/-- Calls one after the other, and what each of them gave. -/
def Exchange.calls (hash : Hash) (e : Exchange) :
    List Call → Exchange × List (Except PgwireErrorCategory (List UInt8))
  | [] => (e, [])
  | c :: rest =>
      let (e, result) := e.call hash c
      let (e, results) := e.calls hash rest
      (e, result :: results)

end MaskGateway.Pgwire.Scram
