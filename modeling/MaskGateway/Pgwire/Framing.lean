import MaskGateway.Lib.Bytes
import MaskGateway.Lib.Except
import MaskGateway.Lib.Utf8
import MaskGateway.Masking.Engine

/-!
# `MaskGateway.Pgwire.Framing`: the packets of a PostgreSQL 3.0 startup

`pgwire/framing.py` and the messages of `pgwire/errors.py`: the bounded parsers for what a client
sends before it is authenticated, and the writers for what the server answers.

Every refusal is one of the fixed categories. `str.lower` is a parameter: the parser only asks
whether the lowered name of an encoding is one of three.
-/

set_option autoImplicit false

namespace MaskGateway.Pgwire

open Lib

/-! ### Errors -/

/-- `PgwireErrorCategory`. -/
inductive PgwireErrorCategory where
  | authenticationFailed
  | protocolViolation
  | featureNotSupported
  | internalError
  | tooManyConnections
  deriving DecidableEq

/-- `PGWIRE_ERRORS`: the SQLSTATE and the text of a category. -/
def PgwireErrorCategory.report : PgwireErrorCategory → List Char × List Char
  | .authenticationFailed => ("28P01".toList, "authentication failed".toList)
  | .protocolViolation => ("08P01".toList, "protocol violation".toList)
  | .featureNotSupported => ("0A000".toList, "feature not supported".toList)
  | .internalError => ("XX000".toList, "internal error".toList)
  | .tooManyConnections => ("53300".toList, "too many connections".toList)

namespace Framing

/-! ### Constants -/

/-- `LENGTH_BYTES`. -/
def lengthBytes : Nat := 4

/-- `TYPED_HEADER_BYTES`. -/
def typedHeaderBytes : Nat := 5

/-- `MIN_INITIAL_PACKET`. -/
def minInitialPacket : Nat := 8

/-- `MAX_INITIAL_PACKET`. -/
def maxInitialPacket : Nat := 10000

/-- `MAX_STARTUP_PAIRS`. -/
def maxStartupPairs : Nat := 32

/-- `MAX_KEY_BYTES`. -/
def maxKeyBytes : Nat := 63

/-- `MAX_VALUE_BYTES`. -/
def maxValueBytes : Nat := 256

/-- `MAX_SASL_MESSAGE`. -/
def maxSaslMessage : Nat := 2048

/-- `MAX_MECHANISM_NAME`. -/
def maxMechanismName : Nat := 32

/-- `PROTOCOL_3_0`. -/
def protocol30 : Nat := 196608

/-- `SSL_REQUEST_CODE`. -/
def sslRequestCode : Nat := 80877103

/-- `GSSENC_REQUEST_CODE`. -/
def gssencRequestCode : Nat := 80877104

/-- `CANCEL_REQUEST_CODE`. -/
def cancelRequestCode : Nat := 80877102

/-- `STARTUP_KEYS`. -/
def startupKeys : List Name :=
  ["user".toList, "database".toList, "application_name".toList, "client_encoding".toList]

/-- `UTF8_NAMES`. -/
def utf8Names : List Name := ["utf8".toList, "utf-8".toList, "unicode".toList]

/-! ### The initial packet -/

/-- `InitialKind`. -/
inductive InitialKind where
  | sslRequest
  | startup
  deriving DecidableEq

/-- `initial_length`: the length of the initial packet, from its four header bytes. -/
def initialLength (header : List UInt8) : Except PgwireErrorCategory Nat := do
  refuseIf (header.length ≠ lengthBytes) .protocolViolation
  refuseIf (¬ (minInitialPacket ≤ ofBytes header ∧ ofBytes header ≤ maxInitialPacket))
    .protocolViolation
  return ofBytes header

/-- `classify_initial`: what an initial packet is, from its body. -/
def classifyInitial (body : List UInt8) : Except PgwireErrorCategory InitialKind := do
  refuseIf (body.length < lengthBytes) .protocolViolation
  let code := ofBytes (body.take 4)
  if code = sslRequestCode then
    if body.length ≠ lengthBytes then .error .protocolViolation else .ok .sslRequest
  else if code = gssencRequestCode ∨ code = cancelRequestCode then .error .featureNotSupported
  else if code = protocol30 then .ok .startup
  else if code / 2 ^ 16 = protocol30 / 2 ^ 16 then .error .featureNotSupported
  else .error .protocolViolation

/-- `StartupMessage`. -/
structure StartupMessage where
  user : Name
  database : Option Name
  applicationName : Option Name
  deriving DecidableEq

/-- The loop of `parse_startup` over the fields, two at a time. -/
def parsePairs : List (List UInt8) → List (Name × Name) →
    Except PgwireErrorCategory (List (Name × Name))
  | rawKey :: rawValue :: rest, values => do
      refuseIf (rawKey = [] ∨ maxKeyBytes < rawKey.length ∨ maxValueBytes < rawValue.length)
        .protocolViolation
      match decodeUtf8 rawKey, decodeUtf8 rawValue with
      | some key, some value => do
          refuseIf ((values.lookup key).isSome = true) .protocolViolation
          refuseIf (key ∉ startupKeys) .featureNotSupported
          parsePairs rest (values ++ [(key, value)])
      | _, _ => .error .protocolViolation
  | _, values => .ok values

/-- The check of `client_encoding`. -/
def checkEncoding (lower : Name → Name) : Option Name → Except PgwireErrorCategory Unit
  | none => .ok ()
  | some encoding => refuseIf (lower encoding ∉ utf8Names) .featureNotSupported

/-- `parse_startup`. -/
def parseStartup (lower : Name → Name) (body : List UInt8) :
    Except PgwireErrorCategory StartupMessage := do
  let kind ← classifyInitial body
  refuseIf (kind ≠ .startup) .protocolViolation
  let payload := body.drop 4
  refuseIf (¬ [0, 0] <:+ payload) .protocolViolation
  let fields := (payload.take (payload.length - 2)).splitOn 0
  refuseIf (fields.length % 2 ≠ 0 ∨ maxStartupPairs < fields.length / 2) .protocolViolation
  let values ← parsePairs fields []
  match values.lookup "user".toList with
  | some (c :: user) => do
      checkEncoding lower (values.lookup "client_encoding".toList)
      return ⟨c :: user, values.lookup "database".toList,
        values.lookup "application_name".toList⟩
  | _ => .error .protocolViolation

/-- `ALIAS_PATTERN.fullmatch`: a first letter or digit and at most 62 of `[a-z0-9_-]`. -/
def validAlias : Option Name → Bool
  | some (c :: rest) =>
      (c.isLower || c.isDigit) && rest.length ≤ 62 &&
        rest.all fun c => c.isLower || c.isDigit || c == '_' || c == '-'
  | _ => false

/-! ### Typed messages of the client -/

/-- `message_length`: the length of the body of a typed message. -/
def messageLength (header : List UInt8) (expectedType : UInt8) :
    Except PgwireErrorCategory Nat := do
  refuseIf (header.length ≠ typedHeaderBytes ∨ header.head? ≠ some expectedType)
    .protocolViolation
  let length := ofBytes (header.drop 1)
  refuseIf (¬ (lengthBytes ≤ length ∧ length ≤ maxSaslMessage)) .protocolViolation
  return length - lengthBytes

/-- `bytes.decode("ascii")`, for bytes that are ASCII. -/
def decodeAscii (bytes : List UInt8) : Name := bytes.map fun b => Char.ofNat b.toNat

/-- `parse_sasl_initial`: the mechanism and the initial response. -/
def parseSaslInitial (body : List UInt8) : Except PgwireErrorCategory (Name × List UInt8) := do
  refuseIf (maxSaslMessage - lengthBytes < body.length) .protocolViolation
  match body.findIdx? (· == 0) with
  | none => .error .protocolViolation
  | some endAt => do
      refuseIf (endAt = 0 ∨ maxMechanismName < endAt ∨
        ¬ (body.take endAt).all (·.toNat < 128) = true) .protocolViolation
      let rest := body.drop (endAt + 1)
      refuseIf (rest.length < lengthBytes) .protocolViolation
      let declared := signedOfBytes (rest.take 4)
      refuseIf (declared < 0 ∨ declared ≠ (rest.drop 4).length) .protocolViolation
      return (decodeAscii (body.take endAt), rest.drop 4)

/-! ### Messages of the server -/

/-- `_message`: a kind, the length of the body with itself, and the body. -/
def message (kind : Char) (body : List UInt8) : List UInt8 :=
  utf8 [kind] ++ toBytes 4 (body.length + 4) ++ body

/-- `authentication_sasl`. -/
def authenticationSasl (mechanisms : List Name) : List UInt8 :=
  message 'R' (toBytes 4 10 ++ (mechanisms.flatMap fun name => utf8 name ++ [0]) ++ [0])

/-- `authentication_sasl_continue`. -/
def authenticationSaslContinue (data : List UInt8) : List UInt8 :=
  message 'R' (toBytes 4 11 ++ data)

/-- `authentication_sasl_final`. -/
def authenticationSaslFinal (data : List UInt8) : List UInt8 :=
  message 'R' (toBytes 4 12 ++ data)

/-- `authentication_ok`. -/
def authenticationOk : List UInt8 := message 'R' (toBytes 4 0)

/-- `error_response`: a FATAL error with the SQLSTATE and the text of its category. -/
def errorResponse (category : PgwireErrorCategory) : List UInt8 :=
  message 'E' (utf8 "SFATAL".toList ++ [0] ++ utf8 "VFATAL".toList ++ [0] ++
    utf8 ('C' :: category.report.1) ++ [0] ++ utf8 ('M' :: category.report.2) ++ [0] ++ [0])

end Framing

end MaskGateway.Pgwire
