import MaskGateway.Pgwire.Scram

/-!
# `MaskGateway.Pgwire.ScramClient`: the client side of RFC 5802

Not a translation of anything in the repository: the server of `MaskGateway.Pgwire.Scram` is
written for clients that follow RFC 5802, and this is what such a client sends. It has no
authorization identity and no extensions, it writes its name with `=2C` and `=3D`, and it reads
from the server-first nothing but the nonce: its keys are taken to be computed already.
-/

set_option autoImplicit false

namespace MaskGateway.Pgwire.Scram

open Lib

/-- A client: what it picks for an exchange, and its keys. -/
structure Client where
  mechanism : List Char
  flag : List Char
  /-- the binding data of its channel, where it binds to it -/
  binding : List UInt8
  name : List Char
  nonce : List Char
  clientKey : List UInt8
  serverKey : List UInt8

/-- `saslname`: a comma and an equals sign have a code of their own. -/
def escapeName (name : List Char) : List Char :=
  name.flatMap fun c =>
    if c = ',' then ['=', '2', 'C'] else if c = '=' then ['=', '3', 'D'] else [c]

/-- `gs2-header`. -/
def Client.gs2Header (c : Client) : List Char := c.flag ++ [',', ',']

/-- `client-first-message-bare`. -/
def Client.firstBare (c : Client) : List Char :=
  'n' :: '=' :: escapeName c.name ++ ',' :: 'r' :: '=' :: c.nonce

/-- `client-first-message`. -/
def Client.firstMessage (c : Client) : List Char := c.gs2Header ++ c.firstBare

/-- The attribute `r` of a `server-first-message`. -/
def combinedNonce (serverFirst : List Char) : List Char := beforeComma (serverFirst.drop 2)

/-- `client-final-message-without-proof`. -/
def Client.finalWithoutProof (c : Client) (serverFirst : List Char) : List Char :=
  'c' :: '=' :: Base64.encodePadded (utf8 c.gs2Header ++ c.binding) ++
    ',' :: 'r' :: '=' :: combinedNonce serverFirst

/-- `AuthMessage`. -/
def Client.authMessage (c : Client) (serverFirst : List Char) : List Char :=
  c.firstBare ++ ',' :: serverFirst ++ ',' :: c.finalWithoutProof serverFirst

/-- `ClientProof := ClientKey XOR HMAC(H(ClientKey), AuthMessage)`. -/
def Client.proof (hash : Hash) (c : Client) (serverFirst : List Char) : List UInt8 :=
  xorBytes c.clientKey (hash.hmac (hash.sha256 c.clientKey) (utf8 (c.authMessage serverFirst)))

/-- `client-final-message`. -/
def Client.finalMessage (hash : Hash) (c : Client) (serverFirst : List Char) : List Char :=
  c.finalWithoutProof serverFirst ++
    ',' :: 'p' :: '=' :: Base64.encodePadded (c.proof hash serverFirst)

/-- The `server-final-message` that the client waits for: `ServerSignature` under `v`. -/
def Client.expectedFinal (hash : Hash) (c : Client) (serverFirst : List Char) : List Char :=
  'v' :: '=' :: Base64.encodePadded (hash.hmac c.serverKey (utf8 (c.authMessage serverFirst)))

/-- The flag and the binding that go with a mechanism: the type and the data of the channel with
`-PLUS`, and no data without it, where `y` says that the server did not offer `-PLUS`. -/
def Client.BindsTo (c : Client) (channelBinding : Option (List UInt8)) : Prop :=
  (c.mechanism = scramSha256Plus ∧ c.flag = bindingFlag ∧ channelBinding = some c.binding) ∨
    (c.mechanism = scramSha256 ∧ c.binding = [] ∧
      (c.flag = ['n'] ∨ c.flag = ['y'] ∧ channelBinding = none))

/-- A client that has what the server of an exchange goes by. SASLprep leaves no control character
in its name. -/
structure Client.Suits (hash : Hash) (c : Client) (e : Exchange) : Prop where
  binds : c.BindsTo e.channelBinding
  prepared : ∀ ch ∈ c.name, 0x1F < ch.toNat ∧ ch.toNat ≠ 0x7F
  nonce_printable : c.nonce.all isPrintable = true
  nonce_length : minClientNonce ≤ c.nonce.length ∧ c.nonce.length ≤ maxClientNonce
  clientKey_length : c.clientKey.length = 32
  storedKey_eq : hash.sha256 c.clientKey = e.verifier.storedKey
  serverKey_eq : c.serverKey = e.verifier.serverKey

end MaskGateway.Pgwire.Scram
