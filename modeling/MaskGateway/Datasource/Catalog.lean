import MaskGateway.Datasource.Models

/-!
# `MaskGateway.Datasource.Catalog`: the three documents of the catalog

The store document, the anchor and the journal of `datasource/store.py`, each with its writer and
its parser, over the primitives of `datasource/crypto.py`.

* The store document is a payload (revision and records) with a tag over it under the master
  key. `parseCatalog` needs the key.
* The anchor is a revision and a digest, without a tag.
* The journal names the state before and the state after a transaction, with one tag over both
  under the key before and one under the key after. The two tags differ only when the
  transaction changes the master key.

HMAC, SHA-256 and AES-GCM are parameters (`Crypto`), with what the code relies on: digests and
tags are 64 hexadecimal digits, and a sealed secret opens again under the same key, nonce and
associated data.
-/

set_option autoImplicit false

namespace MaskGateway.Datasource

open Lib

/-! ### Keys and primitives -/

/-- A master key: 32 bytes. -/
abbrev Key := { bytes : List UInt8 // bytes.length = 32 }

/-- A master key as a caller gives it. -/
inductive KeyArg where
  | bytes (value : List UInt8)
  | text (value : Name)
  | missing
  deriving DecidableEq

/-- The value of a hexadecimal digit of either case. -/
def hexDigit (c : Char) : Option Nat :=
  if c.isDigit then some (c.toNat - 48)
  else if "abcdef".toList.contains c then some (c.toNat - 87)
  else if "ABCDEF".toList.contains c then some (c.toNat - 55)
  else none

/-- `bytes.fromhex` on hexadecimal digits. -/
def fromHex : Name → Option (List UInt8)
  | [] => some []
  | c₁ :: c₂ :: rest => do
      let v₁ ← hexDigit c₁
      let v₂ ← hexDigit c₂
      let bytes ← fromHex rest
      return UInt8.ofNat (v₁ * 16 + v₂) :: bytes
  | [_] => none

/-- `validate_master_key`: 32 bytes, or 64 hexadecimal digits. -/
def validateMasterKey (arg : KeyArg) : Except StoreError Key :=
  match arg with
  | .missing => .error ⟨.crypto, "chave-mestra ausente"⟩
  | .bytes value =>
      if h : value.length = 32 then .ok ⟨value, h⟩
      else .error ⟨.crypto, "chave-mestra invalida"⟩
  | .text value =>
      match fromHex value with
      | none => .error ⟨.crypto, "chave-mestra invalida"⟩
      | some bytes =>
          if h : bytes.length = 32 then .ok ⟨bytes, h⟩
          else .error ⟨.crypto, "chave-mestra invalida"⟩

/-- The cryptographic primitives. -/
structure Crypto where
  /-- `catalog_auth_tag`: the hexadecimal HMAC of a payload under a master key. -/
  tag : Key → Json → Name
  /-- `catalog_digest`: the hexadecimal SHA-256 of a payload. -/
  digest : Json → Name
  /-- AES-GCM encryption of a text under a key, a nonce and associated data. -/
  encrypt : Key → List UInt8 → Name → Json → List UInt8
  /-- AES-GCM decryption, nothing when the tag does not fit. -/
  decrypt : Key → List UInt8 → List UInt8 → Json → Option Name
  tag_hex : ∀ key payload, fixedHex (tag key payload) = true
  digest_hex : ∀ payload, fixedHex (digest payload) = true
  encrypt_length : ∀ key nonce text aad, 16 ≤ (encrypt key nonce text aad).length
  decrypt_encrypt : ∀ key nonce text aad,
    decrypt key nonce (encrypt key nonce text aad) aad = some text

/-- `_aad`: the associated data of a record's secret. -/
def aad (datasourceId : Name) (revision : Nat) : Json :=
  .obj [("datasource_id".toList, .str datasourceId),
    ("field".toList, .str "upstream_secret".toList),
    ("revision".toList, .int revision), ("schema_version".toList, .int 1)]

/-- `seal_secret`, with the nonce that the system draws. -/
def sealSecret (crypto : Crypto) (nonce : { bytes : List UInt8 // bytes.length = 12 })
    (plaintext : Name) (key : Key) (datasourceId : Name) (revision : Nat) :
    Except StoreError EncryptedSecret :=
  if plaintext = [] then .error ⟨.crypto, "segredo ausente"⟩
  else
    .ok ⟨nonce.1, crypto.encrypt key nonce.1 plaintext (aad datasourceId revision), nonce.2,
      crypto.encrypt_length ..⟩

/-- `open_secret`. -/
def openSecret (crypto : Crypto) (envelope : EncryptedSecret) (key : Key) (datasourceId : Name)
    (revision : Nat) : Except StoreError Name :=
  match crypto.decrypt key envelope.nonce envelope.ciphertext (aad datasourceId revision) with
  | some (c :: plaintext) => .ok (c :: plaintext)
  | _ => .error ⟨.crypto, "segredo indisponivel"⟩

/-! ### The store document -/

/-- A catalog that was read: `_ParsedCatalog`. -/
structure ParsedCatalog (v : Validators) where
  revision : Nat
  digest : Name
  records : List (CatalogRecord v)

/-- The records in the order of their ids. -/
def sortRecords {v : Validators} (records : List (CatalogRecord v)) : List (CatalogRecord v) :=
  records.insertionSort fun a b => a.1.id ≤ b.1.id

/-- The fields of `_make_payload`. -/
def payloadFields {v : Validators} (revision : Nat) (records : List (CatalogRecord v)) :
    List (Name × Json) :=
  [("catalog_revision".toList, .int revision),
   ("datasources".toList, .arr ((sortRecords records).map fun record => recordToJson record.1)),
   ("format".toList, .int 1),
   ("schema_version".toList, .int 1)]

/-- `_make_payload`. -/
def makePayload {v : Validators} (revision : Nat) (records : List (CatalogRecord v)) : Json :=
  .obj (payloadFields revision records)

/-- `_serialize_document` of a payload. -/
def serializeDocument {v : Validators} (crypto : Crypto) (revision : Nat)
    (records : List (CatalogRecord v)) (key : Key) : Content :=
  .canonical (.obj (("auth".toList, .obj
    [("algorithm".toList, .str "HMAC-SHA256".toList),
     ("tag".toList, .str (crypto.tag key (makePayload revision records)))]) ::
    payloadFields revision records))

/-- `verify_catalog_auth`. Comparing a text that is not ASCII raises `TypeError`, which nothing
catches. -/
def verifyCatalogAuth (crypto : Crypto) (payload tag : Json) (key : Key) :
    Except StoreError Unit :=
  match tag with
  | .str value =>
      if value.length ≠ 64 then .error ⟨.key, "nao foi possivel autenticar o catalogo"⟩
      else if value.any fun c => decide (128 ≤ c.toNat) then
        .error ⟨.typeError, "comparing strings with non-ASCII characters is not supported"⟩
      else if crypto.tag key payload = value then .ok ()
      else .error ⟨.key, "nao foi possivel autenticar o catalogo"⟩
  | _ => .error ⟨.key, "nao foi possivel autenticar o catalogo"⟩

/-- The entries of `datasources`. -/
def requireRecords : Json → Except StoreError (List Json)
  | .arr items => .ok items
  | _ => .error ⟨.corrupt, "datasources invalido"⟩

/-- `_parse_catalog`. -/
def parseCatalog (v : Validators) (crypto : Crypto) (data : Content) (key : Key) :
    Except StoreError (ParsedCatalog v) := do
  let document ← loads data
  let raw ← requireMapping document
  requireKeys raw ["auth", "catalog_revision", "datasources", "format", "schema_version"]
  refuseIf ((member raw "format").isOne = false ∨ (member raw "schema_version").isOne = false)
    ⟨.corrupt, "versao do catalogo nao suportada"⟩
  let revision ← requireInt 1 (member raw "catalog_revision")
  let auth ← requireMapping (member raw "auth")
  requireKeys auth ["algorithm", "tag"]
  refuseIf ((member auth "algorithm").isText "HMAC-SHA256" = false)
    ⟨.corrupt, "autenticacao do catalogo invalida"⟩
  let payload := Json.obj (raw.filter fun field => field.1 != "auth".toList)
  refuseIf (data.isCanonical = false) ⟨.corrupt, "catalogo nao canonico"⟩
  verifyCatalogAuth crypto payload (member auth "tag") key
  let items ← requireRecords (member raw "datasources")
  let records ← items.mapM (parseRecord v)
  refuseIf (¬ (records.map fun record => record.1.id).Pairwise (· ≤ ·))
    ⟨.corrupt, "datasources fora de ordem"⟩
  refuseIf (¬ (records.map fun record => record.1.id).Nodup)
    ⟨.corrupt, "IDs de datasource duplicados"⟩
  refuseIf (¬ (records.map fun record => record.1.alias_).Nodup)
    ⟨.corrupt, "aliases de datasource duplicados"⟩
  return ⟨revision, crypto.digest payload, records⟩

/-! ### The anchor -/

/-- A state of the catalog: revision and digest. -/
abbrev State := Nat × Name

/-- `_Anchor`. -/
structure Anchor where
  revision : Nat
  digest : Name
  deriving DecidableEq

/-- The anchor of a state: `_Anchor(*state)`. -/
def Anchor.ofState (state : State) : Anchor := ⟨state.1, state.2⟩

/-- `_state_of` an anchor. -/
def Anchor.state (anchor : Anchor) : State := (anchor.revision, anchor.digest)

/-- `_state_of` a catalog. -/
def ParsedCatalog.state {v : Validators} (parsed : ParsedCatalog v) : State :=
  (parsed.revision, parsed.digest)

/-- `_anchor_bytes`. -/
def anchorContent (anchor : Anchor) : Content :=
  .canonical (.obj [("catalog_digest".toList, .str anchor.digest),
    ("catalog_revision".toList, .int anchor.revision), ("format".toList, .int 1)])

/-- A text of 64 hexadecimal digits, or the error given. -/
def requireHex (error : StoreError) : Json → Except StoreError Name
  | .str value => if fixedHex value then .ok value else .error error
  | _ => .error error

/-- `_parse_anchor`. -/
def parseAnchor (data : Content) : Except StoreError Anchor := do
  let raw ← loads data
  let mapping ← requireMapping raw
  requireKeys mapping ["catalog_digest", "catalog_revision", "format"]
  refuseIf ((member mapping "format").isOne = false) ⟨.anchor, "ancora invalida"⟩
  let digest ← requireHex ⟨.anchor, "ancora invalida"⟩ (member mapping "catalog_digest")
  let revision ← requireInt 1 (member mapping "catalog_revision")
  refuseIf (data.isCanonical = false) ⟨.anchor, "ancora invalida"⟩
  return ⟨revision, digest⟩

/-! ### The journal -/

/-- `_Journal`. -/
structure Journal where
  oldRevision : Nat
  oldDigest : Option Name
  newRevision : Nat
  newDigest : Name
  oldAuthTag : Name
  newAuthTag : Name
  deriving DecidableEq

/-- The payload that both tags of a journal cover. -/
def journalPayload (oldRevision : Nat) (oldDigest : Option Name) (newRevision : Nat)
    (newDigest : Name) : Json :=
  .obj [("format".toList, .int 1), ("new_digest".toList, .str newDigest),
    ("new_revision".toList, .int newRevision), ("old_digest".toList, optionalText oldDigest),
    ("old_revision".toList, .int oldRevision)]

/-- `_journal_payload`. -/
def Journal.payload (journal : Journal) : Json :=
  journalPayload journal.oldRevision journal.oldDigest journal.newRevision journal.newDigest

/-- `_journal_bytes`. -/
def journalContent (journal : Journal) : Content :=
  .canonical (.obj [("format".toList, .int 1),
    ("new_auth_tag".toList, .str journal.newAuthTag),
    ("new_digest".toList, .str journal.newDigest),
    ("new_revision".toList, .int journal.newRevision),
    ("old_auth_tag".toList, .str journal.oldAuthTag),
    ("old_digest".toList, optionalText journal.oldDigest),
    ("old_revision".toList, .int journal.oldRevision)])

/-- The error of an invalid journal. -/
def invalidJournal : StoreError := ⟨.anchor, "journal invalido"⟩

/-- The digest before the transaction: none before the first. -/
def requireOldDigest : Json → Except StoreError (Option Name)
  | .null => .ok none
  | .str value => if fixedHex value then .ok (some value) else .error invalidJournal
  | _ => .error invalidJournal

/-- `_parse_journal_document`. -/
def parseJournalDocument (data : Content) : Except StoreError Journal := do
  let raw ← loads data
  let mapping ← requireMapping raw
  requireKeys mapping ["format", "new_auth_tag", "new_digest", "new_revision", "old_auth_tag",
    "old_digest", "old_revision"]
  refuseIf ((member mapping "format").isOne = false) invalidJournal
  let newDigest ← requireHex invalidJournal (member mapping "new_digest")
  let oldDigest ← requireOldDigest (member mapping "old_digest")
  let oldRevision ← requireInt 0 (member mapping "old_revision")
  let newRevision ← requireInt 1 (member mapping "new_revision")
  refuseIf (newRevision ≠ oldRevision + 1) invalidJournal
  refuseIf (¬ (oldRevision = 0 ↔ oldDigest = none)) invalidJournal
  let oldAuthTag ← requireHex invalidJournal (member mapping "old_auth_tag")
  let newAuthTag ← requireHex invalidJournal (member mapping "new_auth_tag")
  refuseIf (data.isCanonical = false) invalidJournal
  return { oldRevision, oldDigest, newRevision, newDigest, oldAuthTag, newAuthTag }

/-- `_journal_roles`: whether the key authenticates the state before, and the state after. -/
def journalRoles (crypto : Crypto) (journal : Journal) (key : Key) : Bool × Bool :=
  let expected := crypto.tag key journal.payload
  (expected == journal.oldAuthTag, expected == journal.newAuthTag)

/-- `_is_rotation_journal`. -/
def Journal.isRotation (journal : Journal) : Bool := journal.oldAuthTag != journal.newAuthTag

/-- `_parse_journal`. -/
def parseJournal (crypto : Crypto) (data : Content) (key : Key) :
    Except StoreError (Journal × Bool × Bool) := do
  let journal ← parseJournalDocument data
  let roles := journalRoles crypto journal key
  refuseIf (roles.1 = false ∧ roles.2 = false) ⟨.key, "journal nao autenticado"⟩
  return (journal, roles)

/-- `_new_journal`. -/
def newJournal (crypto : Crypto) (oldRevision : Nat) (oldDigest : Option Name)
    (newRevision : Nat) (newDigest : Name) (oldKey newKey : Key) : Journal :=
  let payload := journalPayload oldRevision oldDigest newRevision newDigest
  { oldRevision, oldDigest, newRevision, newDigest,
    oldAuthTag := crypto.tag oldKey payload, newAuthTag := crypto.tag newKey payload }

/-- The state before, as `_journal_states` gives it: none before the first transaction. -/
def Journal.oldState (journal : Journal) : Option State :=
  if journal.oldRevision = 0 then none
  else some (journal.oldRevision, journal.oldDigest.getD [])

/-- The state after. -/
def Journal.newState (journal : Journal) : State := (journal.newRevision, journal.newDigest)

end MaskGateway.Datasource
