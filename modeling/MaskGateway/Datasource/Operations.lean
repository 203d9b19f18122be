import MaskGateway.Datasource.Store

/-!
# `MaskGateway.Datasource.Operations`: what an open catalog does

`create`, `update`, `rotate_secret`, `rotate_master_key` and `remove` of `CatalogStore`. Each one
computes a `Change` from the object in memory, or raises, and touches no file; `_commit` then
writes the change (`commit`). `Operation.run` is the whole call, with the check that
`_serialized_operation` makes before it.

What the system draws (ids, nonces) and what name resolution answers are arguments of an
operation.
-/

set_option autoImplicit false

namespace MaskGateway.Datasource

open Lib

/-- A nonce of AES-GCM. -/
abbrev Nonce := { bytes : List UInt8 // bytes.length = 12 }

/-- A draft as its constructors let it through. -/
abbrev ValidDraft (v : Validators) :=
  { draft : DatasourceDraft // draft.valid v = true ∧ v.policy draft.policy = some draft.policy }

section Operations

variable (v : Validators) (crypto : Crypto)

/-- What an operation returns. -/
inductive Answer where
  | record (record : CatalogRecord v)
  | snapshot (revision : Nat) (records : List (CatalogRecord v)) (digest : Name)
  | nothing

/-- What an operation hands to `_commit`, and what it returns after. -/
structure Change where
  records : List (CatalogRecord v)
  expectedRevision : Int
  newKey : Option Key := none
  answer : CatalogStore v → Answer v := fun _ => .nothing

/-- The operations, with their arguments and what they get from outside. -/
inductive Operation where
  | create (draft : ValidDraft v) (upstreamSecret : Name) (expectedRevision : Option Int)
      (resolved : Except StoreError (List Name))
      (datasourceId : { id : Name // validDatasourceId id = true }) (nonce : Nonce)
  | update (datasourceId : Name) (draft : ValidDraft v) (expectedRevision : Int)
      (resolved : Except StoreError (List Name)) (nonce : Nonce)
  | rotateSecret (datasourceId upstreamSecret : Name) (expectedRevision : Int) (nonce : Nonce)
  | rotateMasterKey (newMasterKey : KeyArg) (nonce : Name → Nonce)
  | remove (datasourceId : Name) (expectedRevision : Int)

variable {v}

/-! ### Checks -/

/-- `_ensure_open`. -/
def CatalogStore.ensureOpen (store : CatalogStore v) : Except StoreError Unit := do
  refuseIf (store.closed = true) ⟨.store, "catalogo encerrado"⟩
  refuseIf (store.poisoned = true)
    ⟨.write, "catalogo requer reabertura apos falha de persistencia"⟩

/-- `_check_revision`. -/
def CatalogStore.checkRevision (store : CatalogStore v) (expected : Option Int) :
    Except StoreError Unit :=
  refuseIf (∃ value ∈ expected, value ≠ store.revision)
    ⟨.revisionConflict, "revision do catalogo divergiu"⟩

/-- `_get_record`. -/
def CatalogStore.getRecord (store : CatalogStore v) (datasourceId : Name) :
    Except StoreError (CatalogRecord v) := do
  refuseIf (validDatasourceId datasourceId = false) ⟨.validation, "modelo de datasource invalido"⟩
  match store.records.find? fun record => record.1.id == datasourceId with
  | some record => return record
  | none => throw ⟨.store, "datasource nao encontrado"⟩

/-- `_read_upstream_secret`. -/
def CatalogStore.readUpstreamSecret (store : CatalogStore v) (record : CatalogRecord v) :
    Except StoreError Name :=
  match openSecret crypto record.1.upstreamSecret store.masterKey record.1.id record.1.revision with
  | .ok plaintext => .ok plaintext
  | .error _ => .error ⟨.key, "segredo indisponivel"⟩

/-- `get`. -/
def CatalogStore.get (store : CatalogStore v) (datasourceId : Name) :
    Except StoreError (CatalogRecord v) := do
  store.ensureOpen
  store.getRecord datasourceId

/-- `read_upstream_secret`, which takes the id. -/
def CatalogStore.readUpstreamSecretOf (store : CatalogStore v) (datasourceId : Name) :
    Except StoreError Name := do
  store.ensureOpen
  let record ← store.getRecord datasourceId
  store.readUpstreamSecret crypto record

/-! ### Records -/

/-- A draft with the addresses its host resolved to, checked again by the constructor. -/
def ValidDraft.withAddresses (draft : ValidDraft v) (addresses : List Name) :
    Except StoreError (ValidDraft v) :=
  let resolved := { draft.1 with resolvedAddresses := addresses }
  if h : resolved.valid v = true then .ok ⟨resolved, h, draft.2.2⟩
  else if addresses.Nodup then .error ⟨.validation, "endereco resolvido invalido"⟩
  else .error ⟨.validation, "enderecos resolvidos duplicados"⟩

/-- A record made of a draft. -/
def makeRecord (draft : ValidDraft v) (id : { id : Name // validDatasourceId id = true })
    (previous : Nat) (envelope : EncryptedSecret) : CatalogRecord v :=
  ⟨{ toDatasourceDraft := draft.1, id := id.1, revision := previous + 1, lastTest := {},
     upstreamSecret := envelope },
    ⟨id.2, draft.2.1, Nat.le_add_left 1 previous, rfl, draft.2.2⟩⟩

/-- The draft of a record. -/
def draftOf (record : CatalogRecord v) : ValidDraft v :=
  ⟨record.1.toDatasourceDraft, record.2.draft, record.2.policy⟩

/-- The id of a record. -/
def idOf (record : CatalogRecord v) : { id : Name // validDatasourceId id = true } :=
  ⟨record.1.id, record.2.id⟩

/-- The next revision of a record under a new secret, with its last test kept. -/
def resealed (current : CatalogRecord v) (envelope : EncryptedSecret) : CatalogRecord v :=
  ⟨{ current.1 with revision := current.1.revision + 1, upstreamSecret := envelope },
    ⟨current.2.id, current.2.draft, Nat.le_add_left 1 _, current.2.lastTest, current.2.policy⟩⟩

/-- The records with one of them replaced by its next revision. -/
def replaceRecord (records : List (CatalogRecord v)) (updated : CatalogRecord v) :
    List (CatalogRecord v) :=
  records.map fun record => if record.1.id = updated.1.id then updated else record

/-! ### The operations, up to `_commit` -/

/-- `create`. -/
def CatalogStore.create (store : CatalogStore v) (draft : ValidDraft v) (upstreamSecret : Name)
    (expectedRevision : Option Int) (resolved : Except StoreError (List Name))
    (datasourceId : { id : Name // validDatasourceId id = true }) (nonce : Nonce) :
    Except StoreError (Change v) := do
  store.checkRevision expectedRevision
  refuseIf (∃ record ∈ store.records, record.1.alias_ = draft.1.alias_)
    ⟨.store, "alias ja existe"⟩
  let addresses ← resolved
  let envelope ← sealSecret crypto nonce upstreamSecret store.masterKey datasourceId.1 1
  let draft ← draft.withAddresses addresses
  let record := makeRecord draft datasourceId 0 envelope
  return { records := store.records ++ [record], expectedRevision := store.revision,
           answer := fun _ => .record record }

/-- `update`. -/
def CatalogStore.update (store : CatalogStore v) (datasourceId : Name) (draft : ValidDraft v)
    (expectedRevision : Int) (resolved : Except StoreError (List Name)) (nonce : Nonce) :
    Except StoreError (Change v) := do
  store.checkRevision (some expectedRevision)
  let current ← store.getRecord datasourceId
  refuseIf (∃ record ∈ store.records,
      record.1.alias_ = draft.1.alias_ ∧ record.1.id ≠ datasourceId)
    ⟨.store, "alias ja existe"⟩
  let addresses ← resolved
  let plaintext ← store.readUpstreamSecret crypto current
  let envelope ← sealSecret crypto nonce plaintext store.masterKey current.1.id
    (current.1.revision + 1)
  let draft ← draft.withAddresses addresses
  let updated := makeRecord draft (idOf current) current.1.revision envelope
  return { records := replaceRecord store.records updated, expectedRevision,
           answer := fun _ => .record updated }

/-- `rotate_secret`. -/
def CatalogStore.rotateSecret (store : CatalogStore v) (datasourceId upstreamSecret : Name)
    (expectedRevision : Int) (nonce : Nonce) : Except StoreError (Change v) := do
  store.checkRevision (some expectedRevision)
  let current ← store.getRecord datasourceId
  let envelope ← sealSecret crypto nonce upstreamSecret store.masterKey current.1.id
    (current.1.revision + 1)
  let updated := makeRecord (draftOf current) (idOf current) current.1.revision envelope
  return { records := replaceRecord store.records updated, expectedRevision,
           answer := fun _ => .record updated }

/-- One record of `rotate_master_key`: its secret is opened and sealed under the new key. -/
def CatalogStore.resealRecord (store : CatalogStore v) (newKey : Key) (nonce : Name → Nonce)
    (current : CatalogRecord v) : Except StoreError (CatalogRecord v) := do
  let plaintext ← store.readUpstreamSecret crypto current
  let envelope ← sealSecret crypto (nonce current.1.id) plaintext newKey current.1.id
    (current.1.revision + 1)
  return resealed current envelope

/-- `rotate_master_key`. -/
def CatalogStore.rotateMasterKey (store : CatalogStore v) (newMasterKey : KeyArg)
    (nonce : Name → Nonce) : Except StoreError (Change v) := do
  let newKey ← (validateMasterKey newMasterKey).mapError
    fun _ => ⟨.masterKey, "nova master key invalida"⟩
  let records ← store.records.mapM (store.resealRecord crypto newKey nonce)
  return { records, expectedRevision := store.revision, newKey := some newKey,
           answer := fun after => .snapshot after.revision after.records after.digest }

/-- `remove`. -/
def CatalogStore.remove (store : CatalogStore v) (datasourceId : Name) (expectedRevision : Int) :
    Except StoreError (Change v) := do
  store.checkRevision (some expectedRevision)
  let _ ← store.getRecord datasourceId
  return { records := store.records.filter fun record => record.1.id != datasourceId,
           expectedRevision }

/-- The change that an operation makes. -/
def Operation.change (store : CatalogStore v) : Operation v → Except StoreError (Change v)
  | .create draft upstreamSecret expectedRevision resolved datasourceId nonce =>
      store.create crypto draft upstreamSecret expectedRevision resolved datasourceId nonce
  | .update datasourceId draft expectedRevision resolved nonce =>
      store.update crypto datasourceId draft expectedRevision resolved nonce
  | .rotateSecret datasourceId upstreamSecret expectedRevision nonce =>
      store.rotateSecret crypto datasourceId upstreamSecret expectedRevision nonce
  | .rotateMasterKey newMasterKey nonce => store.rotateMasterKey crypto newMasterKey nonce
  | .remove datasourceId expectedRevision => store.remove datasourceId expectedRevision

/-! ### Committing a change -/

/-- The catalog that a change makes: what is written, and what memory holds after. -/
def Change.target (change : Change v) (store : CatalogStore v) : ParsedCatalog v :=
  { revision := store.revision + 1
    digest := crypto.digest (makePayload (store.revision + 1) change.records)
    records := sortRecords change.records }

/-- The key after a change. -/
def Change.key (change : Change v) (store : CatalogStore v) : Key :=
  change.newKey.getD store.masterKey

/-- The steps of `_commit`: the old store is read, then the transaction runs. -/
def Change.steps (change : Change v) (store : CatalogStore v) (oldData : Content) : List Step :=
  let newRevision := store.revision + 1
  let newDigest := crypto.digest (makePayload newRevision change.records)
  .readStore :: persistSteps
    (newJournal crypto store.revision (some store.digest) newRevision newDigest store.masterKey
      (change.key store))
    (serializeDocument crypto newRevision change.records (change.key store))
    ⟨newRevision, newDigest⟩ (some (oldData, store.revision))
    (change.key store != store.masterKey)

/-- `_commit`. A failure once it has begun leaves the object unusable. -/
def commit (change : Change v) (disk : Disk) (store : CatalogStore v) (faults : Faults) :
    Disk × CatalogStore v × Reply Unit :=
  if change.expectedRevision ≠ store.revision then
    (disk, store, .raised ⟨.revisionConflict, "revision do catalogo divergiu"⟩)
  else
    let poisoned := { store with poisoned := true }
    match disk.store with
    | none => (disk, poisoned, .raised ⟨.write, "store do catalogo ausente"⟩)
    | some oldData =>
        match runSteps (change.steps crypto store oldData) faults.outcomes false disk with
        | (disk, .raised attempted error) =>
            (disk, poisoned, .raised (persistError attempted error))
        | (disk, .stopped) => (disk, poisoned, .stopped)
        | (disk, .finished) =>
            let target := change.target crypto store
            (cleanupManaged faults disk,
              { store with records := target.records, revision := target.revision,
                           digest := target.digest },
              .returned ())

/-- A call of an operation. Only after `_commit` has returned does `rotate_master_key` take the
new key over. -/
def Operation.run (operation : Operation v) (disk : Disk) (store : CatalogStore v)
    (faults : Faults) : Disk × CatalogStore v × Reply (Answer v) :=
  match store.ensureOpen, operation.change crypto store with
  | .error error, _ => (disk, store, .raised error)
  | .ok _, .error error => (disk, store, .raised error)
  | .ok _, .ok change =>
      match commit crypto change disk store faults with
      | (disk, store, .raised error) => (disk, store, .raised error)
      | (disk, store, .stopped) => (disk, store, .stopped)
      | (disk, store, .returned _) =>
          let store := { store with masterKey := change.key store }
          (disk, store, .returned (change.answer store))

end Operations

end MaskGateway.Datasource
