import MaskGateway.Datasource.Catalog

/-!
# `MaskGateway.Datasource.Store`: the commit protocol and its recovery

The disk half of `datasource/store.py`. A transaction replaces three files one at a time:

    journal → backup of the old store → store → anchor → (backups of an old key) → no journal

`persistSteps` is that list, and `runSteps` runs it (or the shorter list of a recovery) under a
list of outcomes: each step is done, or the process raises or stops there, before or after the
effect of the step. A write is an atomic replacement; only a backup can be left torn, and only a
purge can be left half done.

`open` first plans a recovery from what is on disk (`planRecovery`), without writing, then runs
the plan, then reads the pair. `recover_master_key_rotation` does the same with two keys
(`determineRotation`).

Locks, permissions and the policy on paths are left out: a check that fails raises, and raising
is an outcome of any step.
-/

set_option autoImplicit false

namespace MaskGateway.Datasource

open Lib

/-! ### The disk -/

/-- The files of a catalog. A backup goes by the revision in its name. -/
structure Disk where
  journal : Option Content
  store : Option Content
  anchor : Option Content
  backups : List (Nat × Content)

/-- The primitives of the protocol. -/
inductive Step where
  | readStore
  | writeJournal (data : Content)
  | writeBackup (data : Content) (revision : Nat)
  | writeStore (data : Content)
  | writeAnchor (data : Content)
  | purgeBackups
  | removeJournal

/-- How far a step got that did not return. -/
inductive Extent where
  /-- Nothing happened. -/
  | before
  /-- A replacement was attempted and had no effect. -/
  | attempted
  /-- The effect took place. -/
  | after
  /-- A backup was left with these bytes. -/
  | torn (data : Content)
  /-- A purge left the backups of these revisions. -/
  | kept (revisions : List Nat)

/-- What a step raises: `CatalogWriteError`, or `FilesystemPolicyError` from a check on a path. -/
inductive StepError where
  | write (message : String)
  | policy (message : String)
  deriving DecidableEq

/-- The exception. -/
def StepError.toStoreError : StepError → StoreError
  | .write message => ⟨.write, message⟩
  | .policy message => ⟨.filesystem, message⟩

/-- What becomes of a step. -/
inductive Outcome where
  | done
  | raised (extent : Extent) (error : StepError)
  | stopped (extent : Extent)

/-- `_write_backup`: an existing backup is left alone. -/
def Disk.addBackup (disk : Disk) (revision : Nat) (data : Content) : Disk :=
  if disk.backups.any fun backup => backup.1 == revision then disk
  else { disk with backups := (revision, data) :: disk.backups }

/-- The effect of a step. -/
def Step.apply (disk : Disk) : Step → Disk
  | .readStore => disk
  | .writeJournal data => { disk with journal := some data }
  | .writeBackup data revision => disk.addBackup revision data
  | .writeStore data => { disk with store := some data }
  | .writeAnchor data => { disk with anchor := some data }
  | .purgeBackups => { disk with backups := [] }
  | .removeJournal => { disk with journal := none }

/-- What a step that did not return leaves. -/
def Step.interrupt (disk : Disk) (step : Step) : Extent → Disk
  | .before | .attempted => disk
  | .after => step.apply disk
  | .torn data =>
      match step with
      | .writeBackup _ revision => disk.addBackup revision data
      | _ => disk
  | .kept revisions =>
      match step with
      | .purgeBackups =>
          { disk with backups := disk.backups.filter fun b => revisions.contains b.1 }
      | _ => disk

/-- Whether the step replaces the store file. -/
def Step.isStoreWrite : Step → Bool
  | .writeStore _ => true
  | _ => false

/-- Whether the replacement had been attempted. -/
def Extent.reachedReplace : Extent → Bool
  | .attempted | .after => true
  | _ => false

/-- How a list of steps ended. -/
inductive Ending where
  | finished
  | raised (replaceAttempted : Bool) (error : StoreError)
  | stopped

/-- Run steps under a list of outcomes; past its end every step is done. `attempted` is the flag
`replace_attempted`, set just before the store is replaced. -/
def runSteps : List Step → List Outcome → Bool → Disk → Disk × Ending
  | [], _, _, disk => (disk, .finished)
  | step :: rest, outcomes, attempted, disk =>
      match outcomes.headD .done with
      | .done =>
          runSteps rest outcomes.tail (attempted || step.isStoreWrite) (step.apply disk)
      | .raised extent error =>
          (step.interrupt disk extent,
            .raised (attempted || (step.isStoreWrite && extent.reachedReplace))
              error.toStoreError)
      | .stopped extent => (step.interrupt disk extent, .stopped)

/-- What an environment does to one call: the outcomes of its steps, and the old backups that the
silent cleanup does not manage to remove. -/
structure Faults where
  outcomes : List Outcome := []
  unremoved : List Nat := []

/-- `_cleanup_managed`: all but the three newest backups go, unless removing one fails. -/
def cleanupManaged (faults : Faults) (disk : Disk) : Disk :=
  { disk with
    backups := disk.backups.filter fun backup =>
      decide ((disk.backups.filter fun other => decide (backup.1 < other.1)).length < 3) ||
        faults.unremoved.contains backup.1 }

/-- The steps of `_persist_transaction`. -/
def persistSteps (journal : Journal) (data : Content) (newAnchor : Anchor)
    (backup : Option (Content × Nat)) (purgeBackups : Bool) : List Step :=
  Step.writeJournal (journalContent journal) ::
    (backup.toList.map fun b => Step.writeBackup b.1 b.2) ++
    [Step.writeStore data, Step.writeAnchor (anchorContent newAnchor)] ++
    (if purgeBackups then [Step.purgeBackups] else []) ++ [Step.removeJournal]

/-- The error that `_persist_transaction` raises: the original one before the store replacement
was attempted, a fixed one from then on. -/
def persistError (replaceAttempted : Bool) (error : StoreError) : StoreError :=
  if replaceAttempted then
    ⟨.outcomeUncertain, "resultado da persistencia incerto; reabra ou recupere explicitamente"⟩
  else error

/-! ### Calls -/

/-- What a call gives: a value, an exception, or nothing because the process stopped. -/
inductive Reply (α : Type) where
  | returned (value : α)
  | raised (error : StoreError)
  | stopped

section Catalog

variable (v : Validators) (crypto : Crypto)

/-- An open `CatalogStore`. -/
structure CatalogStore where
  masterKey : Key
  revision : Nat
  digest : Name
  records : List (CatalogRecord v)
  closed : Bool := false
  poisoned : Bool := false

variable {v}

/-- The object made from a catalog that was read. -/
def CatalogStore.ofParsed (key : Key) (parsed : ParsedCatalog v) : CatalogStore v :=
  { masterKey := key, revision := parsed.revision, digest := parsed.digest,
    records := parsed.records }

variable (v)

/-- `_read_pair`. -/
def readPair (disk : Disk) (key : Key) : Except StoreError (ParsedCatalog v) :=
  match disk.store, disk.anchor with
  | some storeData, some anchorData => do
      let parsed ← parseCatalog v crypto storeData key
      let anchor ← parseAnchor anchorData
      refuseIf (parsed.state ≠ anchor.state) ⟨.anchor, "store e ancora divergentes"⟩
      return parsed
  | _, _ => .error ⟨.anchor, "store e ancora devem existir"⟩

/-! ### Planning a recovery -/

/-- `_RecoveryPlan`: what a recovery writes before it removes the journal. -/
structure RecoveryPlan where
  advanceAnchor : Option Anchor
  purgeBackups : Bool := false
  deriving DecidableEq

/-- The steps of `_apply_recovery`. -/
def RecoveryPlan.steps (plan : RecoveryPlan) : List Step :=
  (plan.advanceAnchor.toList.map fun anchor => Step.writeAnchor (anchorContent anchor)) ++
    (if plan.purgeBackups then [Step.purgeBackups] else []) ++ [Step.removeJournal]

/-- `_optional_anchor_state`. -/
def optionalAnchorState : Option Content → Except StoreError (Option State)
  | none => .ok none
  | some data => (parseAnchor data).map fun anchor => some anchor.state

/-- `_authenticated_or_none`: a key that does not authenticate gives nothing, any other failure
is one. -/
def authenticatedOrNone (data : Content) (key : Key) :
    Except StoreError (Option (ParsedCatalog v)) :=
  match parseCatalog v crypto data key with
  | .ok parsed => .ok (some parsed)
  | .error error => if error.kind = .key then .ok none else .error error

/-- The store as one key authenticates it; a store that is absent is authenticated by none. -/
def authenticatedStore (store : Option Content) (key : Key) :
    Except StoreError (Option (ParsedCatalog v)) :=
  match store with
  | none => .ok none
  | some data => authenticatedOrNone v crypto data key

/-- `_plan_rotation_with_single_key`. -/
def planRotationWithSingleKey (store : Option Content) (anchorState : Option State) (key : Key)
    (journal : Journal) (asOld asNew : Bool) : Except StoreError RecoveryPlan := do
  let parsed ← authenticatedStore v crypto store key
  let pending : StoreError := ⟨.rotationPending,
    "rotacao de master key pendente; determine o resultado com as chaves antiga e nova"⟩
  match parsed, journal.oldState with
  | some parsed, some oldState =>
      if asOld ∧ parsed.state = oldState ∧ anchorState = some oldState then
        return { advanceAnchor := none }
      else if asNew ∧ parsed.state = journal.newState ∧ anchorState = some journal.newState then
        return { advanceAnchor := none, purgeBackups := true }
      else throw pending
  | _, _ => throw pending

/-- The state of the store, none when there is none. -/
def optionalStoreState (store : Option Content) (key : Key) :
    Except StoreError (Option State) :=
  match store with
  | none => .ok none
  | some data => (parseCatalog v crypto data key).map fun parsed => some parsed.state

/-- The table of `_plan_recovery`: what to write for a pair (store, anchor), if it is allowed. -/
def allowedTransition (journal : Journal) (storeState anchorState : Option State) :
    Option (Option Anchor) :=
  if storeState = journal.oldState ∧ anchorState = journal.oldState then some none
  else if storeState = some journal.newState ∧ anchorState = journal.oldState then
    some (some (Anchor.ofState journal.newState))
  else if storeState = some journal.newState ∧ anchorState = some journal.newState then some none
  else none

/-- `_plan_recovery`. -/
def planRecovery (disk : Disk) (key : Key) : Except StoreError (Option RecoveryPlan) :=
  match disk.journal with
  | none => .ok none
  | some data => do
      let (journal, asOld, asNew) ← parseJournal crypto data key
      let anchorState ← optionalAnchorState disk.anchor
      if journal.isRotation then
        let plan ← planRotationWithSingleKey v crypto disk.store anchorState key journal asOld asNew
        return some plan
      else
        let storeState ← optionalStoreState v crypto disk.store key
        match allowedTransition journal storeState anchorState with
        | some advanceAnchor => return some { advanceAnchor }
        | none => throw ⟨.anchor, "journal e arquivos do catalogo incoerentes"⟩

/-- Run the steps of a plan, if there is one. -/
def applyRecovery (plan : Option RecoveryPlan) (faults : Faults) (disk : Disk) :
    Disk × Ending :=
  match plan with
  | none => (disk, .finished)
  | some plan => runSteps plan.steps faults.outcomes false disk

/-- `CatalogStore.open`. -/
def openStore (disk : Disk) (key : Key) (faults : Faults) : Disk × Reply (CatalogStore v) :=
  match planRecovery v crypto disk key with
  | .error error => (disk, .raised error)
  | .ok plan =>
      match applyRecovery plan faults disk with
      | (disk, .raised _ error) => (disk, .raised error)
      | (disk, .stopped) => (disk, .stopped)
      | (disk, .finished) =>
          match readPair v crypto disk key with
          | .error error => (disk, .raised error)
          | .ok parsed =>
              (cleanupManaged faults disk, .returned (CatalogStore.ofParsed key parsed))

/-- The steps of the first transaction. -/
def initializeSteps (key : Key) : List Step :=
  let records : List (CatalogRecord v) := []
  let digest := crypto.digest (makePayload 1 records)
  persistSteps (newJournal crypto 0 none 1 digest key key)
    (serializeDocument crypto 1 records key) ⟨1, digest⟩ none false

/-- `CatalogStore.initialize`. -/
def initializeStore (disk : Disk) (key : Key) (faults : Faults) : Disk × Reply (CatalogStore v) :=
  if disk.store.isSome || disk.anchor.isSome then
    (disk, .raised ⟨.alreadyExists, "catalogo ja existe"⟩)
  else
    match runSteps (initializeSteps v crypto key) faults.outcomes false disk with
    | (disk, .raised attempted error) => (disk, .raised (persistError attempted error))
    | (disk, .stopped) => (disk, .stopped)
    | (disk, .finished) =>
        (disk, .returned (CatalogStore.ofParsed key
          ⟨1, crypto.digest (makePayload (v := v) 1 []), []⟩))

/-! ### Recovering a rotation with both keys -/

/-- Which of the two keys is the confirmed one. -/
inductive KeyRole where
  | old
  | new
  deriving DecidableEq

/-- `MasterKeyRotationStatus`. -/
structure RotationStatus where
  confirmedKey : KeyRole
  catalogRevision : Nat
  journalPending : Bool
  deriving DecidableEq

/-- `_RotationDetermination`. -/
structure RotationDetermination where
  status : RotationStatus
  confirmed : ParsedCatalog v
  confirmedKey : Key
  plan : Option RecoveryPlan

variable {v}

/-- `_verify_secrets`. -/
def verifySecrets (parsed : ParsedCatalog v) (key : Key) : Except StoreError Unit :=
  forM parsed.records fun record =>
    match openSecret crypto record.1.upstreamSecret key record.1.id record.1.revision with
    | .ok _ => .ok ()
    | .error _ => .error ⟨.key, "segredo indisponivel"⟩

variable (v)

/-- The key that authenticates the store, the old one first. -/
def authenticatedBy (byOld byNew : Option (ParsedCatalog v)) (oldKey newKey : Key) :
    Except StoreError (KeyRole × ParsedCatalog v × Key) :=
  match byOld, byNew with
  | some parsed, _ => .ok (.old, parsed, oldKey)
  | none, some parsed => .ok (.new, parsed, newKey)
  | none, none => .error ⟨.key, "nenhuma das chaves autentica o catalogo"⟩

/-- `_determine_without_journal`. -/
def determineWithoutJournal (anchorState : State) (byOld byNew : Option (ParsedCatalog v))
    (oldKey newKey : Key) : Except StoreError (RotationDetermination v) := do
  let (role, confirmed, key) ← authenticatedBy v byOld byNew oldKey newKey
  refuseIf (confirmed.state ≠ anchorState) ⟨.anchor, "store e ancora divergentes"⟩
  verifySecrets crypto confirmed key
  return ⟨⟨role, confirmed.revision, false⟩, confirmed, key, none⟩

/-- The error of a journal that does not fit the files. -/
def incoherent : StoreError := ⟨.anchor, "journal e arquivos do catalogo incoerentes"⟩

/-- The state of the journal that the store represents, with the key that authenticates it. -/
def confirmedBy (oldState newState : State) (byOld byNew : Option (ParsedCatalog v))
    (oldKey newKey : Key) : Except StoreError (KeyRole × ParsedCatalog v × Key) :=
  match byOld.filter fun parsed => parsed.state == oldState with
  | some parsed => .ok (.old, parsed, oldKey)
  | none =>
      match byNew.filter fun parsed => parsed.state == newState with
      | some parsed => .ok (.new, parsed, newKey)
      | none => .error incoherent

/-- The table of `_determine_rotation`: an old store with a new anchor is never accepted. -/
def rotationTransition (oldState newState : State) (role : KeyRole) (anchorState : State) :
    Except StoreError (Option Anchor) :=
  match role with
  | .old => if anchorState = oldState then .ok none else .error incoherent
  | .new =>
      if anchorState = oldState then .ok (some (Anchor.ofState newState))
      else if anchorState = newState then .ok none
      else .error incoherent

/-- `_determine_rotation`. -/
def determineRotation (disk : Disk) (oldKey newKey : Key) :
    Except StoreError (RotationDetermination v) :=
  match disk.store, disk.anchor with
  | some storeData, some anchorData => do
      let anchor ← parseAnchor anchorData
      let byOld ← authenticatedOrNone v crypto storeData oldKey
      let byNew ← authenticatedOrNone v crypto storeData newKey
      refuseIf (byOld.isSome ∧ byNew.isSome) ⟨.anchor, "catalogo autenticado por duas chaves"⟩
      match disk.journal with
      | none => determineWithoutJournal v crypto anchor.state byOld byNew oldKey newKey
      | some journalData =>
          let journal ← parseJournalDocument journalData
          let oldRoles := journalRoles crypto journal oldKey
          let newRoles := journalRoles crypto journal newKey
          refuseIf (journal.isRotation = false ∧
              (oldRoles.1 ∨ oldRoles.2 ∨ newRoles.1 ∨ newRoles.2))
            ⟨.anchor, "journal pendente nao pertence a uma rotacao"⟩
          refuseIf (journal.isRotation = false) ⟨.key, "journal nao autenticado"⟩
          refuseIf (¬ (oldRoles.1 ∧ newRoles.2)) ⟨.key, "journal nao autenticado pelas duas chaves"⟩
          match journal.oldState with
          | none => throw incoherent
          | some oldState =>
              let (role, confirmed, key) ←
                confirmedBy v oldState journal.newState byOld byNew oldKey newKey
              let advanceAnchor ←
                rotationTransition oldState journal.newState role anchor.state
              verifySecrets crypto confirmed key
              return ⟨⟨role, confirmed.revision, true⟩, confirmed, key,
                some { advanceAnchor, purgeBackups := role == .new }⟩
  | _, _ => .error ⟨.anchor, "store e ancora devem existir"⟩

/-- `CatalogStore._rotation_recovery`, for `inspect_master_key_rotation` (`apply` false) and
`recover_master_key_rotation` (`apply` true). -/
def rotationRecovery (apply : Bool) (disk : Disk) (oldKey newKey : Key) (faults : Faults) :
    Disk × Reply RotationStatus :=
  if oldKey = newKey then
    (disk, .raised ⟨.masterKey, "chaves de rotacao devem ser distintas"⟩)
  else
    match determineRotation v crypto disk oldKey newKey with
    | .error error => (disk, .raised error)
    | .ok determination =>
        if apply = false ∨ determination.plan = none then
          (disk, .returned determination.status)
        else
          match applyRecovery determination.plan faults disk with
          | (disk, .raised _ error) => (disk, .raised error)
          | (disk, .stopped) => (disk, .stopped)
          | (disk, .finished) =>
              match readPair v crypto disk determination.confirmedKey with
              | .error error => (disk, .raised error)
              | .ok confirmed =>
                  if confirmed.state ≠ determination.confirmed.state then
                    (disk, .raised ⟨.anchor, "store e ancora divergentes"⟩)
                  else
                    (cleanupManaged faults disk,
                      .returned ⟨determination.status.confirmedKey, confirmed.revision, false⟩)

/-- `inspect_master_key_rotation`. -/
def inspectMasterKeyRotation (disk : Disk) (oldKey newKey : Key) : Disk × Reply RotationStatus :=
  rotationRecovery v crypto false disk oldKey newKey {}

/-- `recover_master_key_rotation`. -/
def recoverMasterKeyRotation (disk : Disk) (oldKey newKey : Key) (faults : Faults) :
    Disk × Reply RotationStatus :=
  rotationRecovery v crypto true disk oldKey newKey faults

end Catalog

end MaskGateway.Datasource
