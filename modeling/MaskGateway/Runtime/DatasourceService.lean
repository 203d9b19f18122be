import MaskGateway.Lib.Effect
import MaskGateway.Lib.Machine
import MaskGateway.Runtime.Candidate

/-!
# `MaskGateway.Runtime.DatasourceService`: catalog, registry and view together

`DatasourceRuntimeService` (`runtime/datasource_service.py`). A write runs under one lock: it checks
the revision, reserves a place in the registry, builds a candidate, persists, and publishes or
withdraws. `_transition` wraps it, and decides at the end whether the view is kept, made again, or
taken away together with the right to write (`_block`).

    create, update, set_enabled, rotate_secret, remove:   `Request.locked`, inside `transition`
    test_draft, test_datasource:                          no lock, no transition

A call is a program over the state of the service that can raise. `Failure.stopped` is the death of
the process in the middle of a transaction. The probe of a call only copies revisions and is left
out. `open_datasource_runtime` makes the first state of a service, and `step` is one call of a run.
-/

set_option autoImplicit false

namespace MaskGateway.Runtime.DatasourceService

open Lib
open MaskGateway.Datasource MaskGateway.Runtime.Datasources MaskGateway.Runtime.Candidate

/-! ### Errors -/

/-- The exceptions that a call raises. -/
inductive ServiceError where
  /-- `DatasourceServiceClosedError` -/
  | closed
  /-- `DatasourceServiceBlockedError` -/
  | blocked
  /-- `DatasourceRenameError` -/
  | rename
  /-- `DatasourceNotFoundError` -/
  | notFound
  /-- `DatasourceAliasConflictError` -/
  | aliasConflict
  /-- `DatasourceRevisionConflictError` -/
  | revisionConflict (current : Nat)
  /-- `DatasourceDisabledError` -/
  | disabled
  /-- `DatasourceViewSealError` -/
  | viewSeal
  /-- the `ValueError` of `_guard` -/
  | revisions
  | candidate (error : CandidateError)
  | registry (error : DatasourceError)
  | store (error : StoreError)
  /-- what a function of the caller raises -/
  | caller
  deriving DecidableEq

/-- The texts of the service's own errors. -/
def ServiceError.message : ServiceError → Option String
  | .closed => some "operacao de datasource indisponivel"
  | .blocked => some "operacao de datasource requer reinicio apos falha de persistencia"
  | .rename => some "alias de datasource nao pode ser alterado"
  | .notFound => some "datasource nao encontrado"
  | .aliasConflict => some "alias ja existe"
  | .revisionConflict _ => some "revision divergiu"
  | .disabled => some "datasource desabilitado"
  | .viewSeal => some "leitura selada do catalogo indisponivel"
  | .revisions => some "informe exatamente uma revision esperada"
  | .registry error => some error.message
  | .store error => some error.message
  | .candidate (.failed category) => some category.message
  | .candidate (.escaped error) => some error.message
  | .caller => none

/-- `CatalogOutcomeUncertainError`, with its subclass. -/
def ServiceError.uncertain : ServiceError → Bool
  | .store error => error.kind == .outcomeUncertain
  | .viewSeal => true
  | _ => false

/-- How a call can fail. -/
inductive Failure where
  | raised (error : ServiceError)
  /-- the process is dead -/
  | stopped
  deriving DecidableEq

/-- `except CatalogOutcomeUncertainError`. -/
def Failure.uncertain : Failure → Bool
  | .raised error => error.uncertain
  | .stopped => false

/-! ### The state -/

/-- The stages of a write. -/
inductive Stage where
  | none
  | persisting
  | persisted
  deriving DecidableEq

/-- `PublishedIdentity`. -/
structure PublishedIdentity where
  alias_ : Name
  datasourceId : Name
  generation : Nat
  recordRevision : Nat
  deriving DecidableEq

section

variable (v : Validators) (crypto : Crypto)

/-- `CatalogView`. -/
structure CatalogView where
  catalogRevision : Nat
  datasources : List (CatalogRecord v)
  digest : Name
  published : List PublishedIdentity

/-- `DatasourceRuntimeService`, with the store, its files and the registry. -/
structure Service where
  disk : Disk
  store : CatalogStore v
  registry : DatasourceRegistry
  stage : Stage := .none
  closed : Bool := false
  blocked : Bool := false
  withdrawn : Bool := false
  view : Option (CatalogView v) := none

/-- A program of the service. -/
abbrev Call (α : Type) := EStateM Failure (Service v) α

/-- `expected_revision` and `expected_datasource_revision`. -/
structure Expected where
  revision : Option Int := none
  datasourceRevision : Option Int := none

/-- `DraftSource`. -/
inductive DraftSource where
  | draft (draft : ValidDraft v)
  /-- A function of the current record; `none` where it raises. -/
  | derive (f : CatalogRecord v → Option (ValidDraft v))

/-- The calls, with their arguments. -/
inductive Request where
  | create (draft : ValidDraft v) (secret : Name) (expectedRevision : Int)
  | update (datasourceId : Name) (draft : DraftSource v) (expected : Expected)
  | setEnabled (datasourceId : Name) (enabled : Bool) (expected : Expected)
  | rotateSecret (datasourceId secret : Name) (expected : Expected)
  | remove (datasourceId : Name) (expected : Expected) (confirm : CatalogRecord v → Bool)
  | testDraft (draft : ValidDraft v) (secret : Name)
  | testDatasource (datasourceId : Name)

variable {v}

/-! ### The view -/

/-- The published part of `DatasourceRegistry.status`. -/
def statusPublished (reg : DatasourceRegistry) : List PublishedIdentity :=
  (reg.published.insertionSort fun a b => a.1 ≤ b.1).map fun entry =>
    { alias_ := entry.2.alias_, datasourceId := entry.2.datasourceId
      generation := entry.2.generation, recordRevision := entry.2.recordRevision }

/-- What a store and a registry show. -/
def viewOf (store : CatalogStore v) (reg : DatasourceRegistry) : CatalogView v :=
  { catalogRevision := store.revision, datasources := store.records, digest := store.digest
    published := statusPublished reg }

/-- `_seal`. -/
def Service.seal (s : Service v) : Except StoreError (CatalogView v) := do
  s.store.ensureOpen
  return viewOf s.store s.registry

/-- `_block`. -/
def Service.block (s : Service v) : Service v :=
  { s with blocked := true, withdrawn := true, view := none }

/-! ### Checks -/

/-- An exception of the store, as the caller sees it. -/
def fromStore {α : Type} (result : Except StoreError α) : Except Failure α :=
  result.mapError fun error => .raised (.store error)

/-- `_ensure_open`. -/
def ensureOpen (allowBlocked : Bool) (s : Service v) : Except Failure Unit := do
  refuseIf (s.closed = true) (.raised .closed)
  refuseIf (s.blocked = true ∧ allowBlocked = false) (.raised .blocked)

/-- `store.snapshot().datasources`. -/
def snapshot (s : Service v) : Except Failure (List (CatalogRecord v)) := do
  fromStore s.store.ensureOpen
  return s.store.records

/-- `store.revision`. -/
def storeRevision (s : Service v) : Except Failure Nat := do
  fromStore s.store.ensureOpen
  return s.store.revision

/-- `_check_revision`. -/
def checkRevision (expectedRevision : Int) (s : Service v) : Except Failure Unit := do
  let current ← storeRevision s
  refuseIf (expectedRevision ≠ current) (.raised (.revisionConflict current))

/-- `_get`. -/
def get (datasourceId : Name) (s : Service v) : Except Failure (CatalogRecord v) := do
  let records ← snapshot s
  match records.find? fun record => record.1.id == datasourceId with
  | some record => return record
  | none => throw (.raised .notFound)

/-- `_guard`. -/
def guard (datasourceId : Name) (expected : Expected) (s : Service v) : Except Failure Int :=
  match expected.revision, expected.datasourceRevision with
  | some expectedRevision, none => do
      checkRevision expectedRevision s
      return expectedRevision
  | none, some datasourceRevision => do
      let current ← get datasourceId s
      refuseIf (current.1.revision ≠ datasourceRevision)
        (.raised (.revisionConflict current.1.revision))
      return (← storeRevision s)
  | _, _ => throw (.raised .revisions)

/-- The alias is free. -/
def aliasFree (alias_ : Name) (s : Service v) : Except Failure Unit := do
  let records ← snapshot s
  refuseIf (∃ record ∈ records, record.1.alias_ = alias_) (.raised .aliasConflict)

/-- `store.read_upstream_secret`. -/
def readSecret (datasourceId : Name) (s : Service v) : Except Failure Name :=
  fromStore (s.store.readUpstreamSecretOf crypto datasourceId)

/-- `_build`. -/
def build (env : Surroundings) (spec : CandidateSpec) (_ : Service v) : Except Failure Candidate :=
  (buildCandidate v env spec).mapError fun error => .raised (.candidate error)

/-- `verify_policy`, as the caller sees it. -/
def checkPolicy (env : Surroundings) (draft : DatasourceDraft) (_ : Service v) :
    Except Failure Unit :=
  (verifyPolicy env draft.policy draft.limits).mapError fun error => .raised (.candidate error)

/-- `replace(draft, resolved_addresses=...)`. -/
def pin (draft : ValidDraft v) (addresses : List Name) (_ : Service v) :
    Except Failure (ValidDraft v) :=
  fromStore (draft.withAddresses addresses)

/-! ### The registry -/

/-- `registry.reserve`. -/
def take (env : Surroundings) (key : Name) (datasourceId : Option Name) (publish : Bool) :
    Call v ReservationId := fun s =>
  match env.reserveFails, reserve s.registry key datasourceId publish with
  | some error, _ => .error (.raised (.registry error)) s
  | none, .error error => .error (.raised (.registry error)) s
  | none, .ok (id, reg) => .ok id { s with registry := reg }

/-- The end of a reservation. -/
def giveBack (id : ReservationId) (s : Service v) : Service v :=
  match s.registry.reservations[id]? with
  | none => s
  | some reservation => { s with registry := releaseReservation s.registry id reservation }

/-- `with self._registry.reserve(...) as reservation`. -/
def reserving {α : Type} (env : Surroundings) (key : Name) (datasourceId : Option Name)
    (publish : Bool) (body : ReservationId → Call v α) : Call v α := do
  let id ← take env key datasourceId publish
  ensuring (body id) (giveBack id)

/-- The `_dispose` that follows a section of the registry. -/
def disposeOf (reg : DatasourceRegistry) : Option Generation → DatasourceRegistry
  | none => reg
  | some g => dispose reg g

/-- `reservation.publish`, for a record. -/
def publishRecord (env : Surroundings) (id : ReservationId) (prepared : PreparedRuntime)
    (record : CatalogRecord v) : Call v Unit := fun s =>
  match env.publishFails, s.registry.reservations[id]? with
  | some error, _ => .error (.raised (.registry error)) s
  | none, none => .error (.raised (.registry .notEntitled)) s
  | none, some reservation =>
      if reservation.publish = false ∨ reservation.released = true then
        .error (.raised (.registry .notEntitled)) s
      else
        match publish s.registry id reservation record.1.id record.1.alias_ record.1.revision
            prepared with
        | .error error => .error (.raised (.registry error)) s
        | .ok (_, toClose, reg) => .ok () { s with registry := disposeOf reg toClose }

/-- `reservation.publish`, for what the store returned. -/
def publishAnswer (env : Surroundings) (id : ReservationId) (prepared : PreparedRuntime) :
    Answer v → Call v Unit
  | .record record => publishRecord env id prepared record
  | _ => pure ()

/-- `registry.withdraw`. -/
def withdrawing (env : Surroundings) (datasourceId : Name) : Call v Unit := fun s =>
  match env.withdrawFails with
  | some error => .error (.raised (.registry error)) s
  | none =>
      let (_, toClose, reg) := withdraw s.registry datasourceId
      .ok () { s with registry := disposeOf reg toClose }

/-! ### Persisting -/

/-- `_persist`. -/
def persist (env : Surroundings) (operation : Operation v) : Call v (Answer v) := fun s =>
  match operation.run crypto s.disk s.store env.faults with
  | (disk, store, .returned answer) => .ok answer { s with disk, store, stage := .persisted }
  | (disk, store, .stopped) => .error .stopped { s with disk, store, stage := .persisting }
  | (disk, store, .raised error) =>
      let s' := { s with disk, store, stage := .persisting }
      .error (.raised (.store error)) (if store.poisoned then s'.block else s')

/-- `_persist_withdrawal`. -/
def persistWithdrawal (env : Surroundings) (datasourceId : Name) (operation : Operation v) :
    Call v (Answer v) := do
  let answer ← tryCatch (persist crypto env operation) fun failure => do
    if failure.uncertain then withdrawing env datasourceId
    throw failure
  withdrawing env datasourceId
  return answer

/-- `_transition`. -/
def transition {α : Type} (env : Surroundings) (body : Call v α) : Call v α := fun s =>
  match body { s with stage := .none } with
  | .error .stopped s' => .error .stopped s'
  | .error (.raised error) s' =>
      let s'' := { s' with stage := .none }
      .error (.raised error)
        (if s'.stage = .persisted ∨ (s'.stage = .persisting ∧ s'.store.poisoned = true) then
          s''.block
        else s'')
  | .ok answer s' =>
      let s'' := { s' with stage := .none }
      if s'.stage = .none then .ok answer s''
      else
        match s''.seal, env.sealFails with
        | .ok view, false =>
            if s''.withdrawn then .error (.raised .viewSeal) s''
            else .ok answer { s'' with view := some view }
        | _, _ => .error (.raised .viewSeal) s''.block

/-! ### The calls -/

/-- What `resolve_destination` gives the store for a draft. -/
def resolvedFor (env : Surroundings) (resolver : Name → Nat → Except StoreError (List Name))
    (draft : ValidDraft v) : Except StoreError (List Name) :=
  resolveDestination v env.net draft.1.host draft.1.port draft.1.destinationPolicy resolver
    (pinned draft.1.resolvedAddresses)

/-- `_new_key`. -/
def newKey (alias_ : Name) : Name := "alias:".toList ++ alias_

/-- `create`, inside the transition. -/
def Service.create (env : Surroundings) (draft : ValidDraft v) (secret : Name) (expectedRevision : Int) :
    Call v (Answer v) := do
  reading (ensureOpen false)
  reading (checkRevision expectedRevision)
  reading (aliasFree draft.1.alias_)
  if draft.1.enabled then
    reserving env (newKey draft.1.alias_) none true fun reservation => do
      let candidate ← reading (build env (.fromDraft draft.1 secret))
      let pinned ← reading (pin draft candidate.addresses)
      let answer ← persist crypto env (.create pinned secret (some expectedRevision)
        (resolvedFor env env.resolver pinned) env.datasourceId env.nonce)
      publishAnswer env reservation candidate.prepared answer
      return answer
  else
    reading (checkPolicy env draft.1)
    persist crypto env (.create draft secret (some expectedRevision)
      (resolvedFor env env.resolver draft) env.datasourceId env.nonce)

/-- `_update_locked`. A draft that disables keeps to the stored addresses where the destination is
the same: it must not depend on the resolver. -/
def Service.updateLocked (env : Surroundings) (datasourceId : Name) (draft : ValidDraft v)
    (expectedRevision : Int) : Call v (Answer v) := do
  let current ← reading (get datasourceId)
  reading fun _ => refuseIf (draft.1.alias_ ≠ current.1.alias_) (.raised .rename)
  if draft.1.enabled then
    let secret ← reading (readSecret crypto datasourceId)
    reserving env datasourceId (some datasourceId) true fun reservation => do
      let candidate ← reading (build env (.fromDraft draft.1 secret))
      let pinned ← reading (pin draft candidate.addresses)
      let answer ← persist crypto env (.update datasourceId pinned expectedRevision
        (resolvedFor env env.resolver pinned) env.nonce)
      publishAnswer env reservation candidate.prepared answer
      return answer
  else
    reading fun s =>
      if (Json.obj draft.1.policy).same (.obj current.1.policy) then .ok ()
      else checkPolicy env draft.1 s
    let resolver := if (draft.1.host, draft.1.port) = (current.1.host, current.1.port) then
      fun _ _ => .ok current.1.resolvedAddresses else env.resolver
    persistWithdrawal crypto env datasourceId (.update datasourceId draft expectedRevision
      (resolvedFor env resolver draft) env.nonce)

/-- The draft that `update` writes. -/
def DraftSource.resolve (datasourceId : Name) (s : Service v) :
    DraftSource v → Except Failure (ValidDraft v)
  | .draft given => .ok given
  | .derive f => do
      let current ← get datasourceId s
      match f current with
      | some derived => return derived
      | none => throw (.raised .caller)

/-- `update`, inside the transition. -/
def Service.update (env : Surroundings) (datasourceId : Name) (draft : DraftSource v)
    (expected : Expected) : Call v (Answer v) := do
  reading (ensureOpen false)
  let catalogRevision ← reading (guard datasourceId expected)
  let resolved ← reading fun s => draft.resolve datasourceId s
  Service.updateLocked crypto env datasourceId resolved catalogRevision

/-- `draft_from_record`. -/
def draftFromRecord (record : CatalogRecord v) (enabled : Bool) : ValidDraft v :=
  ⟨{ record.1.toDatasourceDraft with enabled := enabled }, record.2.draft, record.2.policy⟩

/-- `set_enabled`, inside the transition. A state that is there already is not written. -/
def Service.setEnabled (env : Surroundings) (datasourceId : Name) (enabled : Bool) (expected : Expected) :
    Call v (Answer v) := do
  reading (ensureOpen false)
  let catalogRevision ← reading (guard datasourceId expected)
  let current ← reading (get datasourceId)
  if current.1.enabled = enabled then return .record current
  else Service.updateLocked crypto env datasourceId (draftFromRecord current enabled) catalogRevision

/-- `rotate_secret`, inside the transition. -/
def Service.rotateSecret (env : Surroundings) (datasourceId secret : Name) (expected : Expected) :
    Call v (Answer v) := do
  reading (ensureOpen false)
  let catalogRevision ← reading (guard datasourceId expected)
  let current ← reading (get datasourceId)
  if current.1.enabled then
    reserving env datasourceId (some datasourceId) true fun reservation => do
      let candidate ← reading (build env (.fromRecord current.1 secret))
      let answer ← persist crypto env (.rotateSecret datasourceId secret catalogRevision env.nonce)
      publishAnswer env reservation candidate.prepared answer
      return answer
  else persist crypto env (.rotateSecret datasourceId secret catalogRevision env.nonce)

/-- `remove`, inside the transition. -/
def Service.remove (env : Surroundings) (datasourceId : Name) (expected : Expected)
    (confirm : CatalogRecord v → Bool) : Call v (Answer v) := do
  reading (ensureOpen false)
  let catalogRevision ← reading (guard datasourceId expected)
  let current ← reading (get datasourceId)
  -- `confirm` refuses by raising
  reading fun _ => refuseIf (confirm current = false) (.raised .caller)
  persistWithdrawal crypto env datasourceId (.remove datasourceId catalogRevision)

/-- `test_draft`. -/
def Service.testDraft (env : Surroundings) (draft : ValidDraft v) (secret : Name) : Call v (Answer v) := do
  reading (ensureOpen true)
  reserving env (newKey draft.1.alias_) none false fun _ => do
    let _ ← reading (build env (.fromDraft draft.1 secret))
    return .nothing

/-- The record that `test_datasource` is about. -/
def testRecord (datasourceId : Name) (s : Service v) : Except Failure (CatalogRecord v) := do
  ensureOpen true s
  let record ← get datasourceId s
  refuseIf (record.1.enabled = false) (.raised .disabled)
  return record

/-- `test_datasource`. -/
def Service.testDatasource (env : Surroundings) (datasourceId : Name) : Call v (Answer v) := do
  let record ← reading (testRecord datasourceId)
  let secret ← reading (readSecret crypto datasourceId)
  reserving env datasourceId none false fun _ => do
    let _ ← reading (build env (.fromRecord record.1 secret))
    return .nothing

/-- What a write does inside the transition; a test has none. -/
def Request.locked (env : Surroundings) : Request v → Option (Call v (Answer v))
  | .create draft secret expectedRevision => some (Service.create crypto env draft secret expectedRevision)
  | .update datasourceId draft expected => some (Service.update crypto env datasourceId draft expected)
  | .setEnabled datasourceId enabled expected =>
      some (Service.setEnabled crypto env datasourceId enabled expected)
  | .rotateSecret datasourceId secret expected =>
      some (Service.rotateSecret crypto env datasourceId secret expected)
  | .remove datasourceId expected confirm => some (Service.remove crypto env datasourceId expected confirm)
  | .testDraft .. | .testDatasource .. => none

/-- A call of the service. -/
def Request.perform (env : Surroundings) : Request v → Call v (Answer v)
  | .testDraft draft secret => Service.testDraft env draft secret
  | .testDatasource datasourceId => Service.testDatasource crypto env datasourceId
  | .create draft secret expectedRevision =>
      transition env (Service.create crypto env draft secret expectedRevision)
  | .update datasourceId draft expected =>
      transition env (Service.update crypto env datasourceId draft expected)
  | .setEnabled datasourceId enabled expected =>
      transition env (Service.setEnabled crypto env datasourceId enabled expected)
  | .rotateSecret datasourceId secret expected =>
      transition env (Service.rotateSecret crypto env datasourceId secret expected)
  | .remove datasourceId expected confirm =>
      transition env (Service.remove crypto env datasourceId expected confirm)

/-! ### The start -/

/-- The loop of `open_datasource_runtime`, with what it meets at each record. -/
def publishEnabled (env : Name → Surroundings) : List (CatalogRecord v) → Call v Unit
  | [] => pure ()
  | record :: rest => do
      if record.1.enabled then
        let secret ← reading (readSecret crypto record.1.id)
        reserving (env record.1.id) record.1.id (some record.1.id) true fun reservation => do
          let candidate ← reading (build (env record.1.id) (.fromRecord record.1 secret))
          publishRecord (env record.1.id) reservation candidate.prepared record
      publishEnabled env rest

/-- `open_datasource_runtime`: the service, where nothing fails. -/
def openDatasourceRuntime (limits : RegistryLimits) (disk : Disk) (key : Key) (faults : Faults)
    (env : Name → Surroundings) : Option (Service v) :=
  match openStore v crypto disk key faults with
  | (disk, .returned store) =>
      match publishEnabled crypto env store.records
          { disk, store, registry := { limits := limits } } with
      | .ok _ s => s.seal.toOption.map fun view => { s with view := some view }
      | .error _ _ => none
  | _ => none

/-! ### Runs -/

/-- The service, and every id that its catalog has held. -/
structure System (v : Validators) where
  service : Service v
  used : List Name

/-- What happens to the service. Sessions come and go between the calls. -/
inductive Event (v : Validators) where
  | request (env : Surroundings) (request : Request v)
  | openSession (alias_ : Name)
  | release (id : LeaseId)
  | dispose (g : Generation)
  | beginShutdown
  /-- `block_unknown` -/
  | blockUnknown
  /-- `close` of the service -/
  | close

/-- The section of the registry that an event is, if it is one. -/
def Event.section? : Event v → Option Section
  | .openSession alias_ => some (.openSession alias_)
  | .release id => some (.release id)
  | .dispose g => some (.dispose g)
  | .beginShutdown => some .beginShutdown
  | _ => none

/-- The id that a request adds to the catalog when it writes. -/
def Request.draws (env : Surroundings) : Request v → Option Name
  | .create .. => some env.datasourceId.1
  | _ => none

/-- One event, where it can happen: an id is drawn once, and a dead process has no service. -/
def step (s : System v) : Event v → Option (System v)
  | .request env request =>
      if ∃ id ∈ request.draws env, id ∈ s.used then none
      else
        match request.perform crypto env s.service with
        | .ok _ service => some ⟨service, (request.draws env).toList ++ s.used⟩
        | .error (.raised _) service => some ⟨service, (request.draws env).toList ++ s.used⟩
        | .error .stopped _ => none
  | .blockUnknown => some { s with service := s.service.block }
  | .close => some { s with service := { s.service with closed := true } }
  | event =>
      (event.section?.bind (Datasources.step s.service.registry)).map fun reg =>
        { s with service := { s.service with registry := reg } }

end

end MaskGateway.Runtime.DatasourceService
