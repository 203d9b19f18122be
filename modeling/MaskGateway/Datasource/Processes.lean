import MaskGateway.Datasource.Operations
import MaskGateway.Lib.Machine

/-!
# `MaskGateway.Datasource.Processes`: several processes on one catalog

`CatalogStore.initialize`, `open`, the operations and `close` of `datasource/store.py`, as processes
take them on the same paths. A process holds two sidecar locks while it works: the one of the store,
taken first, and the one of the anchor. A lock that is held is refused, never waited for, and the
system gives the locks of a dead process back.

`step` is one action of one process: a test of the paths, one lock, one step of a transaction (with
what becomes of it), one read. Any interleaving of the processes is a list of events.

    initialize:  test → store lock → anchor lock → the steps of the first transaction
    open:               store lock → anchor lock → plan → the steps of the plan → read

`initialize` looks for the files *before* it takes the locks, and not again after.
-/

set_option autoImplicit false

namespace MaskGateway.Datasource.Processes

open Lib

abbrev ProcessId := Nat

section

variable (v : Validators) (crypto : Crypto)

/-- Where a process is. -/
inductive Phase where
  | idle
  /-- `initialize`, that has found neither the store nor the anchor. -/
  | tested (key : Key)
  /-- `initialize`, with the lock of the store. -/
  | locking (key : Key)
  /-- `initialize`, with both locks and the steps still to run. -/
  | initializing (key : Key) (steps : List Step)
  /-- `open`, with the lock of the store. -/
  | opening (key : Key)
  /-- `open`, with both locks. -/
  | planning (key : Key)
  /-- `open`, with the steps of its plan still to run. -/
  | recovering (key : Key) (steps : List Step)
  | opened (store : CatalogStore v)
  /-- `_commit`, with the steps still to run. -/
  | committing (store : CatalogStore v) (change : Change v) (steps : List Step)
  /-- `close`, or a failure of `initialize` or `open`: both locks are still held. -/
  | leaving
  /-- The lock of the store is still held. -/
  | unlocking

/-- What a process does next. -/
inductive Action where
  /-- `initialize` looks for the store and the anchor. -/
  | test (key : Key)
  /-- `open` is called and takes the lock of the store. -/
  | openLock (key : Key)
  | lockStore
  | lockAnchor
  | plan
  /-- The next step of a transaction or of a plan. -/
  | write (outcome : Outcome)
  /-- The call returns, after a cleanup that does not manage to remove the `unremoved`. -/
  | finish (unremoved : List Nat)
  | operate (operation : Operation v)
  | close
  | releaseAnchor
  | releaseStore
  /-- The process dies. -/
  | crash

/-- The files, the locks with their holders, and the processes. -/
structure System where
  disk : Disk
  storeLock : Option ProcessId := none
  anchorLock : Option ProcessId := none
  phase : ProcessId → Phase v := fun _ => .idle

variable {v}

/-- The process goes on elsewhere. -/
def System.goto (s : System v) (p : ProcessId) (phase : Phase v) : System v :=
  { s with phase := Function.update s.phase p phase }

/-- The process gives back the lock of the store; it has no say in the lock of another. -/
def System.releaseStore (s : System v) (p : ProcessId) : System v :=
  { s with storeLock := if s.storeLock = some p then none else s.storeLock }

/-- The process gives back the lock of the anchor. -/
def System.releaseAnchor (s : System v) (p : ProcessId) : System v :=
  { s with anchorLock := if s.anchorLock = some p then none else s.anchorLock }

/-- The process is gone, and its locks with it. -/
def System.die (s : System v) (p : ProcessId) : System v :=
  ((s.releaseAnchor p).releaseStore p).goto p .idle

/-- What becomes of the system when a step of a list meets its outcome: the process goes on with the
rest, or ends in `failed`, or dies. -/
def System.write (s : System v) (p : ProcessId) (step : Step) (outcome : Outcome)
    (next failed : Phase v) : System v :=
  match outcome with
  | .done => { s with disk := step.apply s.disk }.goto p next
  | .raised extent _ => { s with disk := step.interrupt s.disk extent }.goto p failed
  | .stopped extent => { s with disk := step.interrupt s.disk extent }.die p

/-- The object after a commit. -/
def committedStore (change : Change v) (store : CatalogStore v) : CatalogStore v :=
  let target := change.target crypto store
  { store with
    records := target.records, revision := target.revision, digest := target.digest
    masterKey := change.key store }

/-- An operation on an open catalog, up to the first step of `_commit`. -/
def operate (disk : Disk) (store : CatalogStore v) (operation : Operation v) : Phase v :=
  match store.ensureOpen, operation.change crypto store with
  | .ok _, .ok change =>
      if change.expectedRevision ≠ store.revision then .opened store
      else
        match disk.store with
        | none => .opened { store with poisoned := true }
        | some oldData => .committing store change (change.steps crypto store oldData)
  | _, _ => .opened store

variable (v)

/-- One action of one process, where it can happen. -/
def step (s : System v) : ProcessId × Action v → Option (System v)
  | (p, .crash) => some (s.die p)
  | (p, action) =>
      match s.phase p, action with
      | .idle, .test key =>
          -- `CatalogAlreadyExistsError`
          if s.disk.store.isSome || s.disk.anchor.isSome then some s
          else some (s.goto p (.tested key))
      | .idle, .openLock key =>
          if s.storeLock.isSome then some s
          else some ({ s with storeLock := some p }.goto p (.opening key))
      | .tested key, .lockStore =>
          if s.storeLock.isSome then some (s.goto p .idle)
          else some ({ s with storeLock := some p }.goto p (.locking key))
      | .locking key, .lockAnchor =>
          if s.anchorLock.isSome then some (s.goto p .unlocking)
          else some ({ s with anchorLock := some p }.goto p
            (.initializing key (initializeSteps v crypto key)))
      | .opening key, .lockAnchor =>
          if s.anchorLock.isSome then some (s.goto p .unlocking)
          else some ({ s with anchorLock := some p }.goto p (.planning key))
      | .planning key, .plan =>
          match planRecovery v crypto s.disk key with
          | .error _ => some (s.goto p .leaving)
          | .ok none => some (s.goto p (.recovering key []))
          | .ok (some plan) => some (s.goto p (.recovering key plan.steps))
      | .initializing key (step :: rest), .write outcome =>
          some (s.write p step outcome (.initializing key rest) .leaving)
      | .recovering key (step :: rest), .write outcome =>
          some (s.write p step outcome (.recovering key rest) .leaving)
      | .committing store change (step :: rest), .write outcome =>
          -- a commit that fails leaves the object open and unusable, with its locks
          some (s.write p step outcome (.committing store change rest)
            (.opened { store with poisoned := true }))
      | .initializing key [], .finish _ =>
          some (s.goto p (.opened (CatalogStore.ofParsed key
            ⟨1, crypto.digest (makePayload (v := v) 1 []), []⟩)))
      | .recovering key [], .finish unremoved =>
          match readPair v crypto s.disk key with
          | .error _ => some (s.goto p .leaving)
          | .ok parsed =>
              some ({ s with disk := cleanupManaged { unremoved } s.disk }.goto p
                (.opened (CatalogStore.ofParsed key parsed)))
      | .committing store change [], .finish unremoved =>
          some ({ s with disk := cleanupManaged { unremoved } s.disk }.goto p
            (.opened (committedStore crypto change store)))
      | .opened store, .operate operation => some (s.goto p (operate crypto s.disk store operation))
      | .opened _, .close => some (s.goto p .leaving)
      | .leaving, .releaseAnchor => some ((s.releaseAnchor p).goto p .unlocking)
      | .unlocking, .releaseStore => some ((s.releaseStore p).goto p .idle)
      | _, _ => none

end

end MaskGateway.Datasource.Processes
