import MaskGateway.Lib.Except

/-!
# `MaskGateway.Runtime.Budget`: the logical credit ledger

Model of `maskgw/runtime/budget.py`. `BudgetLedger` holds an immutable image: a fixed tuple
of slots, each with an epoch and at most one reservation, plus the two shutdown flags. Every
public operation prepares a new image, validates it as a whole and publishes it once.

The model keeps that shape. An operation refuses, or it returns a `Plan`: its answer, and
the image to publish if there is one. `Ledger.perform` publishes the image through
`Ledger.commit`, which is `_commit`: validate, write, and on a failed write restore the old
image or, when that fails too, record the failure for good.

`Faults` says which of `_write_image` and `_restore_image` raises, and whether it raises
before or after it took effect. The shipped methods are plain assignments and never raise;
the docstring of the source treats a failed publication as a modelled boundary, so the
model does too.

Arguments are arbitrary Python values. `Arg` is an argument that should be an `int`,
`Option BudgetToken` one that should be a token (`none` is a value of another type), and a
token's own fields are again `Arg`s, since a token can be built by hand from anything.
-/

set_option autoImplicit false

namespace MaskGateway.Runtime.Budget

open MaskGateway.Lib

/-- `_MAX_NUMBER`. -/
def maxNumber : Nat := 2 ^ 63 - 1

/-- `_MAX_SLOTS`. -/
def maxSlots : Nat := 4096

/-- `_MAX_DATASOURCES`. -/
def maxDatasources : Nat := 1024

/-- The categories of `BudgetError`. -/
inductive BudgetFailure where
  | invalid
  | capacity
  | state
  | closed
  | fault
  deriving DecidableEq

/-- A Python value in the place of a number. `int` holds the values with
`type(value) is int`; every other value, `bool` included, is `other`. -/
inductive Arg where
  | int (value : Int)
  | other
  deriving DecidableEq

/-- `_number`: an `int` between the bounds, or `INVALID`. -/
def number (value : Arg) (minimum maximum : Nat) : Except BudgetFailure Nat :=
  match value with
  | .int n =>
      if (minimum : Int) ≤ n ∧ n ≤ (maximum : Int) then .ok n.toNat else .error .invalid
  | .other => .error .invalid

/-- `_number` with its default bounds. -/
def positive (value : Arg) : Except BudgetFailure Nat := number value 1 maxNumber

/-- `BudgetLimits`, with the checks of its `__post_init__` as fields. -/
structure BudgetLimits where
  totalBytes : Nat
  baseBytes : Nat
  headroomBytes : Nat
  entries : Nat
  sessions : Nat
  workers : Nat
  candidates : Nat
  generations : Nat
  auxiliaries : Nat
  bytes_range : ∀ v ∈ [totalBytes, baseBytes, headroomBytes], 1 ≤ v ∧ v ≤ maxNumber
  counts_range : ∀ v ∈ [entries, sessions, workers, candidates, generations, auxiliaries],
    1 ≤ v ∧ v ≤ maxSlots
  base_fits : baseBytes + headroomBytes ≤ totalBytes
  counts_le_entries : ∀ v ∈ [sessions, workers, candidates, generations, auxiliaries],
    v ≤ entries

/-- `DatasourceCapacity`, with the checks of its `__post_init__` as fields. -/
structure DatasourceCapacity where
  sessions : Nat
  candidates : Nat
  range : ∀ v ∈ [sessions, candidates], 1 ≤ v ∧ v ≤ maxSlots

/-- `CleanupConfirmation`: five facts, each a `bool`. -/
structure CleanupConfirmation where
  processes : Bool
  threads : Bool
  pipes : Bool
  handles : Bool
  output : Bool
  deriving DecidableEq

/-- `CleanupConfirmation.complete`. -/
def CleanupConfirmation.complete (c : CleanupConfirmation) : Bool :=
  c.processes && c.threads && c.pipes && c.handles && c.output

/-- `ReservationKind`. -/
inductive ReservationKind where
  | session
  | candidate
  | generation
  | auxiliary
  deriving DecidableEq

/-- `ReservationState`. -/
inductive ReservationState where
  | reserved
  | live
  | draining
  | held
  deriving DecidableEq

/-- `ReleaseOutcome`. -/
inductive ReleaseOutcome where
  | released
  | held
  | alreadyReleased
  deriving DecidableEq

/-- `OutputReleaseOutcome`. -/
inductive OutputReleaseOutcome where
  | cleared
  | held
  | alreadyCleared
  deriving DecidableEq

/-- `BudgetToken`. The owner is the identity of the issuing ledger. -/
structure BudgetToken where
  owner : Nat
  slot : Arg
  epoch : Arg
  deriving DecidableEq

/-- `BudgetOutputToken`: a pin of one session. -/
structure BudgetOutputToken where
  session : Option BudgetToken
  epoch : Arg
  frameBytes : Arg
  overheadBytes : Arg
  deriving DecidableEq

/-- `ReservationView`: one reservation. -/
structure ReservationView where
  kind : ReservationKind
  state : ReservationState
  datasource : Option Nat
  generationSlot : Option Nat := none
  generationEpoch : Nat := 0
  workerBytes : Nat := 0
  parentBytes : Nat := 0
  sharedBytes : Nat := 0
  outputEpoch : Nat := 0
  outputPinned : Bool := false
  outputFrameBytes : Nat := 0
  outputOverheadBytes : Nat := 0
  deriving DecidableEq

/-- The bytes a reservation charges. -/
def ReservationView.bytes (row : ReservationView) : Nat :=
  row.workerBytes + row.parentBytes + row.sharedBytes

/-- `_Slot`. -/
structure Slot where
  epoch : Nat := 0
  entry : Option ReservationView := none
  deriving DecidableEq

/-- `_Image`. -/
structure Image where
  slots : List Slot
  closing : Bool := false
  closed : Bool := false
  deriving DecidableEq

/-- The reservations of an image, in slot order. -/
def Image.entries (image : Image) : List ReservationView :=
  image.slots.filterMap (·.entry)

/-- `BudgetLedger`. `failure` holds the old and the new image after a failed restoration. -/
structure Ledger where
  limits : BudgetLimits
  datasources : List DatasourceCapacity
  owner : Nat
  image : Image
  failure : Option (Image × Image) := none

/-- `BudgetLedger.__init__`, for a `BudgetLimits` and a tuple of `DatasourceCapacity`. -/
def Ledger.init (owner : Nat) (limits : BudgetLimits) (datasources : List DatasourceCapacity) :
    Except BudgetFailure Ledger :=
  if 1 ≤ datasources.length ∧ datasources.length ≤ maxDatasources then
    .ok { limits, datasources, owner, image := { slots := List.replicate limits.entries {} } }
  else .error .invalid

/-! ### Checks -/

/-- `_usable`. -/
def Ledger.usable (l : Ledger) (admission : Bool) : Except BudgetFailure Unit :=
  if l.failure.isSome then .error .fault
  else if l.image.closed || (admission && l.image.closing) then .error .closed
  else .ok ()

/-- `_datasource`: an ordinal of this ledger. -/
def Ledger.datasource (l : Ledger) (datasource : Arg) : Except BudgetFailure Nat :=
  number datasource 0 (l.datasources.length - 1)

/-- `_locate`: the slot a token names, with its index. The epoch must be the slot's own, and
the slot must hold an entry unless `empty` is allowed. -/
def Ledger.locate (l : Ledger) (token : Option BudgetToken) (empty : Bool) :
    Except BudgetFailure (Nat × Slot) :=
  match token with
  | none => .error .invalid
  | some token => do
      refuseIf (token.owner ≠ l.owner) .invalid
      let index ← number token.slot 0 (l.image.slots.length - 1)
      let epoch ← positive token.epoch
      match l.image.slots[index]? with
      | none => throw .fault
      | some slot =>
          refuseIf (epoch ≠ slot.epoch ∨ (slot.entry.isNone ∧ empty = false)) .state
          return (index, slot)

/-- `_entry`: the reservation a token names, with its slot index and epoch. -/
def Ledger.entry (l : Ledger) (token : Option BudgetToken) :
    Except BudgetFailure (Nat × Nat × ReservationView) := do
  let (index, slot) ← l.locate token false
  match slot.entry with
  | none => throw .fault
  | some row => return (index, slot.epoch, row)

/-- `_validate_output`. -/
def validateOutput (row : ReservationView) : Except BudgetFailure Unit := do
  refuseIf (maxNumber < row.outputEpoch) .invalid
  refuseIf (maxNumber < row.outputFrameBytes) .invalid
  refuseIf (maxNumber < row.outputOverheadBytes) .invalid
  refuseIf (row.kind ≠ .session ∧ (row.outputEpoch ≠ 0 ∨ row.outputPinned ∨
      row.outputFrameBytes ≠ 0 ∨ row.outputOverheadBytes ≠ 0)) .state
  if row.outputPinned then
    refuseIf (row.outputFrameBytes < 1) .invalid
    refuseIf (row.outputOverheadBytes < 1) .invalid
    refuseIf (row.outputEpoch = 0) .state
    refuseIf (row.parentBytes < 2 * row.outputFrameBytes + row.outputOverheadBytes) .capacity
  else refuseIf (row.outputFrameBytes ≠ 0 ∨ row.outputOverheadBytes ≠ 0) .state

/-- One round of the loop in `_validate`: the output fields, and the ordinal that indexes the
per-datasource counters. A missing or foreign ordinal fails the assertion or the indexing,
which `_guard` turns into `FAULT`. -/
def Ledger.validateRow (l : Ledger) (row : ReservationView) : Except BudgetFailure Unit := do
  validateOutput row
  if row.kind = .session ∨ row.kind = .candidate then
    match row.datasource with
    | none => throw .fault
    | some d => refuseIf (l.datasources.length ≤ d) .fault

/-- The bytes in use under an image: base, headroom and every charge. -/
def Ledger.used (l : Ledger) (image : Image) : Nat :=
  l.limits.baseBytes + l.limits.headroomBytes + (image.entries.map (·.bytes)).sum

/-- How many reservations of an image have this kind. -/
def Image.count (image : Image) (kind : ReservationKind) : Nat :=
  image.entries.countP (·.kind = kind)

/-- How many reservations of an image have this kind and datasource. -/
def Image.countFor (image : Image) (kind : ReservationKind) (datasource : Nat) : Nat :=
  image.entries.countP fun row => row.kind = kind ∧ row.datasource = some datasource

/-- The global capacity test of `_validate`. -/
def Ledger.overCapacity (l : Ledger) (image : Image) : Bool :=
  l.limits.totalBytes < l.used image
    || min l.limits.sessions l.limits.workers < image.count .session
    || l.limits.candidates < image.count .candidate
    || l.limits.generations < image.count .generation
    || l.limits.auxiliaries < image.count .auxiliary

/-- `_validate`. -/
def Ledger.validate (l : Ledger) (image : Image) : Except BudgetFailure Unit := do
  image.entries.forM l.validateRow
  refuseIf (l.overCapacity image) .capacity
  l.datasources.zipIdx.forM fun (capacity, index) =>
    refuseIf (capacity.sessions < image.countFor .session index ∨
      capacity.candidates < image.countFor .candidate index) .capacity

/-! ### Publication -/

/-- How an assignment of the image behaves: it takes effect, or it raises before or after it
took effect. -/
inductive Fault where
  | none
  | before
  | after
  deriving DecidableEq

/-- The behaviour of `_write_image` and of `_restore_image` during one operation. -/
structure Faults where
  write : Fault := .none
  restore : Fault := .none
  deriving DecidableEq

/-- The image after an assignment of `image` over `old` that behaves as `fault`. -/
def Fault.apply (fault : Fault) (old image : Image) : Image :=
  match fault with
  | .before => old
  | .none | .after => image

/-- `_commit`: validate, publish, and on a failed publication restore the old image. A failed
restoration is recorded in `failure` together with both images. -/
def Ledger.commit (faults : Faults) (l : Ledger) (image : Image) :
    Except BudgetFailure Unit × Ledger :=
  match l.validate image with
  | .error e => (.error e, l)
  | .ok () =>
      let written := faults.write.apply l.image image
      if faults.write = .none then (.ok (), { l with image := written })
      else
        let restored := faults.restore.apply written l.image
        if faults.restore = .none then (.error .fault, { l with image := restored })
        else (.error .fault, { l with image := restored, failure := some (l.image, image) })

/-- An operation before publication: its answer, and the image to publish if there is one. -/
abbrev Plan (α : Type) := α × Option Image

/-- Runs a plan: nothing to publish leaves the ledger alone, otherwise `commit`. -/
def Ledger.perform {α : Type} (faults : Faults) (l : Ledger) (plan : Except BudgetFailure (Plan α)) :
    Except BudgetFailure α × Ledger :=
  match plan with
  | .error e => (.error e, l)
  | .ok (answer, none) => (.ok answer, l)
  | .ok (answer, some image) =>
      match l.commit faults image with
      | (.ok (), l') => (.ok answer, l')
      | (.error e, l') => (.error e, l')

/-- The image with another slot at `index`. -/
def Image.set (image : Image) (index : Nat) (slot : Slot) : Image :=
  { image with slots := image.slots.set index slot }

/-- `_replace`, after its `_locate`: the entry at `index` under the same epoch. -/
def Image.replace (image : Image) (index epoch : Nat) (entry : Option ReservationView) : Image :=
  image.set index { epoch, entry }

/-- `_reserve`: the first empty slot whose epoch can still grow takes the entry under the
next epoch. -/
def Ledger.reserve (l : Ledger) (entry : ReservationView) :
    Except BudgetFailure (Plan BudgetToken) :=
  match l.image.slots.findIdx? fun slot => slot.entry.isNone && slot.epoch < maxNumber with
  | none => .error .capacity
  | some index =>
      match l.image.slots[index]? with
      | none => .error .fault
      | some slot =>
          .ok ({ owner := l.owner, slot := .int index, epoch := .int (slot.epoch + 1) },
            some (l.image.set index { epoch := slot.epoch + 1, entry := some entry }))

/-! ### The public operations -/

/-- `reserve_candidate`. -/
def Ledger.reserveCandidate (l : Ledger) (datasource sharedBytes : Arg) :
    Except BudgetFailure (Plan BudgetToken) := do
  l.usable true
  let datasource ← l.datasource datasource
  let sharedBytes ← positive sharedBytes
  l.reserve { kind := .candidate, state := .reserved, datasource := some datasource, sharedBytes }

/-- `reserve_auxiliary`. -/
def Ledger.reserveAuxiliary (l : Ledger) (sharedBytes : Arg) :
    Except BudgetFailure (Plan BudgetToken) := do
  l.usable true
  let sharedBytes ← positive sharedBytes
  l.reserve { kind := .auxiliary, state := .reserved, datasource := none, sharedBytes }

/-- A LIVE generation of this datasource sits in the slot. -/
def Slot.liveGeneration (datasource : Option Nat) (slot : Slot) : Bool :=
  match slot.entry with
  | none => false
  | some row => row.kind = .generation ∧ row.datasource = datasource ∧ row.state = .live

/-- The slots after `publish` retired the generation named by `replacing`, if any is named. -/
def Ledger.retired (l : Ledger) (row : ReservationView)
    (replacing : Option (Option BudgetToken)) : Except BudgetFailure Image :=
  match replacing with
  | none => .ok l.image
  | some replacing => do
      let (index, epoch, old) ← l.entry replacing
      refuseIf (old.kind ≠ .generation ∨ old.datasource ≠ row.datasource ∨ old.state ≠ .live)
        .state
      return l.image.replace index epoch (some { old with state := .draining })

/-- `publish`. The outer `Option` of `replacing` is the default `None`. -/
def Ledger.publish (l : Ledger) (candidate : Option BudgetToken)
    (replacing : Option (Option BudgetToken)) :
    Except BudgetFailure (Plan Unit) := do
  l.usable false
  let (index, epoch, row) ← l.entry candidate
  refuseIf (row.kind ≠ .candidate ∨ (row.state ≠ .reserved ∧ row.state ≠ .live)) .state
  let retired ← l.retired row replacing
  refuseIf (retired.slots.any (Slot.liveGeneration row.datasource)) .state
  return ((), some (retired.replace index epoch
    (some { row with kind := .generation, state := .live })))

/-- `reserve_session`. -/
def Ledger.reserveSession (l : Ledger) (generation : Option BudgetToken)
    (workerBytes parentBytes : Arg) :
    Except BudgetFailure (Plan BudgetToken) := do
  l.usable true
  let (index, epoch, row) ← l.entry generation
  refuseIf (row.kind ≠ .generation ∨ row.state ≠ .live) .state
  let workerBytes ← positive workerBytes
  let parentBytes ← positive parentBytes
  l.reserve { kind := .session, state := .reserved, datasource := row.datasource,
              generationSlot := some index, generationEpoch := epoch, workerBytes, parentBytes }

/-- `mark_live`. -/
def Ledger.markLive (l : Ledger) (token : Option BudgetToken) :
    Except BudgetFailure (Plan Unit) := do
  l.usable true
  let (index, epoch, row) ← l.entry token
  refuseIf (row.state ≠ .reserved) .state
  return ((), some (l.image.replace index epoch (some { row with state := .live })))

/-- `adopt_session`. -/
def Ledger.adoptSession (l : Ledger) (token : Option BudgetToken) :
    Except BudgetFailure (Plan Unit) := do
  l.usable true
  let (index, epoch, row) ← l.entry token
  refuseIf (row.kind ≠ .session ∨ row.state ≠ .reserved) .state
  return ((), some (l.image.replace index epoch (some { row with state := .live })))

/-- `begin_drain`. -/
def Ledger.beginDrain (l : Ledger) (token : Option BudgetToken) :
    Except BudgetFailure (Plan Unit) := do
  l.usable false
  let (index, epoch, row) ← l.entry token
  if row.state ≠ .draining ∧ row.state ≠ .held then
    return ((), some (l.image.replace index epoch (some { row with state := .draining })))
  else return ((), none)

/-- `begin_output`. -/
def Ledger.beginOutput (l : Ledger) (session : Option BudgetToken)
    (frameBytes overheadBytes : Arg) :
    Except BudgetFailure (Plan BudgetOutputToken) := do
  l.usable true
  let frame ← positive frameBytes
  let overhead ← positive overheadBytes
  let _ ← positive (.int (2 * frame + overhead))
  let (index, epoch, row) ← l.entry session
  refuseIf (row.kind ≠ .session ∨ row.state ≠ .live ∨ row.outputPinned) .state
  refuseIf (row.parentBytes < 2 * frame + overhead ∨ row.outputEpoch = maxNumber) .capacity
  return ({ session, epoch := .int (row.outputEpoch + 1), frameBytes, overheadBytes },
    some (l.image.replace index epoch (some
      { row with outputEpoch := row.outputEpoch + 1, outputPinned := true,
                 outputFrameBytes := frame, outputOverheadBytes := overhead })))

/-- The state of a session whose output ends with this `drain` flag. -/
def drainedState (row : ReservationView) (drain : Bool) : ReservationState :=
  if drain ∧ row.state ≠ .held then .draining else row.state

/-- `end_output`. `none` in the place of a flag is a value that is not a `bool`. -/
def Ledger.endOutput (l : Ledger) (pin : Option BudgetOutputToken) (discarded drain : Option Bool) :
    Except BudgetFailure (Plan OutputReleaseOutcome) := do
  l.usable false
  match pin, discarded, drain with
  | some pin, some discarded, some drain =>
      let pinEpoch ← positive pin.epoch
      let frame ← positive pin.frameBytes
      let overhead ← positive pin.overheadBytes
      let (index, epoch, row) ← l.entry pin.session
      refuseIf (row.kind ≠ .session ∨ row.outputEpoch ≠ pinEpoch) .state
      if row.outputPinned = false then return (.alreadyCleared, none)
      else
        refuseIf (row.outputFrameBytes ≠ frame ∨ row.outputOverheadBytes ≠ overhead) .state
        let state := drainedState row drain
        if discarded then
          return (.cleared, some (l.image.replace index epoch (some
            { row with state := state, outputPinned := false,
                       outputFrameBytes := 0, outputOverheadBytes := 0 })))
        else if state ≠ row.state then
          return (.held, some (l.image.replace index epoch (some { row with state := state })))
        else return (.held, none)
  | _, _, _ => throw .invalid

/-- `retain`. -/
def Ledger.retain (l : Ledger) (token : Option BudgetToken) :
    Except BudgetFailure (Plan Unit) := do
  l.usable false
  let (index, epoch, row) ← l.entry token
  if row.state ≠ .held then
    return ((), some (l.image.replace index epoch (some { row with state := .held })))
  else return ((), none)

/-- A session that references the generation of this slot and epoch sits in the slot. -/
def Slot.references (generationSlot generationEpoch : Nat) (slot : Slot) : Bool :=
  match slot.entry with
  | none => false
  | some row => row.kind = .session ∧ row.generationSlot = some generationSlot ∧
      row.generationEpoch = generationEpoch

/-- `release`. -/
def Ledger.release (l : Ledger) (token : Option BudgetToken)
    (confirmation : Option CleanupConfirmation) :
    Except BudgetFailure (Plan ReleaseOutcome) := do
  refuseIf l.failure.isSome .fault
  match confirmation with
  | none => throw .invalid
  | some confirmation =>
      let (index, slot) ← l.locate token true
      match slot.entry with
      | none => return (.alreadyReleased, none)
      | some row =>
          refuseIf (row.state ≠ .draining ∧ row.state ≠ .held) .state
          let referenced := decide (row.kind = .generation)
            && l.image.slots.any (Slot.references index slot.epoch)
          if !confirmation.complete || referenced || row.outputPinned then
            if row.state ≠ .held then
              return (.held,
                some (l.image.replace index slot.epoch (some { row with state := .held })))
            else return (.held, none)
          else return (.released, some (l.image.replace index slot.epoch none))

/-- `begin_shutdown`. -/
def Ledger.beginShutdown (l : Ledger) :
    Except BudgetFailure (Plan Unit) := do
  refuseIf l.failure.isSome .fault
  if l.image.closing = false then return ((), some { l.image with closing := true })
  else return ((), none)

/-- `finish_shutdown`. -/
def Ledger.finishShutdown (l : Ledger) :
    Except BudgetFailure (Plan Unit) := do
  refuseIf l.failure.isSome .fault
  refuseIf (l.image.closing = false) .state
  refuseIf (l.image.slots.any (·.entry.isSome)) .capacity
  if l.image.closed = false then return ((), some { l.image with closed := true })
  else return ((), none)

/-- `BudgetStatus`. -/
structure BudgetStatus where
  baseBytes : Nat
  headroomBytes : Nat
  workerBytes : Nat
  parentBytes : Nat
  quarantinedBytes : Int
  reservedBytes : Int
  availableBytes : Int
  sessions : Nat
  candidates : Nat
  generations : Nat
  auxiliaries : Nat
  closing : Bool
  closed : Bool
  failed : Bool
  epochs : List Nat
  entries : List (Option ReservationView)
  quarantinedEntries : List (List (Option ReservationView))
  deriving DecidableEq

/-- `status`. -/
def Ledger.status (l : Ledger) : BudgetStatus :=
  let entries := l.image.entries
  let base := l.limits.baseBytes + (entries.map (·.sharedBytes)).sum
  let worker := (entries.map (·.workerBytes)).sum
  let parent := (entries.map (·.parentBytes)).sum
  let reserved : Int := (base + l.limits.headroomBytes + worker + parent : Nat)
  let quarantine : Int := if l.failure.isSome then l.limits.totalBytes - reserved else 0
  { baseBytes := base
    headroomBytes := l.limits.headroomBytes
    workerBytes := worker
    parentBytes := parent
    quarantinedBytes := quarantine
    reservedBytes := reserved + quarantine
    availableBytes := l.limits.totalBytes - reserved - quarantine
    sessions := l.image.count .session
    candidates := l.image.count .candidate
    generations := l.image.count .generation
    auxiliaries := l.image.count .auxiliary
    closing := l.image.closing
    closed := l.image.closed
    failed := l.failure.isSome
    epochs := l.image.slots.map (·.epoch)
    entries := l.image.slots.map (·.entry)
    quarantinedEntries :=
      match l.failure with
      | none => []
      | some (old, new) => [old.slots.map (·.entry), new.slots.map (·.entry)] }

/-! ### Runs -/

/-- A call of a public operation. -/
inductive Op where
  | reserveCandidate (datasource sharedBytes : Arg)
  | reserveAuxiliary (sharedBytes : Arg)
  | publish (candidate : Option BudgetToken) (replacing : Option (Option BudgetToken))
  | reserveSession (generation : Option BudgetToken) (workerBytes parentBytes : Arg)
  | markLive (token : Option BudgetToken)
  | adoptSession (token : Option BudgetToken)
  | beginDrain (token : Option BudgetToken)
  | beginOutput (session : Option BudgetToken) (frameBytes overheadBytes : Arg)
  | endOutput (pin : Option BudgetOutputToken) (discarded drain : Option Bool)
  | retain (token : Option BudgetToken)
  | release (token : Option BudgetToken) (confirmation : Option CleanupConfirmation)
  | beginShutdown
  | finishShutdown
  | status

/-- What a call returns. -/
inductive Answer where
  | unit
  | token (token : BudgetToken)
  | pin (pin : BudgetOutputToken)
  | output (outcome : OutputReleaseOutcome)
  | release (outcome : ReleaseOutcome)
  | status (status : BudgetStatus)

/-- The plan of a call, with its answer tagged. -/
def Ledger.plan (l : Ledger) : Op → Except BudgetFailure (Plan Answer)
  | .reserveCandidate d s => (l.reserveCandidate d s).map (Prod.map .token id)
  | .reserveAuxiliary s => (l.reserveAuxiliary s).map (Prod.map .token id)
  | .publish c r => (l.publish c r).map (Prod.map (fun _ => .unit) id)
  | .reserveSession g w p => (l.reserveSession g w p).map (Prod.map .token id)
  | .markLive t => (l.markLive t).map (Prod.map (fun _ => .unit) id)
  | .adoptSession t => (l.adoptSession t).map (Prod.map (fun _ => .unit) id)
  | .beginDrain t => (l.beginDrain t).map (Prod.map (fun _ => .unit) id)
  | .beginOutput s f o => (l.beginOutput s f o).map (Prod.map .pin id)
  | .endOutput p d r => (l.endOutput p d r).map (Prod.map .output id)
  | .retain t => (l.retain t).map (Prod.map (fun _ => .unit) id)
  | .release t c => (l.release t c).map (Prod.map .release id)
  | .beginShutdown => l.beginShutdown.map (Prod.map (fun _ => .unit) id)
  | .finishShutdown => l.finishShutdown.map (Prod.map (fun _ => .unit) id)
  | .status => .ok (.status l.status, none)

/-- One call. -/
def Ledger.step (faults : Faults) (l : Ledger) (op : Op) : Except BudgetFailure Answer × Ledger :=
  l.perform faults (l.plan op)

/-- The ledger after a sequence of calls, each with its own publication faults. -/
def Ledger.run (l : Ledger) : List (Faults × Op) → Ledger
  | [] => l
  | (faults, op) :: calls => (l.step faults op).2.run calls

end MaskGateway.Runtime.Budget
