import MaskGateway.Lib.Count
import MaskGateway.Lib.Except
import MaskGateway.Lib.Machine
import MaskGateway.Masking.Engine

/-!
# `MaskGateway.Runtime.Datasources`: generations per alias, sessions, candidates

The lock sections of `DatasourceRegistry` (`runtime/datasources.py`). A generation is what an alias
publishes; a session is admitted to the published generation and counted there until its lease is
released; a candidate reserves its place, and the place of the generation it will retire, before it
is built.

The content of a generation never changes and is the value `Generation`; its lifecycle
(`_sessions`, `_retired`, `_closed`, and whether `_prepared` is gone) is found under its number,
which `_publish` draws from `_next_generation`. Leases and reservations are objects: they are
numbered in the order in which the registry makes them. `Lease.released` and
`DatasourceRegistry.everPublished` are not in the source: they say what the counters count.
-/

set_option autoImplicit false

namespace MaskGateway.Runtime.Datasources

open Lib

/-- `MAX_RETIRED_PER_DATASOURCE`. -/
def maxRetiredPerDatasource : Nat := 1

/-- `MAX_CANDIDATES_PER_DATASOURCE`. -/
def maxCandidatesPerDatasource : Nat := 1

/-- `RegistryLimits`, with what `__post_init__` checks. -/
structure RegistryLimits where
  maxSessions : Nat := 32
  maxRetired : Nat := 4
  maxCandidates : Nat := 2
  maxSessions_pos : 0 < maxSessions := by decide
  maxRetired_pos : 0 < maxRetired := by decide
  maxCandidates_pos : 0 < maxCandidates := by decide

/-- What the registry reads of a `PreparedRuntime`. -/
structure PreparedRuntime where
  maxSessions : Nat
  deriving DecidableEq

/-- The content of a `DatasourceGeneration`. -/
structure Generation where
  datasourceId : Name
  alias_ : Name
  generation : Nat
  recordRevision : Nat
  prepared : PreparedRuntime
  deriving DecidableEq

/-- The part of a `DatasourceGeneration` that changes. -/
structure Lifecycle where
  sessions : Int := 0
  retired : Bool := false
  closed : Bool := false
  /-- `_prepared` is `None` -/
  disposed : Bool := false
  deriving DecidableEq

/-- A `DatasourceLease`, as the registry sees it. -/
structure Lease where
  generation : Generation
  /-- the section of `_release` was run for it -/
  released : Bool := false
  deriving DecidableEq

/-- A `CandidateReservation`. -/
structure Reservation where
  key : Name
  datasourceId : Option Name
  publish : Bool
  released : Bool := false
  retiredSlot : Bool := false
  deriving DecidableEq

abbrev LeaseId := Nat
abbrev ReservationId := Nat

/-- A `Counter`: what is not in it counts zero. `counter[key] += 1` is `increment`, and the two
lines `counter[key] -= 1` and `del counter[key]` for what is not positive are `decrement`. -/
abbrev Counter := Name → Int

/-- `DatasourceRegistry`, with the objects it made. -/
structure DatasourceRegistry where
  limits : RegistryLimits
  /-- the dict, in the order of its keys -/
  published : List (Name × Generation) := []
  retired : List Generation := []
  /-- the set of leases that are admitted -/
  sessions : List LeaseId := []
  dsSessions : Counter := fun _ => 0
  dsRetired : Counter := fun _ => 0
  dsCandidates : Counter := fun _ => 0
  candidates : Int := 0
  reservedRetired : Int := 0
  nextGeneration : Nat := 1
  closing : Bool := false
  closed : Bool := false
  lifecycles : Nat → Lifecycle := fun _ => {}
  leases : List Lease := []
  reservations : List Reservation := []
  everPublished : List Generation := []

/-- The exceptions of the registry. -/
inductive DatasourceError where
  /-- `DatasourceUnavailableError` -/
  | unavailable
  /-- `DatasourceBusyError` -/
  | busy
  /-- `DatasourceRegistryClosedError` -/
  | registryClosed
  /-- `RuntimeError` of `CandidateReservation.publish` -/
  | notEntitled
  /-- the `RuntimeError`s of `_publish` -/
  | reservationReleased
  | aliasOfAnother
  | publishedElsewhere
  deriving DecidableEq

/-- The texts. -/
def DatasourceError.message : DatasourceError → String
  | .unavailable => "datasource indisponivel"
  | .busy => "capacidade do datasource esgotada"
  | .registryClosed => "registry de datasources encerrado"
  | .notEntitled => "reserva sem direito de publicacao"
  | .reservationReleased => "reserva ja liberada"
  | .aliasOfAnother => "alias publicado pertence a outro datasource"
  | .publishedElsewhere => "datasource ja publicado sob outro alias"

namespace DatasourceRegistry

/-- The lifecycle of a generation. -/
def life (reg : DatasourceRegistry) (g : Generation) : Lifecycle := reg.lifecycles g.generation

/-- Change the lifecycle of a generation. -/
def setLife (reg : DatasourceRegistry) (g : Generation) (life : Lifecycle) : DatasourceRegistry :=
  { reg with lifecycles := Function.update reg.lifecycles g.generation life }

end DatasourceRegistry

/-- `published[alias_] = generation`: a key that is there keeps its place. -/
def setPublished (published : List (Name × Generation)) (alias_ : Name) (g : Generation) :
    List (Name × Generation) :=
  if (published.lookup alias_).isSome then
    published.map fun entry => if entry.1 = alias_ then (alias_, g) else entry
  else published ++ [(alias_, g)]

/-- `del published[alias_]`. -/
def deletePublished (published : List (Name × Generation)) (alias_ : Name) :
    List (Name × Generation) :=
  published.filter fun entry => entry.1 ≠ alias_

/-! ### Candidates and publication -/

/-- `_published_for_locked`, and the search of `withdraw`. -/
def publishedFor (reg : DatasourceRegistry) (datasourceId : Name) :
    Option (Name × Generation) :=
  reg.published.find? fun entry => entry.2.datasourceId = datasourceId

/-- `_check_retired_capacity_locked`. -/
def checkRetiredCapacity (reg : DatasourceRegistry) (datasourceId : Name) :
    Except DatasourceError Unit := do
  refuseIf (reg.dsRetired datasourceId ≥ maxRetiredPerDatasource) .busy
  refuseIf (reg.retired.length + reg.reservedRetired ≥ reg.limits.maxRetired) .busy

/-- Does a publication of this datasource retire a generation? -/
def retires (reg : DatasourceRegistry) (datasourceId : Option Name) (publish : Bool) : Bool :=
  publish && datasourceId.any fun id => (publishedFor reg id).isSome

/-- `reserve`. -/
def reserve (reg : DatasourceRegistry) (key : Name) (datasourceId : Option Name)
    (publish : Bool) : Except DatasourceError (ReservationId × DatasourceRegistry) := do
  refuseIf reg.closing .registryClosed
  refuseIf (reg.dsCandidates key ≥ maxCandidatesPerDatasource) .busy
  refuseIf (reg.candidates ≥ reg.limits.maxCandidates) .busy
  let slot := retires reg datasourceId publish
  if slot then
    if let some id := datasourceId then checkRetiredCapacity reg id
  return (reg.reservations.length,
    { reg with
      reservedRetired := if slot then reg.reservedRetired + 1 else reg.reservedRetired
      dsCandidates := increment reg.dsCandidates key
      candidates := reg.candidates + 1
      reservations := reg.reservations ++
        [{ key := key, datasourceId := datasourceId, publish := publish, retiredSlot := slot }] })

/-- `_release_reservation`. -/
def releaseReservation (reg : DatasourceRegistry) (id : ReservationId)
    (reservation : Reservation) : DatasourceRegistry :=
  if reservation.released then reg
  else
    { reg with
      reservations := reg.reservations.set id
        { reservation with released := true, retiredSlot := false }
      dsCandidates := decrement reg.dsCandidates reservation.key
      candidates := reg.candidates - 1
      reservedRetired :=
        if reservation.retiredSlot then reg.reservedRetired - 1 else reg.reservedRetired }

/-- `_take_closable_locked`: decide the closing and mark it. -/
def takeClosable (reg : DatasourceRegistry) (g : Generation) :
    Option Generation × DatasourceRegistry :=
  let life := reg.life g
  if ¬ life.retired ∨ life.sessions > 0 ∨ life.closed then (none, reg)
  else
    let reg' := reg.setLife g { life with closed := true }
    (some g,
      { reg' with
        retired := reg.retired.erase g
        dsRetired := decrement reg.dsRetired g.datasourceId })

/-- `_retire_locked`. -/
def retire (reg : DatasourceRegistry) (g : Generation) : Option Generation × DatasourceRegistry :=
  let reg' := reg.setLife g { reg.life g with retired := true }
  takeClosable
    { reg' with
      retired := reg.retired ++ [g]
      dsRetired := increment reg.dsRetired g.datasourceId } g

/-- The refusals of `_publish`, and the generation that the alias publishes. -/
def publishCheck (reg : DatasourceRegistry) (reservation : Reservation) (datasourceId : Name)
    (alias_ : Name) : Except DatasourceError (Option Generation) := do
  refuseIf reservation.released .reservationReleased
  refuseIf reg.closed .registryClosed
  let old := reg.published.lookup alias_
  refuseIf (old.any fun g => g.datasourceId ≠ datasourceId) .aliasOfAnother
  refuseIf (reg.published.any fun entry =>
    entry.2.datasourceId = datasourceId ∧ entry.1 ≠ alias_) .publishedElsewhere
  return old

/-- `_publish` turns the reserved place into the place of the generation it retires, or asks for
one: the defensive branch, for a generation that was published after the reservation. -/
def useSlot (reg : DatasourceRegistry) (id : ReservationId) (reservation : Reservation)
    (datasourceId : Name) : Option Generation → Except DatasourceError DatasourceRegistry
  | none => .ok reg
  | some _ =>
      if reservation.retiredSlot then
        .ok { reg with
          reservations := reg.reservations.set id { reservation with retiredSlot := false }
          reservedRetired := reg.reservedRetired - 1 }
      else do
        checkRetiredCapacity reg datasourceId
        return reg

/-- The new generation of `_publish`, under its alias. -/
def publishNew (reg : DatasourceRegistry) (g : Generation) : DatasourceRegistry :=
  { reg with
    nextGeneration := reg.nextGeneration + 1
    published := setPublished reg.published g.alias_ g
    everPublished := reg.everPublished ++ [g] }

/-- The section of `_publish`: the new generation, and the one to dispose of. -/
def publish (reg : DatasourceRegistry) (id : ReservationId) (reservation : Reservation)
    (datasourceId alias_ : Name) (recordRevision : Nat) (prepared : PreparedRuntime) :
    Except DatasourceError (Generation × Option Generation × DatasourceRegistry) := do
  let old ← publishCheck reg reservation datasourceId alias_
  let reg₁ ← useSlot reg id reservation datasourceId old
  let new : Generation :=
    { datasourceId := datasourceId, alias_ := alias_, generation := reg.nextGeneration,
      recordRevision := recordRevision, prepared := prepared }
  let reg₂ := publishNew reg₁ new
  match old with
  | none => return (new, none, reg₂)
  | some g =>
      let (toClose, reg₃) := retire reg₂ g
      return (new, toClose, reg₃)

/-- The section of `withdraw`: whether there was a generation, and the one to dispose of. -/
def withdraw (reg : DatasourceRegistry) (datasourceId : Name) :
    Bool × Option Generation × DatasourceRegistry :=
  match publishedFor reg datasourceId with
  | none => (false, none, reg)
  | some (alias_, g) =>
      let (toClose, reg') := retire { reg with published := deletePublished reg.published alias_ } g
      (true, toClose, reg')

/-! ### Sessions -/

/-- The section of `open_session`: the lease of the session that was admitted. -/
def openSession (reg : DatasourceRegistry) (alias_ : Name) :
    Except DatasourceError (LeaseId × DatasourceRegistry) := do
  refuseIf reg.closing .unavailable
  refuseIf (reg.sessions.length ≥ reg.limits.maxSessions) .busy
  match reg.published.lookup alias_ with
  | none => throw .unavailable
  | some g =>
      let life := reg.life g
      refuseIf (life.retired ∨ life.closed) .unavailable
      -- the property `prepared` of a generation that was disposed of
      refuseIf life.disposed .unavailable
      refuseIf (reg.dsSessions g.datasourceId ≥ g.prepared.maxSessions) .busy
      let reg' := reg.setLife g { life with sessions := life.sessions + 1 }
      return (reg.leases.length,
        { reg' with
          dsSessions := increment reg.dsSessions g.datasourceId
          sessions := reg.sessions ++ [reg.leases.length]
          leases := reg.leases ++ [{ generation := g }] })

/-- The section of `_release`: the generation to dispose of. -/
def release (reg : DatasourceRegistry) (id : LeaseId) (lease : Lease) :
    Option Generation × DatasourceRegistry :=
  if id ∉ reg.sessions then (none, reg)
  else
    let g := lease.generation
    let reg' := reg.setLife g { reg.life g with sessions := (reg.life g).sessions - 1 }
    takeClosable
      { reg' with
        leases := reg.leases.set id { lease with released := true }
        sessions := reg.sessions.erase id
        dsSessions := decrement reg.dsSessions g.datasourceId } g

/-! ### Shutdown -/

/-- `begin_shutdown`. -/
def beginShutdown (reg : DatasourceRegistry) : DatasourceRegistry := { reg with closing := true }

/-- The first section of `close`: the leases to end, unless the registry was closed before. -/
def closeBegin (reg : DatasourceRegistry) : Option (List LeaseId × DatasourceRegistry) :=
  if reg.closed then none else some (reg.sessions, { reg with closing := true })

/-- The loop of `close` over the generations that are pending. -/
def closePending :
    List Generation → DatasourceRegistry → List Generation × DatasourceRegistry
  | [], reg => ([], reg)
  | g :: pending, reg =>
      if (reg.life g).closed then closePending pending reg
      else
        let (disposing, reg') :=
          closePending pending (reg.setLife g { reg.life g with retired := true, closed := true })
        (g :: disposing, reg')

/-- The last section of `close`, once no session and no candidate is left. -/
def closeFinish (reg : DatasourceRegistry) : Option (List Generation × DatasourceRegistry) :=
  if reg.sessions ≠ [] ∨ reg.candidates ≠ 0 then none
  else
    let (disposing, reg') := closePending (reg.published.map Prod.snd ++ reg.retired)
      { reg with published := [], retired := [], dsRetired := fun _ => 0 }
    some (disposing, { reg' with closed := true })

/-- `_dispose`. -/
def dispose (reg : DatasourceRegistry) (g : Generation) : DatasourceRegistry :=
  reg.setLife g { reg.life g with disposed := true }

/-! ### Any interleaving of the sections -/

/-- A lock section with its arguments, or the `_dispose` that follows one. -/
inductive Section where
  | reserve (key : Name) (datasourceId : Option Name) (publish : Bool)
  | releaseReservation (id : ReservationId)
  | publish (id : ReservationId) (datasourceId alias_ : Name) (recordRevision : Nat)
      (prepared : PreparedRuntime)
  | withdraw (datasourceId : Name)
  | openSession (alias_ : Name)
  | release (id : LeaseId)
  | beginShutdown
  | closeBegin
  | closeFinish
  /-- of a generation that some section closed -/
  | dispose (g : Generation)

/-- The registry after a section. A section that raises changes nothing; the last one of `close`
waits, and cannot happen, while sessions or candidates are left. -/
def step (reg : DatasourceRegistry) : Section → Option DatasourceRegistry
  | .reserve key datasourceId publish =>
      match reserve reg key datasourceId publish with
      | .error _ => some reg
      | .ok (_, reg') => some reg'
  | .releaseReservation id =>
      reg.reservations[id]?.map fun reservation => releaseReservation reg id reservation
  | .publish id datasourceId alias_ recordRevision prepared =>
      reg.reservations[id]?.map fun reservation =>
        match publish reg id reservation datasourceId alias_ recordRevision prepared with
        | .error _ => reg
        | .ok (_, _, reg') => reg'
  | .withdraw datasourceId => some (withdraw reg datasourceId).2.2
  | .openSession alias_ =>
      match openSession reg alias_ with
      | .error _ => some reg
      | .ok (_, reg') => some reg'
  | .release id => reg.leases[id]?.map fun lease => (release reg id lease).2
  | .beginShutdown => some (beginShutdown reg)
  | .closeBegin =>
      match closeBegin reg with
      | none => some reg
      | some (_, reg') => some reg'
  -- `close` runs its first section before
  | .closeFinish => if reg.closing then (closeFinish reg).map Prod.snd else none
  | .dispose g => if (reg.life g).closed then some (dispose reg g) else none

end MaskGateway.Runtime.Datasources
