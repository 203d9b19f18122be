import MaskGateway.Lib.Except
import MaskGateway.Lib.Machine

/-!
# `MaskGateway.Runtime.Registry`: one published runtime, counted references, retired runtimes

`runtime/registry.py`. A query acquires the published runtime and releases it at its end; a swap
publishes another one and retires the old, which is closed by its last user or, when it has none,
by the swap itself. Whoever decides that a runtime is closed marks it under the lock and calls
`adapter.close()` after the lock is gone.

A runtime is a number, and its lifecycle (`_refcount`, `_retired`, `_closed`) is what the registry
knows of it. `System` adds what happens outside the lock: the calls of `adapter.close()` that were
decided and are still to be made, and how often each adapter was closed.
-/

set_option autoImplicit false

namespace MaskGateway.Runtime.Registry

open Lib

/-- A runtime object. -/
abbrev RuntimeId := Nat

/-- The part of `Runtime` that changes. -/
structure Lifecycle where
  refcount : Nat := 0
  retired : Bool := false
  closed : Bool := false
  deriving DecidableEq

/-- `RuntimeRegistry`, with the lifecycle of every runtime. -/
structure RuntimeRegistry where
  runtimes : RuntimeId → Lifecycle
  current : RuntimeId
  /-- retired and not closed, in the order of their retirement -/
  retired : List RuntimeId
  maxRetired : Nat
  acquiredTotal : Nat

/-- The refusals. -/
inductive RegistryError where
  /-- `RetiredRuntimeInUseError` -/
  | retiredInUse (retired maxRetired : Nat)
  | publishedUnusable
  | releaseWithoutAcquire
  | swapToSame
  deriving DecidableEq

/-- The texts of the refusals. -/
def RegistryError.message : RegistryError → String
  | .retiredInUse retired maxRetired =>
      "ha " ++ toString retired ++ " runtime(s) aposentado(s) ainda em uso; o limite e " ++
        toString maxRetired
  | .publishedUnusable => "runtime publicado esta aposentado ou fechado"
  | .releaseWithoutAcquire => "release sem acquire correspondente"
  | .swapToSame => "swap para o mesmo runtime"

/-- Change the lifecycle of one runtime. -/
def RuntimeRegistry.set (reg : RuntimeRegistry) (r : RuntimeId) (life : Lifecycle) :
    RuntimeRegistry :=
  { reg with runtimes := Function.update reg.runtimes r life }

/-- `check_can_swap`. -/
def checkCanSwap (reg : RuntimeRegistry) : Except RegistryError Unit :=
  refuseIf (reg.retired.length ≥ reg.maxRetired)
    (.retiredInUse reg.retired.length reg.maxRetired)

/-- `acquire`: the published runtime, counted once more. -/
def acquire (reg : RuntimeRegistry) : Except RegistryError (RuntimeId × RuntimeRegistry) := do
  let life := reg.runtimes reg.current
  refuseIf (life.retired ∨ life.closed) .publishedUnusable
  let reg' := reg.set reg.current { life with refcount := life.refcount + 1 }
  return (reg.current, { reg' with acquiredTotal := reg.acquiredTotal + 1 })

/-- `_take_closable_locked`: decide the closing and mark it. -/
def takeClosable (reg : RuntimeRegistry) (r : RuntimeId) : Option RuntimeId × RuntimeRegistry :=
  let life := reg.runtimes r
  if ¬ life.retired ∨ life.refcount > 0 ∨ life.closed then (none, reg)
  else
    let reg' := reg.set r { life with closed := true }
    (some r, { reg' with retired := reg.retired.erase r })

/-- The lock section of `release`. -/
def release (reg : RuntimeRegistry) (r : RuntimeId) :
    Except RegistryError (Option RuntimeId × RuntimeRegistry) := do
  let life := reg.runtimes r
  refuseIf (life.refcount ≤ 0) .releaseWithoutAcquire
  return takeClosable (reg.set r { life with refcount := life.refcount - 1 }) r

/-- `swap`. -/
def swap (reg : RuntimeRegistry) (new : RuntimeId) :
    Except RegistryError (Option RuntimeId × RuntimeRegistry) := do
  checkCanSwap reg
  let old := reg.current
  refuseIf (old = new) .swapToSame
  let reg' := reg.set old { reg.runtimes old with retired := true }
  return takeClosable { reg' with retired := reg.retired ++ [old], current := new } old

/-- The loop of `close_all` over the runtimes that are pending: which of them it closes. -/
def closePending : List RuntimeId → RuntimeRegistry → List RuntimeId × RuntimeRegistry
  | [], reg => ([], reg)
  | r :: pending, reg =>
      if (reg.runtimes r).closed then closePending pending reg
      else
        let (closing, reg') :=
          closePending pending (reg.set r { reg.runtimes r with closed := true })
        (r :: closing, reg')

/-- The lock section of `close_all`. -/
def closeAll (reg : RuntimeRegistry) : List RuntimeId × RuntimeRegistry :=
  closePending (reg.retired ++ [reg.current]) { reg with retired := [] }

/-! ### Threads -/

/-- The registry and the closings that are under way. -/
structure System where
  registry : RuntimeRegistry
  /-- runtimes that were given to the registry so far -/
  seen : List RuntimeId
  /-- `adapter.close()` still to be called by a `release` or a `swap` -/
  closing : List RuntimeId
  /-- `adapter.close()` still to be called by `close_all` -/
  shutdown : List RuntimeId
  /-- `close_all` was called -/
  shut : Bool
  /-- how often each adapter was closed -/
  closes : RuntimeId → Nat

/-- What a thread does next: a lock section, or the `close` that follows one. -/
inductive Event where
  | acquire
  | release (r : RuntimeId)
  | checkCanSwap
  /-- a swap to a runtime that the registry has not seen, before any `close_all` -/
  | swap (new : RuntimeId)
  | closeAll
  /-- `adapter.close()` after a `release` or a `swap` -/
  | finishClose (r : RuntimeId)
  /-- `adapter.close()` after `close_all` -/
  | finishShutdown (r : RuntimeId)
  deriving DecidableEq

/-- One more `adapter.close()`. -/
def System.countClose (s : System) (r : RuntimeId) : System :=
  { s with closes := Function.update s.closes r (s.closes r + 1) }

/-- The state after an event. A refused call changes nothing. -/
def step (s : System) : Event → Option System
  | .acquire =>
      match acquire s.registry with
      | .error _ => some s
      | .ok (_, registry) => some { s with registry := registry }
  | .release r =>
      match release s.registry r with
      | .error _ => some s
      | .ok (toClose, registry) =>
          some { s with registry := registry, closing := s.closing ++ toClose.toList }
  | .checkCanSwap => some s
  | .swap new =>
      if new ∈ s.seen ∨ s.shut then none
      else
        match swap s.registry new with
        | .error _ => some s
        | .ok (toClose, registry) =>
            some { s with registry := registry, seen := new :: s.seen,
                          closing := s.closing ++ toClose.toList }
  | .closeAll =>
      let (closing, registry) := closeAll s.registry
      some { s with registry := registry, shutdown := s.shutdown ++ closing, shut := true }
  | .finishClose r =>
      if r ∈ s.closing then some { s.countClose r with closing := s.closing.erase r } else none
  | .finishShutdown r =>
      if r ∈ s.shutdown then some { s.countClose r with shutdown := s.shutdown.erase r } else none

end MaskGateway.Runtime.Registry
