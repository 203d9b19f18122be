import MaskGateway.Proofs.Runtime.SessionParts
import MaskGateway.Proofs.Runtime.BudgetShutdown

/-!
# `MaskGateway.Proofs.Runtime.SessionCleanup`: what a session gives back, and when

A reservation leaves the ledger through a complete confirmation only (`Written.leaves`), and `_cleanup`
confirms what it has seen. `Tracked` says what the session knows of its handles and its worker from
its own attributes. `leads_cleanup` follows `_cleanup` from there: each handle that is closed is known
to be closed unless the session is uncertain, so that a complete confirmation finds the worker reaped
or never spawned and nothing open (`Owned.Over`).

`Accounted` is what every call keeps of the ledger.
-/

set_option autoImplicit false

namespace MaskGateway.Proofs.Runtime.WorkerSession

open MaskGateway.Lib MaskGateway.Pgwire MaskGateway.Pgwire.ResultReceiver
open MaskGateway.Runtime.Budget MaskGateway.Proofs.Budget
open MaskGateway.Runtime.WorkerSession

variable {config : Config} {world : World} {P : Session → Prop} {s₀ s : Session}

/-! ### What is known of handles and of the worker -/

/-- Nothing is open of this handle. -/
def Shut (s : Session) (name : HandleName) : Prop :=
  s.owned.handles name = .absent ∨ s.owned.handles name = .closed

/-- The worker was reaped, or never spawned. -/
def Gone (s : Session) : Prop :=
  s.owned.child = .never ∨ s.owned.child = .reaped

/-- The worker was reaped or never spawned, and nothing is open. -/
structure Over (owned : Owned) : Prop where
  child : owned.child = .never ∨ owned.child = .reaped
  handles : ∀ name, owned.handles name = .absent ∨ owned.handles name = .closed

/-- What the session knows from its attributes. -/
structure Tracked (s : Session) : Prop where
  handles : ∀ name, s.has name = false → Shut s name
  child : s.process = none → s.spawnUnknown = false → Gone s

/-! ### Moments and calls -/

/-- A call of the session takes nothing out of the ledger, or it takes the own reservation out: the
worker is reaped or was never spawned, nothing is open, and no output is pinned. -/
def Safe (config : Config) (asked : Asked) : Prop :=
  ∀ i e, Occupied asked.before.image i e → ¬ Occupied asked.after.image i e →
    config.token = tokenAt asked.before.owner i e ∧
    (∃ confirmation, asked.op = .release (some config.token) (some confirmation)) ∧
    Over asked.owned ∧ ∃ row, Holds asked.before.image i e row ∧ row.outputPinned = false

/-- The call takes a reservation out of the ledger. -/
def Takes (asked : Asked) : Prop :=
  ∃ i e, Occupied asked.before.image i e ∧ ¬ Occupied asked.after.image i e

/-- The reservation of the session is in the ledger. -/
def Present (config : Config) (l : Ledger) : Prop :=
  ∃ i e, config.token = tokenAt l.owner i e ∧ Occupied l.image i e

/-- Nobody else releases the reservation of the session. -/
def Alone (config : Config) (world : World) : Prop :=
  ∀ moment faults op, Other.ledger faults op ∈ world.others moment →
    ∀ confirmation, op ≠ .release (some config.token) confirmation

/-- What every call keeps. -/
structure Accounted (config : Config) (world : World) (s : Session) : Prop where
  tracked : Tracked s
  safe : ∀ asked ∈ s.asked, Safe config asked
  reserved : Alone config world → s.adopted = true →
    Present config s.ledger ∨ ∃ asked ∈ s.asked, Takes asked

theorem tracked_of_apart {s' : Session} (h : Tracked s) (howned : s'.owned = s.owned)
    (hhas : ∀ name, s'.has name = s.has name) (hprocess : s'.process = s.process)
    (hspawn : s'.spawnUnknown = s.spawnUnknown) : Tracked s' where
  handles name hname := by
    rw [Shut, howned]
    exact h.handles name ((hhas name).symm.trans hname)
  child hnone hknown := by
    rw [Gone, howned]
    exact h.child (hprocess ▸ hnone) (hspawn ▸ hknown)

/-- What `Accounted` is about is the same. -/
theorem Accounted.congr {s' : Session} (h : Accounted config world s) (howned : s'.owned = s.owned)
    (hhas : ∀ name, s'.has name = s.has name) (hprocess : s'.process = s.process)
    (hspawn : s'.spawnUnknown = s.spawnUnknown) (hasked : s'.asked = s.asked)
    (hadopted : s'.adopted = s.adopted) (hledger : s'.ledger = s.ledger) :
    Accounted config world s' where
  tracked := tracked_of_apart h.tracked howned hhas hprocess hspawn
  safe := hasked ▸ h.safe
  reserved halone hs' := by
    rw [hledger, hasked]
    exact h.reserved halone (hadopted ▸ hs')

/-- The ledger is accounted for, and nothing new was said to the worker or to the client. -/
structure Tidy (config : Config) (world : World) (s₀ s : Session) : Prop where
  accounted : Accounted config world s
  history : s.history = s₀.history
  job : s.job = s₀.job
  adopted : s.adopted = s₀.adopted

theorem Accounted.tidy (h : Accounted config world s) : Tidy config world s s := ⟨h, rfl, rfl, rfl⟩

/-- In the middle of `_cleanup`: whether the worker is gone, and the handles that were closed. A close
that failed left the session uncertain. -/
structure Closing (config : Config) (world : World) (s₀ : Session) (terminated : Bool)
    (names : List HandleName) (s : Session) : Prop where
  tidy : Tidy config world s₀ s
  gone : terminated = true → Gone s
  shut : ∀ name ∈ names, s.uncertain = true ∨ Shut s name

variable {terminated : Bool} {names : List HandleName} {name : HandleName}

end MaskGateway.Proofs.Runtime.WorkerSession
