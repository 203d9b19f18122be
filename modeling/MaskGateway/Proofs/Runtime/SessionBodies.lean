import MaskGateway.Proofs.Runtime.SessionTalk

/-!
# `MaskGateway.Proofs.Runtime.SessionBodies`: the bodies of `open`, `query` and `send_result_to`

Each body from where it starts to where it returns, or to where it raises. `_open` begins without a
reservation (`Fresh`) and may end so; from the adoption on a body that raises leaves the session
`Broken`, from where `_cleanup` takes over (`leads_orCleanup`).
-/

set_option autoImplicit false

namespace MaskGateway.Proofs.Runtime.WorkerSession

open MaskGateway.Lib MaskGateway.Pgwire MaskGateway.Pgwire.ResultReceiver
open MaskGateway.Runtime.Budget MaskGateway.Proofs.Budget
open MaskGateway.Runtime.WorkerSession
open MaskGateway.Runtime.Wire (ErrorReply Kind)

variable {config : Config} {world : World} {P : Session → Prop} {s : Session}

/-! ### The adoption -/

/-- The ledger refused to adopt the reservation. -/
def Refused (config : Config) (asked : Asked) : Prop :=
  asked.op = .adoptSession (some config.token) ∧ ∃ failure, asked.answer = .error failure

/-- No reservation was adopted, and nothing else was asked of the ledger. -/
structure Fresh (config : Config) (world : World) (s : Session) : Prop where
  accounted : Accounted config world s
  adopted : s.adopted = false
  state : s.state = .new
  history : s.history = []
  asked : ∀ asked ∈ s.asked, Refused config asked

/-- `_open` after the adoption. -/
structure Opening (config : Config) (world : World) (s : Session) : Prop where
  accounted : Accounted config world s
  adopted : s.adopted = true
  history : s.history = []

theorem Opening.broken (h : Opening config world s) : Broken config world s where
  accounted := h.accounted
  adopted := h.adopted
  protocol := h.history ▸ protocol_nil
  alive last hlast := by
    rw [h.history] at hlast
    cases hlast

/-- What is known of the operating system, while a session opens. -/
theorem Opening.congr {s' : Session} (h : Opening config world s)
    (haccounted : Accounted config world s') (hadopted : s'.adopted = s.adopted)
    (hhistory : s'.history = s.history) : Opening config world s' :=
  ⟨haccounted, hadopted.trans h.adopted, hhistory.trans h.history⟩

variable {last : Exchange} {state : SessionState} {job : Nat} {wire : List UInt8}

/-- Where the session stands, and its job. -/
def AtJob (config : Config) (world : World) (last : Exchange) (state : SessionState) (job : Nat)
    (s : Session) : Prop :=
  Standing config world last state s ∧ s.job = job

/-- The call failed, and the session is closed or held. -/
structure Fallen (config : Config) (world : World) (s : Session) : Prop where
  accounted : Accounted config world s
  adopted : s.adopted = true
  protocol : Protocol config s.history
  latest : ∃ job, s.history.getLast? = some (.failed job)
  state : s.state = .held ∨ s.state = .closed

/-- `failed` may be written down wherever a body raises. -/
theorem Broken.failed (h : Broken config world s) :
    Protocol config (s.history ++ [.failed s.job]) := by
  cases hlast : s.history.getLast? with
  | none =>
      rw [List.getLast?_eq_none_iff.mp hlast]
      exact protocol_singleton (.inr ⟨_, rfl⟩)
  | some last =>
      obtain ⟨halive, hbound⟩ := h.alive last hlast
      exact protocol_snoc h.protocol hlast (.failed halive hbound)

end MaskGateway.Proofs.Runtime.WorkerSession
