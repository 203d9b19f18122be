import MaskGateway.Runtime.WorkerSession

/-!
# `MaskGateway.Proofs.Runtime.SessionParts`: what the parts of a session leave alone

Most of a session is put together from parts that do not touch what a theorem is about: they wait for
the worker, take the lock, call the ledger or work on the receiver. `Calm` lists what such parts do to
the session, and each of them keeps every property that survives these (`preserves_control`,
`preserves_closeOutput`, `leads_clearOutput`).
-/

set_option autoImplicit false

namespace MaskGateway.Proofs.Runtime.WorkerSession

open MaskGateway.Lib MaskGateway.Pgwire MaskGateway.Pgwire.ResultReceiver
open MaskGateway.Runtime.Budget
open MaskGateway.Runtime.WorkerSession
open MaskGateway.Runtime.Wire (Kind WorkerProtocolError)

/-- The property survives what the calm parts of a session do. -/
structure Calm (world : World) (P : Session → Prop) : Prop where
  tick : ∀ s, P s → P (s.tick world)
  call : ∀ s op, (∀ token confirmation, op ≠ .release token confirmation) → P s →
    P (s.called world op)
  uncertain : ∀ s, P s → P { s with uncertain := true }
  receiver : ∀ s r, P s → P { s with receiver := r }
  operationDone : ∀ s done, P s → P { s with operationDone := done }

variable {config : Config} {world : World} {P Q : Session → Prop} {α : Type}

theorem Calm.and (hP : Calm world P) (hQ : Calm world Q) : Calm world fun s => P s ∧ Q s where
  tick s h := ⟨hP.tick s h.1, hQ.tick s h.2⟩
  call s op hop h := ⟨hP.call s op hop h.1, hQ.call s op hop h.2⟩
  uncertain s h := ⟨hP.uncertain s h.1, hQ.uncertain s h.2⟩
  receiver s r h := ⟨hP.receiver s r h.1, hQ.receiver s r h.2⟩
  operationDone s done h := ⟨hP.operationDone s done h.1, hQ.operationDone s done h.2⟩

/-! ### Questions -/

theorem preserves_ask (htick : ∀ s, P s → P (s.tick world)) (question : Nat → α) :
    Preserves P (ask world question) := fun s h => htick s h

theorem preserves_coordinated {x : Program α} (htick : ∀ s, P s → P (s.tick world))
    (hx : Preserves P x) : Preserves P (coordinated world x) := by
  refine preserves_bind (preserves_ask htick _) fun locked => ?_
  split
  · exact hx
  · exact preserves_throw _

/-- A call on the ledger is written down with its answer. -/
theorem leads_call {op : Op} {s : Session} {Q : Answer → Session → Prop}
    {R : Raised → Session → Prop}
    (hok : ∀ answer, (s.ledger.step (world.faults s.now) op).1 = .ok answer →
      Q answer (s.called world op))
    (herror : ∀ failure, (s.ledger.step (world.faults s.now) op).1 = .error failure →
      R (.budget failure) (s.called world op)) : Leads (call world op) s Q R := by
  cases hanswer : (s.ledger.step (world.faults s.now) op).1 with
  | ok answer => exact leads_of_ok (by rw [call, hanswer]) (hok answer hanswer)
  | error failure => exact leads_of_error (by rw [call, hanswer]) (herror failure hanswer)

theorem preserves_call {op : Op} (hcall : ∀ s, P s → P (s.called world op)) :
    Preserves P (call world op) :=
  fun s h => leads_call (fun _ _ => hcall s h) fun _ _ => hcall s h

theorem preserves_slice (htick : ∀ s, P s → P (s.tick world)) : Preserves P (slice world) := by
  refine preserves_bind (preserves_ask htick _) fun locked => ?_
  cases locked with
  | acquired => exact preserves_pure ()
  | refused failure => exact preserves_throw _

theorem preserves_ofReceiver (x : Except ReceiverFailure α) : Preserves P (ofReceiver x) := by
  cases x with
  | ok a => exact preserves_pure a
  | error failure => exact preserves_throw _

theorem preserves_setDone (h : Calm world P) (done : Bool) : Preserves P (setDone done) :=
  preserves_modify fun s => h.operationDone s done

theorem preserves_newReceiver (h : Calm world P) (identity : ResultIdentity) :
    Preserves P (newReceiver config world identity) := by
  refine preserves_bind (preserves_slice h.tick) fun _ => preserves_bind
    (preserves_tryCatch (preserves_call fun s => h.call s _ fun _ _ h => by cases h) fun _ =>
      preserves_throw _)
    fun answer => ?_
  cases answer with
  | pin pin =>
      refine preserves_modify fun s hs => ?_
      have hreceiver := h.receiver s
        (some { pin, expected := identity, limits := config.limits }) hs
      exact h.operationDone _ false hreceiver
  | unit | token | output | release | status => exact preserves_throw _

end MaskGateway.Proofs.Runtime.WorkerSession
