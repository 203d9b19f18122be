import MaskGateway.Proofs.Pgwire.Conversation

/-!
# `MaskGateway.Proofs.Pgwire.Driver`: every session keeps the order

The programs of a session follow the automaton of `Conversation`, one lemma for each program, from the
channels up. A program is described by where the conversation stands when it returns; when it raises,
the trace still follows the automaton, and an error that is to be reported finds the conversation
where it can be (`Raised`).

`session_orderly` is the result: whatever the surroundings do, and however far the session has come,
its trace is orderly.
-/

set_option autoImplicit false

namespace MaskGateway.Proofs.Pgwire

open MaskGateway.Pgwire MaskGateway.Pgwire.Session MaskGateway.Lib

variable {cfg : Config} {env : Surroundings} {limits : TransportLimits} {c : Channel}
  {m m' : Conversation} {w : Wire} {due : Due} {α β : Type}

/-! ### Where a session stands -/

/-- The trace leads to a conversation, and this is the channel. -/
structure Now (cfg : Config) (c : Channel) (m : Conversation) (w : Wire) : Prop where
  path : Path cfg .start w.trace m
  channel : w.channel = c

/-- A failure that nobody reports, after a trace that follows the automaton. -/
def Broken (cfg : Config) (failure : Failure) (w : Wire) : Prop :=
  (∃ m, Path cfg .start w.trace m) ∧ ∀ category, failure ≠ .startup category

theorem Now.broken (h : Now cfg c m w) {failure : Failure}
    (hfailure : ∀ category, failure ≠ .startup category) : Broken cfg failure w :=
  ⟨⟨m, h.path⟩, hfailure⟩

theorem leads_broken (h : Now cfg c m w) {failure : Failure} {Q : α → Wire → Prop}
    (hfailure : ∀ category, failure ≠ .startup category) :
    Leads (throw failure) w Q (Broken cfg) :=
  leads_throw (h.broken hfailure)

/-- An event that may follow. -/
theorem leads_log {event : Event} {R : Failure → Wire → Prop} (h : Now cfg c m w)
    (hmove : Moves cfg m event m') : Leads (log event) w (fun _ => Now cfg c m') R :=
  ⟨h.path.snoc hmove, h.channel⟩

/-- Whatever the surroundings answer. -/
theorem leads_ask {question : List Event → α} {f : α → Program β} {Q : β → Wire → Prop}
    {R : Failure → Wire → Prop} (h : ∀ a, Leads (f a) w Q R) : Leads (ask question >>= f) w Q R := by
  refine leads_bind (P := fun _ w' => w' = w) rfl ?_
  rintro a w' rfl
  exact h a

theorem leads_check (h : Now cfg c m w) (hstage : m.stage ≠ .proved) :
    Leads (check env due) w (fun _ => Now cfg c m) (Broken cfg) := by
  refine leads_ask fun answer => ?_
  cases answer with
  | passed => exact leads_log h (.checked hstage)
  | stopped | expired | failed => exact leads_broken h (by simp)

/-! ### The socket -/

/-- The channel that goes with a conversation. -/
def Conversation.channel (m : Conversation) : Channel := if m.secure then .tls else .raw

/-- The trace leads to a conversation that uses the channel that goes with it. -/
def At (cfg : Config) (m : Conversation) (w : Wire) : Prop := Now cfg m.channel m w

/-- After a failure the trace follows the automaton, and an error that is to be reported can be. -/
def Raised (cfg : Config) (failure : Failure) (w : Wire) : Prop :=
  ∃ m, Path cfg .start w.trace m ∧
    ∀ category, failure = .startup category → At cfg m w ∧ m.left = [] ∧ m.stage.reportable

theorem Broken.raised {failure : Failure} (h : Broken cfg failure w) : Raised cfg failure w := by
  obtain ⟨⟨m, hpath⟩, hfailure⟩ := h
  exact ⟨m, hpath, fun category heq => absurd heq (hfailure category)⟩

/-- Between two replies, where an error can be reported. -/
structure Idle (cfg : Config) (m : Conversation) (w : Wire) : Prop where
  here : At cfg m w
  left : m.left = []
  reportable : m.stage.reportable

theorem Idle.leads_throw {category : PgwireErrorCategory} {Q : α → Wire → Prop}
    (h : Idle cfg m w) : Leads (throw (.startup category)) w Q (Raised cfg) :=
  ⟨m, h.here.path, fun _ _ => ⟨h.here, h.left, h.reportable⟩⟩

/-- A stage in which a message of the startup is read. -/
def Stage.early (stage : Stage) : Prop :=
  stage = .opening ∨ stage = .hello ∨ stage = .offered ∨ stage = .challenged

theorem Stage.early.facts {stage : Stage} (h : stage.early) :
    (∀ n, stage.mayRead n) ∧ (∀ bytes, stage.read bytes = stage) ∧ stage.reportable := by
  rcases h with rfl | rfl | rfl | rfl <;>
    exact ⟨fun _ => trivial, fun _ => rfl, trivial⟩

end MaskGateway.Proofs.Pgwire
