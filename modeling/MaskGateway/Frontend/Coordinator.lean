import MaskGateway.Frontend.Commands
import MaskGateway.Lib.Machine

/-!
# `MaskGateway.Frontend.Coordinator`: the coordinator of one edit

`coordinate` (`frontend/src/coordinator.js`) over the `mutate` of `frontend/src/transport.js`:

    loading  →  reading  →  draft  →  pending  →  success  →  reading
                              ↑          ↓           conflict, busy, …
                              └── review of a conflict, or a manual attempt after busy

A page runs one thread. What is between two points where it waits is one event: an entry point up to
its first `await`, and the continuation of a read or of a mutation with whatever it was answered. The
requests that wait are `World.waiting`; they may be answered in any order, with any answer, and also
when nobody is interested any more. So the abort signals, which end a wait early, are left out.

The transport is shared: `elsewhere` stands for a mutation that somebody else has sent through the
same client, and the client may end (`clientEnds`) at any time.

`Client` is what the authenticated catalogue decides: the version a read carries, and whether a
command can be sent at all. `Waiting.overtaken`, `Coordinator.objects` and `World.log` are not in the
code: which requests were taken over by a later entry point, how many objects were frozen, and what
has happened, the newest first.
-/

set_option autoImplicit false

namespace MaskGateway.Frontend

open Lib

/-- What the catalogue of the session decides. -/
structure Client where
  /-- `describe().inspectDataFor(readId, clean)`; it throws when there is none -/
  inspectDataFor : Data → Option Data
  /-- whether `prepare` accepts the identifier, the version, the draft and the identity -/
  prepares : String → Nat → Data → Option String → Bool

/-- `client.prepare(command)` returns. -/
def Client.prepare (client : Client) (command : Command) : Bool :=
  client.prepares command.id command.version command.draft command.identity

structure Snapshot where
  value : Data
  version : Nat

structure Editing where
  base : Snapshot
  draft : Data
  command : Command

/-- The states; the five tags that share their fields are one. -/
inductive Flow where
  | authentication
  | loading
  | reading (snapshot : Snapshot)
  | draft (edit : Editing)
  | pending (edit : Editing)
  | success (edit : Editing) (version : Nat) (newBase : Option Snapshot) (message : String)
  | trouble (tag : Trouble) (edit : Option Editing) (newBase : Option Snapshot) (message : String)

/-- The variables of the closure. -/
structure Coordinator where
  state : Flow := .loading
  epoch : Nat := 0
  sequence : Nat := 0
  closed : Bool := false
  occupied : Bool := false
  minimum : Nat := 0
  observed : Option Snapshot := none
  objects : Nat := 0

/-- An entry point that does nothing returns `false` or throws. -/
inductive Declined where
  | no
  | threw
  deriving DecidableEq

/-- A value or an exception. -/
def orThrow {α : Type} : Option α → Except Declined α
  | some a => .ok a
  | none => .error .threw

/-- `snapshot`. -/
def snapshot (client : Client) (value : Data) : Option Snapshot := do
  let clean ← capture 0 value
  let version ← client.inspectDataFor clean
  let version ← safeVersion version
  some ⟨clean, version⟩

namespace Coordinator

/-- `clear`; `detach` and the listeners of the window are left out. -/
def clear (c : Coordinator) : Coordinator :=
  if c.closed then c
  else
    { c with
        closed := true, epoch := c.epoch + 1, sequence := c.sequence + 1, observed := none
        state := .authentication, occupied := false, minimum := 0 }

/-- `begin`. -/
def begin (client : Client) (c : Coordinator) (id : String) (draft : Data)
    (identity : Option String) : Except Declined Coordinator :=
  if c.closed || c.occupied then .error .no
  else
    match c.state with
    | .reading base => do
        let clean ← orThrow (capture 0 draft)
        let command : Command := ⟨id, base.version, clean, identity, c.objects⟩
        if client.prepare command then
          .ok { c with
                  sequence := c.sequence + 1, observed := none, minimum := base.version
                  state := .draft ⟨base, clean, command⟩, objects := c.objects + 1 }
        else .error .threw
    | _ => .error .no

/-- `poll`. -/
def poll (client : Client) (c : Coordinator) (value : Data) : Except Declined Coordinator :=
  if c.closed || c.occupied then .error .no
  else
    match c.state with
    | .reading old => do
        let fresh ← orThrow (snapshot client value)
        if fresh.version < old.version then .error .no
        else if fresh.version = old.version ∧ fresh.value.same old.value = false then .error .threw
        else .ok { c with state := .reading fresh }
    | .draft edit => do
        let fresh ← orThrow (snapshot client value)
        if fresh.version < edit.base.version
            ∨ c.observed.any (fun seen => fresh.version < seen.version) then .error .no
        else if fresh.version = edit.base.version ∧ fresh.value.same edit.base.value = false then
          .error .threw
        else .ok { c with observed := some fresh }
    | _ => .error .no

/-- `cancel`. -/
def cancel (c : Coordinator) : Except Declined Coordinator :=
  if c.closed || !c.occupied then .error .no
  else
    match c.state with
    | .pending edit =>
        .ok { c with
                sequence := c.sequence + 1, occupied := false
                state := .trouble .unknown (some edit) none
                  "Resultado desconhecido. Releia o estado antes de decidir." }
    | _ => .error .no

/-- `review`. -/
def review (client : Client) (c : Coordinator) (draft : Data) : Except Declined Coordinator :=
  if c.closed || c.occupied then .error .no
  else
    match c.state with
    | .trouble .conflict (some edit) (some base) _ => do
        let clean ← orThrow (capture 0 draft)
        let command : Command :=
          { edit.command with version := base.version, draft := clean, object := c.objects }
        if client.prepare command then
          .ok { c with
                  state := .draft ⟨base, clean, command⟩, observed := none
                  objects := c.objects + 1 }
        else .error .threw
    | _ => .error .no

/-- `finish`. -/
def finish (c : Coordinator) : Except Declined Coordinator :=
  if c.closed || c.occupied then .error .no
  else
    match c.state with
    | .success _ _ (some base) _ => .ok { c with state := .reading base, observed := none }
    | _ => .error .no

/-- `change`. -/
def change (client : Client) (c : Coordinator) (draft : Data) : Except Declined Coordinator :=
  if c.closed || c.occupied then .error .no
  else
    match c.state with
    | .draft edit => do
        let clean ← orThrow (capture 0 draft)
        let command : Command := { edit.command with draft := clean, object := c.objects }
        if client.prepare command then
          .ok { c with
                  state := .draft { edit with draft := clean, command := command }
                  objects := c.objects + 1 }
        else .error .threw
    | _ => .error .no

/-- `discard`. -/
def discard (c : Coordinator) : Except Declined Coordinator :=
  if c.closed || c.occupied then .error .no
  else
    match c.state with
    | .draft edit => .ok { c with state := .reading edit.base, observed := none }
    | _ => .error .no

/-- `load` up to its read. -/
def load (c : Coordinator) : Option Coordinator :=
  if c.closed || c.occupied then none
  else
    match c.state with
    | .loading | .reading _ | .trouble .incompatible none _ _ =>
        some { c with sequence := c.sequence + 1, state := .loading }
    | _ => none

/-- The state with which `reconcile` waits: the base that was read before is gone. -/
def revoke : Flow → Option Flow
  | .success edit version _ _ =>
      some (.success edit version none "Salva; visualização ainda não atualizada.")
  | .trouble tag edit _ message =>
      if tag = .conflict ∨ tag = .unknown ∨ tag = .uncertain then
        some (.trouble tag edit none message)
      else none
  | _ => none

/-- `reconcile` up to its read. -/
def reconcile (c : Coordinator) : Option Coordinator :=
  if c.closed || c.occupied then none
  else
    match revoke c.state with
    | some state => some { c with state := state, occupied := true, sequence := c.sequence + 1 }
    | none => none

/-- The edit that `confirm` sends. -/
def confirms : Flow → Option Editing
  | .draft edit => some edit
  | .trouble .busy edit _ _ => edit
  | _ => none

/-- `confirm` up to its call of `mutate`; `prepare` may throw. -/
def confirm (client : Client) (c : Coordinator) : Except Declined (Coordinator × Editing) :=
  if c.closed || c.occupied then .error .no
  else
    match confirms c.state with
    | some edit =>
        if client.prepare edit.command then
          .ok ({ c with state := .pending edit, occupied := true, sequence := c.sequence + 1 },
            edit)
        else .error .threw
    | none => .error .no

end Coordinator

/-! ### Requests -/

/-- What a request throws: `AccessError` says whether the session is over. -/
inductive Fault where
  | authentication
  | other
  deriving DecidableEq

/-- Where a call of `mutate` is. -/
inductive Flight where
  | inFlight
  | settled (answer : Except Fault Outcome)

/-- What a continuation goes on with. -/
inductive Purpose where
  | load
  | reconcile (prior : Flow)
  | confirm (edit : Editing) (flight : Flight)

/-- A request that was not answered yet, with the `mine` and the `ticket` of its continuation. -/
structure Waiting where
  epoch : Nat
  ticket : Nat
  purpose : Purpose
  overtaken : Bool := false

/-- How a command ended. -/
inductive Ending where
  | success
  | failed (trouble : Trouble)
  | cancelled
  deriving DecidableEq

/-- What has happened. -/
inductive Note where
  | begun (edit : Editing)
  | changed (edit : Editing)
  | reviewed (edit : Editing)
  | sent (command : Command)
  /-- with the version that the outcome reported -/
  | ended (how : Ending) (command : Command) (version : Option Nat)
  /-- a read became the new base -/
  | reread (base : Snapshot)

/-- The coordinator, the client and the requests that wait. -/
structure World where
  coordinator : Coordinator
  /-- `ended` of the client -/
  ended : Bool
  /-- `writing` of the client -/
  writing : Bool
  elsewhere : Bool
  waiting : List Waiting := []
  log : List Note := []

/-- What can happen next. -/
inductive Event where
  | load
  | begin (id : String) (draft : Data) (identity : Option String)
  | poll (value : Data)
  | change (draft : Data)
  | confirm
  | cancel
  | reconcile
  | review (draft : Data)
  | finish
  | discard
  | close
  | release
  | clientEnds
  /-- the read of `load` or of `reconcile` is answered -/
  | answered (ticket : Nat) (answer : Except Fault Data)
  /-- `mutate` has its outcome -/
  | settles (ticket : Nat) (answer : Except Fault Outcome)
  /-- `confirm` goes on with it -/
  | resumes (ticket : Nat)
  | othersSend
  | othersSettle

namespace Waiting

/-- The guard of every continuation. -/
def current (r : Waiting) (c : Coordinator) : Bool :=
  !c.closed && r.epoch == c.epoch && r.ticket == c.sequence

/-- A mutation of this request is on its way. -/
def inFlight (r : Waiting) : Bool :=
  match r.purpose with
  | .confirm _ .inFlight => true
  | _ => false

/-- The request with the outcome of its mutation. -/
def settle (r : Waiting) (answer : Except Fault Outcome) : Waiting :=
  match r.purpose with
  | .confirm edit _ => { r with purpose := .confirm edit (.settled answer) }
  | _ => r

end Waiting

/-- Every request that waits is overtaken. -/
def overtake (waiting : List Waiting) : List Waiting :=
  waiting.map fun r => { r with overtaken := true }

/-- `coordinate`, with a client that may be at its end, and busy for others. -/
def coordinate (ended elsewhere : Bool) : World :=
  { coordinator := if ended then Coordinator.clear {} else {}
    ended := ended
    writing := elsewhere
    elsewhere := elsewhere }

namespace World

/-- An entry point that is over when it returns. -/
def enter (w : World) (entry : Except Declined Coordinator) : World :=
  match entry with
  | .ok c => { w with coordinator := c }
  | .error _ => w

/-- The edit in hand, where there is a draft. -/
def noteEdit (note : Editing → Note) (w : World) : World :=
  match w.coordinator.state with
  | .draft edit => { w with log := note edit :: w.log }
  | _ => w

/-- An entry point that leaves a new draft. -/
def enterDraft (w : World) (note : Editing → Note) (entry : Except Declined Coordinator) : World :=
  match entry with
  | .ok c => noteEdit note { w with coordinator := c }
  | .error _ => w

/-- `begin`, which takes over from a read. -/
def begin (client : Client) (w : World) (id : String) (draft : Data) (identity : Option String) :
    World :=
  match w.coordinator.begin client id draft identity with
  | .ok c => noteEdit .begun { w with coordinator := c, waiting := overtake w.waiting }
  | .error _ => w

/-- `cancel`. -/
def cancel (w : World) : World :=
  match w.coordinator.state, w.coordinator.cancel with
  | .pending edit, .ok c =>
      { w with
          coordinator := c, waiting := overtake w.waiting
          log := .ended .cancelled edit.command none :: w.log }
  | _, _ => w

/-- `release`, and what the client calls when it ends. -/
def clear (w : World) : World :=
  { w with coordinator := w.coordinator.clear, waiting := overtake w.waiting }

/-- `close`: the coordinator, then the client. -/
def close (w : World) : World := { w.clear with ended := true }

/-- A request for which the continuation has to wait. -/
def await (w : World) (c : Coordinator) (purpose : Purpose) : World :=
  { w with
      coordinator := c
      waiting := ⟨c.epoch, c.sequence, purpose, false⟩ :: overtake w.waiting }

/-- `load`. -/
def load (w : World) : World :=
  match w.coordinator.load with
  | some c => w.await c .load
  | none => w

/-- `reconcile`. -/
def reconcile (w : World) : World :=
  match w.coordinator.reconcile with
  | some c => w.await c (.reconcile w.coordinator.state)
  | none => w

/-- `confirm`, and of `mutate` what comes before it waits. -/
def confirm (client : Client) (w : World) : World :=
  match w.coordinator.confirm client with
  | .ok (c, edit) =>
      if w.ended then w.await c (.confirm edit (.settled (.error .authentication)))
      else if w.writing then w.await c (.confirm edit (.settled (.error .other)))
      else if client.prepare edit.command then
        { w.await c (.confirm edit .inFlight) with
            writing := true, log := .sent edit.command :: w.log }
      else w.await c (.confirm edit (.settled (.error .other)))
  | .error _ => w

/-- The request is answered: its continuation has run. -/
def remove (w : World) (ticket : Nat) : World :=
  { w with waiting := w.waiting.filter (fun r => r.ticket ≠ ticket) }

/-- The continuation of `load`. -/
def loaded (client : Client) (w : World) (answer : Except Fault Data) : World :=
  match answer with
  | .error .authentication => w.close
  | .error .other =>
      { w with coordinator.state :=
          .trouble .incompatible none none "Leitura indisponível. Tente novamente." }
  | .ok value =>
      match snapshot client value with
      | some fresh => { w with coordinator.state := .reading fresh }
      | none =>
          { w with coordinator.state :=
              .trouble .incompatible none none "Leitura indisponível. Tente novamente." }

/-- The version below which a read is no new base. -/
def floor : Flow → Option Nat
  | .success _ version _ _ => some version
  | .trouble _ edit _ _ => edit.map fun edit => edit.base.version
  | _ => none

/-- The state after a new base was read. -/
def rebase (prior : Flow) (fresh : Snapshot) : Flow :=
  match prior with
  | .success edit version _ _ =>
      .success edit version (some fresh) "Salva; visualização atualizada."
  | .trouble tag edit _ message => .trouble tag edit (some fresh) message
  | state => state

/-- The continuation of `reconcile`. -/
def reconciled (client : Client) (w : World) (prior : Flow) (answer : Except Fault Data) : World :=
  match answer with
  | .error .authentication => w.close
  | .error .other => { w with coordinator.occupied := false }
  | .ok value =>
      match snapshot client value with
      | some fresh =>
          if fresh.version < w.coordinator.minimum
              ∨ (floor prior).any (fun least => fresh.version < least) then
            { w with coordinator.occupied := false }
          else
            { w with
                coordinator := { w.coordinator with occupied := false, state := rebase prior fresh }
                log := .reread fresh :: w.log }
      | none => { w with coordinator.occupied := false }

/-- The continuation of `confirm` sets its state and reads. -/
def ends (w : World) (state : Flow) (how : Ending) (command : Command) (version : Option Nat) :
    World :=
  reconcile
    { w with
        coordinator := { w.coordinator with state := state, occupied := false }
        log := .ended how command version :: w.log }

/-- An exception in `confirm`. -/
def unknown (w : World) (edit : Editing) (version : Option Nat) : World :=
  w.ends
    (.trouble .unknown (some edit) none "Resultado desconhecido. Releia o estado antes de decidir.")
    (.failed .unknown) edit.command version

/-- The continuation of `confirm` with an outcome whose version, if any, is safe. -/
def outcome (w : World) (edit : Editing) (kind : Kind) (version : Option Nat) (message : String) :
    World :=
  let w := { w with coordinator.minimum := version.getD edit.base.version }
  match kind with
  | .authentication => w.close
  | .success =>
      if version = some (edit.base.version + 1) then
        w.ends (.success edit (edit.base.version + 1) none message) .success edit.command version
      else w.unknown edit version
  | .failed trouble =>
      w.ends (.trouble trouble (some edit) none message) (.failed trouble) edit.command version

/-- The continuation of `confirm`. -/
def confirmed (w : World) (edit : Editing) (answer : Except Fault Outcome) : World :=
  match answer with
  | .error .authentication => w.close
  | .error .other => w.unknown edit none
  | .ok result =>
      match result.version with
      | none => w.outcome edit result.kind none result.message
      | some version =>
          match safeVersion version with
          | some version => w.outcome edit result.kind (some version) result.message
          | none => w.unknown edit none

/-- A read is answered. -/
def answered (client : Client) (w : World) (r : Waiting) (answer : Except Fault Data) :
    Option World :=
  match r.purpose with
  | .load => if r.current w.coordinator then loaded client (w.remove r.ticket) answer
      else some (w.remove r.ticket)
  | .reconcile prior =>
      if r.current w.coordinator then reconciled client (w.remove r.ticket) prior answer
      else some (w.remove r.ticket)
  | .confirm _ _ => none

/-- `mutate` has its outcome, and `confirm` will go on. -/
def settles (w : World) (r : Waiting) (answer : Except Fault Outcome) : Option World :=
  if r.inFlight then
    some { w with
             writing := false
             waiting := w.waiting.map fun other =>
               if other.ticket = r.ticket then other.settle answer else other }
  else none

/-- `confirm` goes on. -/
def resumes (w : World) (r : Waiting) : Option World :=
  match r.purpose with
  | .confirm edit (.settled answer) =>
      if r.current w.coordinator then some ((w.remove r.ticket).confirmed edit answer)
      else some (w.remove r.ticket)
  | _ => none

/-- The request with a ticket. -/
def request (w : World) (ticket : Nat) : Option Waiting :=
  w.waiting.find? fun r => r.ticket = ticket

/-- One event. -/
def step (client : Client) (w : World) : Event → Option World
  | .load => some w.load
  | .begin id draft identity => some (w.begin client id draft identity)
  | .poll value => some (w.enter (w.coordinator.poll client value))
  | .change draft => some (w.enterDraft .changed (w.coordinator.change client draft))
  | .confirm => some (w.confirm client)
  | .cancel => some w.cancel
  | .reconcile => some w.reconcile
  | .review draft => some (w.enterDraft .reviewed (w.coordinator.review client draft))
  | .finish => some (w.enter w.coordinator.finish)
  | .discard => some (w.enter w.coordinator.discard)
  | .close => some w.close
  | .release => some w.clear
  | .clientEnds => some w.close
  | .answered ticket answer => do
      let r ← w.request ticket
      w.answered client r answer
  | .settles ticket answer => do
      let r ← w.request ticket
      w.settles r answer
  | .resumes ticket => do
      let r ← w.request ticket
      w.resumes r
  | .othersSend => if w.ended || w.writing then none
      else some { w with writing := true, elsewhere := true }
  | .othersSettle => if w.elsewhere then some { w with writing := false, elsewhere := false }
      else none

end World

end MaskGateway.Frontend
