import MaskGateway.Lib.Machine

/-!
# `MaskGateway.Pgwire.Listener`: slots, connections and the end of a listener

`PgwireListener` (`pgwire/listener.py`): an acceptor thread, one thread for each admitted
connection, one effective call of `start`, and any number of calls of `request_stop` and `stop`.

`Machine` runs all of them by their lock sections and by what they do between two sections: the
reads and writes of a shared field outside the lock are steps of their own. What the system
answers to a step (whether a bind, the start of a thread or the close of a socket fails) is part of
the event. A call returns or raises with its last section.

Not in the machine: the bytes of a connection (`run_startup_session` is any number of calls of
`_promote`), and what the admission bucket counts (whether it has a token is part of the event).
`accepted`, `closes`, `called` and `stopped` are not in the code: they number what was accepted and
list what was called.
-/

set_option autoImplicit false

namespace MaskGateway.Pgwire.Listener

/-- A connection, by the number of its `accept`. -/
abbrev ConnId := Nat

/-- One call of `stop`. -/
abbrev StopId := Nat

/-- `ListenerState`. -/
inductive ListenerState where
  | new
  | starting
  | running
  | broken
  | stopping
  | stopped
  | incomplete
  deriving DecidableEq

/-! ### Threads with an owner -/

/-- `_Owned.state`. -/
inductive Ownership where
  | idle
  | starting
  | started
  deriving DecidableEq

/-- Where a thread is. -/
inductive Life where
  | unborn
  /-- before the section of `_wrapper` -/
  | born
  /-- in its body -/
  | inside
  /-- It found itself cancelled. -/
  | skipped
  /-- after `done.set()` -/
  | ending
  | dead
  deriving DecidableEq

/-- `_Owned`, with its thread. -/
structure Owned where
  state : Ownership := .idle
  ran : Bool := false
  cancelled : Bool := false
  done : Bool := false
  life : Life := .unborn
  deriving DecidableEq

/-- A step of a thread by itself. -/
inductive ThreadEvent where
  | birth
  | enter
  | leave
  | die
  deriving DecidableEq

namespace Owned

/-- `thread.is_alive()`. -/
def isAlive (o : Owned) : Bool := o.life ≠ .unborn ∧ o.life ≠ .dead

/-- The first section of `start`. -/
def attempt (o : Owned) : Owned := { o with state := .starting }

/-- The section of `start` after `thread.start()` returned. -/
def confirm (o : Owned) : Owned := { o with state := .started }

/-- The section of `start` after `thread.start()` raised. -/
def abandon (o : Owned) : Owned := if o.ran then o else { o with cancelled := true }

/-- `joinable`. -/
def joinable (o : Owned) : Bool := o.state = .started ∨ o.ran = true ∨ o.done = true

/-- `cancelled_before_entering`. -/
def cancelledBeforeEntering (o : Owned) : Bool := o.cancelled && !o.ran

/-- The section of `settled`. -/
def cancel (o : Owned) : Owned :=
  if o.ran = false ∧ o.state ≠ .started then { o with cancelled := true } else o

/-- What `settled` says after its section, unless it found `idle`. -/
def ended (o : Owned) : Bool := o.done && !o.isAlive

/-- One step of the thread, where it can happen. A `start()` that was tried gives birth to the
thread, or does not. -/
def step (o : Owned) : ThreadEvent → Option Owned
  | .birth =>
      if o.life = .unborn ∧ o.state = .starting then some { o with life := .born } else none
  | .enter =>
      if o.life = .born then
        some (if o.cancelled then { o with life := .skipped }
          else { o with ran := true, life := .inside })
      else none
  | .leave =>
      if o.life = .inside ∨ o.life = .skipped then some { o with done := true, life := .ending }
      else none
  | .die => if o.life = .ending then some { o with life := .dead } else none

end Owned

/-- `_Connection`. -/
structure Connection where
  owned : Owned := {}
  authenticated : Bool := false
  closed : Bool := false
  closeFailed : Bool := false
  deriving DecidableEq

/-! ### Where the calls are -/

/-- Where the acceptor is in its body. -/
inductive AcceptPc where
  | outside
  /-- before `while not self._stop.is_set()` -/
  | top
  /-- in `_reap`, of the loop or after it -/
  | reaping (last : Bool)
  | looking
  | accepting
  /-- before the section of `_admit` -/
  | admitting (conn : ConnId)
  /-- registered, before the first section of its `start` -/
  | starting (conn : ConnId)
  /-- before `thread.start()` returns or raises -/
  | calling (conn : ConnId)
  | confirming (conn : ConnId)
  | abandoning (conn : ConnId)
  /-- before `_mark_broken`, and the loop again -/
  | breaking
  /-- in `_refuse` -/
  | refusing (conn : ConnId)
  /-- before the section that retains a socket, in `_refuse` or in `_release_unregistered` -/
  | retaining (conn : ConnId) (refused : Bool)
  /-- The admission raised: before `_mark_broken`. -/
  | raised (conn : ConnId)
  /-- before the section of `_release_unregistered` -/
  | releasing (conn : ConnId)
  | closing (conn : ConnId)
  | finished
  deriving DecidableEq

/-- Where the call of `start` is that found the listener new. -/
inductive StartPc where
  | before
  /-- in `_bind`, before the socket is made -/
  | making
  | binding
  | bound
  | bindFailed (made : Bool)
  /-- before the `_stop.set()` of `_bind` -/
  | signalling (made : Bool)
  /-- in `_close_listener_socket`, before it looks at the flags, and after -/
  | closing
  | closingSocket
  | attempting
  /-- before `thread.start()` returns or raises -/
  | calling
  | confirming
  | abandoning
  | breaking
  | signallingBroken
  /-- before its last section -/
  | ending (ok : Bool)
  | finished (ok : Bool)
  deriving DecidableEq

/-- Where a call of `stop` is. -/
inductive StopPc where
  | idle
  /-- before the section of the first `acceptor.settled()` -/
  | settling
  | testing
  | joining
  | copying
  /-- before the section of `settled` of the first of these records -/
  | settlingOf (todo : List ConnId)
  | testingOf (todo : List ConnId)
  | joiningOf (todo : List ConnId)
  | reaping
  /-- before the section of the second `acceptor.settled()`, after it, and before the section of
  `cancelled_before_entering` -/
  | resettling
  | reading
  | judging
  /-- in `_close_listener_socket`, before it looks at the flags, and after -/
  | closing
  | closingSocket
  /-- before the section that copies `_retained` -/
  | retained
  /-- before the section of the last `acceptor.settled()`, and after it -/
  | checking (empty : Bool)
  | rereading (empty : Bool)
  /-- before the look at the socket -/
  | looking (settled empty : Bool)
  /-- before its last section -/
  | last (complete : Bool)
  | finished
  deriving DecidableEq

/-- Who is in `_reap`. -/
inductive Reaper where
  | acceptor
  | stop (call : StopId)
  deriving DecidableEq

/-- Where `_reap` is with a record. -/
inductive ReapPc where
  /-- before the section of `settled` -/
  | settling
  | reading
  /-- before the section of `cancelled_before_entering` -/
  | judging (settled : Bool)
  | closing (settled : Bool)
  | breaking (settled : Bool)
  /-- before the section that removes the record -/
  | dropping (settled : Bool)
  deriving DecidableEq

/-- The holder of `_reap_lock`, with the records it still has to look at. -/
structure Reap where
  owner : Reaper
  todo : List ConnId
  pc : ReapPc := .settling
  deriving DecidableEq

/-- The listener, its threads and the calls on it. -/
structure Machine where
  preAuthSlots : Nat
  sessionSlots : Nat
  state : ListenerState := .new
  /-- `_stop` -/
  stop : Bool := false
  preAuth : Nat := 0
  auth : Nat := 0
  connections : List ConnId := []
  retained : List ConnId := []
  /-- `_socket` is not `None` -/
  socket : Bool := false
  socketClosed : Bool := false
  socketCloseFailed : Bool := false
  startInFlight : Bool := false
  acceptor : Owned := {}
  accept : AcceptPc := .outside
  start : StartPc := .before
  record : ConnId → Connection := fun _ => {}
  /-- `_reap_lock` -/
  reap : Option Reap := none
  stops : StopId → StopPc := fun _ => .idle
  accepted : Nat := 0
  /-- the connections whose socket `close()` was called on -/
  closes : List ConnId := []
  called : Nat := 0
  /-- A call of `stop` has set `STOPPED`. -/
  stopped : Bool := false

/-- What `accept()` does. -/
inductive Accepted where
  /-- a time-out, or a connection that was reset -/
  | nothing
  | fatal
  | connection
  deriving DecidableEq

/-- What `_admit` meets in its section. -/
inductive Admission where
  /-- whether the bucket has a token, and whether the thread can be made -/
  | tries (token created : Bool)
  | raises
  deriving DecidableEq

/-- What `_close_socket` meets. -/
inductive Closing where
  | closes
  | fails
  /-- The refusal raises before the close. -/
  | raises
  deriving DecidableEq

/-- A step of the body of the acceptor. -/
inductive AcceptEvent where
  | next
  | accept (result : Accepted)
  | admits (admission : Admission)
  | threadStart (ok : Bool)
  | close (closing : Closing)
  deriving DecidableEq

/-- A step of any thread or call. -/
inductive Event where
  | start
  /-- the next step of that call; `ok` is what the system answers -/
  | startNext (ok : Bool)
  | requestStop
  | stop
  | stopNext (call : StopId) (ok : Bool)
  | acceptor (event : ThreadEvent)
  | accept (event : AcceptEvent)
  | connection (conn : ConnId) (event : ThreadEvent)
  | promote (conn : ConnId)
  | reap (reaper : Reaper)
  | reapNext (ok : Bool)
  deriving DecidableEq

namespace Machine

/-- `PgwireListener.__init__`. -/
def init (preAuthSlots sessionSlots : Nat) : Machine := { preAuthSlots, sessionSlots }

/-- `_mark_broken`. -/
def markBroken (m : Machine) : Machine :=
  if m.state = .running ∨ m.state = .starting then { m with state := .broken } else m

/-- The test of `_close_listener_socket`. -/
def closable (m : Machine) : Bool := m.socket && !m.socketClosed && !m.socketCloseFailed

/-- The close of `_close_listener_socket`. -/
def closeListenerSocket (m : Machine) (ok : Bool) : Machine :=
  if ok then { m with socketClosed := true } else { m with socketCloseFailed := true }

/-- The listening socket, if there is one, is closed. -/
def socketDone (m : Machine) : Bool := !m.socket || m.socketClosed

/-- A record becomes another. -/
def put (m : Machine) (i : ConnId) (r : Connection) : Machine :=
  { m with record := Function.update m.record i r }

/-- The thread of a record becomes another. -/
def own (m : Machine) (i : ConnId) (o : Owned) : Machine :=
  m.put i { m.record i with owned := o }

/-! ### `start` -/

/-- The section of `start`. What is not new is refused. -/
def beginStart (m : Machine) : Machine :=
  if m.state = .new then { m with state := .starting, startInFlight := true, start := .making }
  else m

/-- The next step of `start`, after its first section. -/
def startStep (m : Machine) (ok : Bool) : Option Machine :=
  match m.start with
  | .before => none
  | .making =>
      some (if ok then { m with socket := true, start := .binding }
        else { m with start := .bindFailed false })
  | .binding => some { m with start := if ok then .bound else .bindFailed true }
  | .bindFailed made =>
      some { m with
        state := if m.state = .starting then .incomplete else m.state
        start := .signalling made }
  | .signalling made =>
      some { m with stop := true, start := if made then .closing else .ending false }
  | .bound =>
      some (if m.state = .starting ∧ m.stop = false then
          { m with state := .running, start := .attempting }
        else { m with start := .closing })
  | .closing => some { m with start := if m.closable then .closingSocket else .ending false }
  | .closingSocket => some { m.closeListenerSocket ok with start := .ending false }
  | .attempting => some { m with acceptor := m.acceptor.attempt, start := .calling }
  | .calling =>
      if ok then
        if m.acceptor.life = .unborn then none else some { m with start := .confirming }
      else some { m with start := .abandoning }
  | .confirming => some { m with acceptor := m.acceptor.confirm, start := .ending true }
  | .abandoning => some { m with acceptor := m.acceptor.abandon, start := .breaking }
  | .breaking => some { m.markBroken with start := .signallingBroken }
  | .signallingBroken => some { m with stop := true, start := .ending false }
  | .ending ok => some { m with startInFlight := false, start := .finished ok }
  | .finished _ => none

/-! ### The acceptor -/

/-- A step of the acceptor thread. Its body is over before it leaves. -/
def acceptorStep (m : Machine) (event : ThreadEvent) : Option Machine :=
  match event, m.accept with
  | .leave, .outside => (m.acceptor.step .leave).map fun o => { m with acceptor := o }
  | .leave, .finished =>
      (m.acceptor.step .leave).map fun o => { m with acceptor := o, accept := .outside }
  | .leave, _ => none
  | .enter, _ =>
      (m.acceptor.step .enter).map fun o => { m with
        acceptor := o
        accept := if o.life = .inside then (if m.socket then .top else .finished) else m.accept }
  | event, _ => (m.acceptor.step event).map fun o => { m with acceptor := o }

/-- The section of `_admit`. -/
def admits (m : Machine) (i : ConnId) : Admission → Machine
  | .tries token created =>
      if m.state = .running ∧ token = true ∧ m.preAuth < m.preAuthSlots ∧ created = true then
        { m with
          connections := m.connections ++ [i]
          preAuth := m.preAuth + 1
          accept := .starting i }
      else { m with accept := .refusing i }
  | .raises => { m with accept := .raised i }

/-- One step of the body of the acceptor, where it can happen. -/
def acceptStep (m : Machine) (event : AcceptEvent) : Option Machine :=
  match m.accept, event with
  | .top, .next => some { m with accept := .reaping m.stop }
  | .looking, .next =>
      some { m with accept := if m.state = .running then .accepting else .top }
  | .accepting, .accept .nothing => some { m with accept := .top }
  | .accepting, .accept .fatal => some { m with accept := .breaking }
  | .accepting, .accept .connection =>
      some { m with accept := .admitting m.accepted, accepted := m.accepted + 1 }
  | .admitting i, .admits admission => some (m.admits i admission)
  | .starting i, .next =>
      some { m.own i (m.record i).owned.attempt with accept := .calling i }
  | .calling i, .threadStart true =>
      if (m.record i).owned.life = .unborn then none else some { m with accept := .confirming i }
  | .calling i, .threadStart false => some { m with accept := .abandoning i }
  | .confirming i, .next => some { m.own i (m.record i).owned.confirm with accept := .top }
  | .abandoning i, .next => some { m.own i (m.record i).owned.abandon with accept := .breaking }
  | .breaking, .next => some { m.markBroken with accept := .top }
  | .refusing i, .close .closes => some { m with closes := m.closes ++ [i], accept := .top }
  | .refusing i, .close .fails =>
      some { m with closes := m.closes ++ [i], accept := .retaining i true }
  | .refusing i, .close .raises => some { m with accept := .raised i }
  | .retaining i refused, .next =>
      some { m with
        retained := m.retained ++ [i]
        accept := if refused then .breaking else .top }
  | .raised i, .next => some { m.markBroken with accept := .releasing i }
  | .releasing i, .next =>
      some { m with
        accept := if i ∈ m.connections ∨ i ∈ m.retained then .top else .closing i }
  | .closing i, .close .closes => some { m with closes := m.closes ++ [i], accept := .top }
  | .closing i, .close .fails =>
      some { m with closes := m.closes ++ [i], accept := .retaining i false }
  | _, _ => none

/-! ### Connections -/

/-- `_promote`, called from the body of the thread of a record. -/
def promote (m : Machine) (i : ConnId) : Option Machine :=
  let r := m.record i
  if r.owned.life ≠ .inside then none
  else if m.state ≠ .running ∨ m.stop = true ∨ r.authenticated = true ∨
      m.sessionSlots ≤ m.auth then some m
  else
    some { m.put i { r with authenticated := true } with
      auth := m.auth + 1, preAuth := m.preAuth - 1 }

/-! ### `_reap` -/

/-- `_reap` goes on. -/
def reapAt (m : Machine) (r : Reap) (pc : ReapPc) : Machine :=
  { m with reap := some { r with pc := pc } }

/-- The two locks of `_reap`: it is alone, and it copies the records. -/
def beginReap (m : Machine) (owner : Reaper) : Option Machine :=
  let called := match owner with
    | .acceptor => m.accept == .reaping true || m.accept == .reaping false
    | .stop k => m.stops k == .reaping
  if m.reap = none ∧ called = true then
    some { m with reap := some { owner, todo := m.connections } }
  else none

/-- `_reap` returns to its caller. -/
def endReap (m : Machine) (owner : Reaper) : Machine :=
  match owner with
  | .acceptor =>
      { m with
        reap := none
        accept := if m.accept = .reaping true then .finished else .looking }
  | .stop k => { m with reap := none, stops := Function.update m.stops k .resettling }

/-- The section that removes a record and gives its slot back. -/
def drop (m : Machine) (i : ConnId) : Machine :=
  if (m.record i).authenticated then
    { m with connections := m.connections.erase i, auth := m.auth - 1 }
  else { m with connections := m.connections.erase i, preAuth := m.preAuth - 1 }

/-- The next step of `_reap`. -/
def reapStep (m : Machine) (ok : Bool) : Option Machine :=
  match m.reap with
  | none => none
  | some r =>
      match r.todo with
      | [] => some (m.endReap r.owner)
      | i :: todo =>
          let c := m.record i
          match r.pc with
          | .settling =>
              some ((m.own i c.owned.cancel).reapAt r
                (if c.owned.state = .idle then .judging true else .reading))
          | .reading => some (m.reapAt r (.judging c.owned.ended))
          | .judging settled =>
              let closable := settled || c.owned.cancelledBeforeEntering
              some (m.reapAt r (if closable && !c.closed && !c.closeFailed then .closing settled
                else .dropping settled))
          | .closing settled =>
              if ok then
                some ({ m.put i { c with closed := true } with
                  closes := m.closes ++ [i] }.reapAt r (.dropping settled))
              else
                some ({ m.put i { c with closeFailed := true } with
                  closes := m.closes ++ [i] }.reapAt r (.breaking settled))
          | .breaking settled => some (m.markBroken.reapAt r (.dropping settled))
          | .dropping settled =>
              some { (if settled && c.closed then m.drop i else m) with
                reap := some { r with todo := todo, pc := .settling } }

/-! ### `request_stop` and `stop` -/

/-- `request_stop`. -/
def requestStop (m : Machine) : Machine :=
  { m with
    state :=
      if m.state = .new then .stopped
      else if m.state = .starting ∨ m.state = .running ∨ m.state = .broken then .stopping
      else m.state
    stop := true }

/-- A call of `stop` goes on. -/
def stopAt (m : Machine) (k : StopId) (pc : StopPc) : Machine :=
  { m with stops := Function.update m.stops k pc }

/-- The first section of `stop`. -/
def beginStop (m : Machine) : Machine :=
  if m.state = .new then
    { m.stopAt m.called .finished with
      state := .stopped, stop := true, stopped := true, called := m.called + 1 }
  else
    { m.stopAt m.called .settling with
      state := if m.state = .stopped then .stopped else .stopping
      stop := true, called := m.called + 1 }

/-- The last section of `stop`. -/
def endStop (m : Machine) (k : StopId) (complete : Bool) : Machine :=
  if complete = true ∧ m.connections = [] ∧ m.startInFlight = false then
    { m.stopAt k .finished with state := .stopped, stopped := true }
  else { m.stopAt k .finished with state := .incomplete }

/-- The next step of a call of `stop`. `join` waits for the end of a thread. -/
def stopStep (m : Machine) (k : StopId) (ok : Bool) : Option Machine :=
  match m.stops k with
  | .idle => none
  | .settling => some ({ m with acceptor := m.acceptor.cancel }.stopAt k .testing)
  | .testing => some (m.stopAt k (if m.acceptor.joinable then .joining else .copying))
  | .joining => if m.acceptor.life = .dead then some (m.stopAt k .copying) else none
  | .copying => some (m.stopAt k (.settlingOf m.connections))
  | .settlingOf [] => some (m.stopAt k .reaping)
  | .settlingOf (i :: todo) =>
      some ((m.own i (m.record i).owned.cancel).stopAt k (.testingOf (i :: todo)))
  | .testingOf todo =>
      match todo with
      | [] => none
      | i :: rest =>
          some (m.stopAt k
            (if (m.record i).owned.joinable then .joiningOf todo else .settlingOf rest))
  | .joiningOf todo =>
      match todo with
      | [] => none
      | i :: rest =>
          if (m.record i).owned.life = .dead then some (m.stopAt k (.settlingOf rest)) else none
  | .reaping => none
  | .resettling =>
      some ({ m with acceptor := m.acceptor.cancel }.stopAt k
        (if m.acceptor.state = Ownership.idle then .closing else .reading))
  | .reading => some (m.stopAt k (if m.acceptor.ended then .closing else .judging))
  | .judging =>
      some (m.stopAt k (if m.acceptor.cancelledBeforeEntering then .closing else .retained))
  | .closing => some (m.stopAt k (if m.closable then .closingSocket else .retained))
  | .closingSocket => some ((m.closeListenerSocket ok).stopAt k .retained)
  | .retained => some (m.stopAt k (.checking (decide (m.retained = []))))
  | .checking empty =>
      some ({ m with acceptor := m.acceptor.cancel }.stopAt k
        (if m.acceptor.state = Ownership.idle then .looking true empty else .rereading empty))
  | .rereading empty => some (m.stopAt k (.looking m.acceptor.ended empty))
  | .looking settled empty => some (m.stopAt k (.last (settled && m.socketDone && empty)))
  | .last complete => some (m.endStop k complete)
  | .finished => none

/-! ### Steps -/

/-- One step, where it can happen. -/
def step (m : Machine) : Event → Option Machine
  | .start => some m.beginStart
  | .startNext ok => m.startStep ok
  | .requestStop => some m.requestStop
  | .stop => some m.beginStop
  | .stopNext k ok => m.stopStep k ok
  | .acceptor event => m.acceptorStep event
  | .accept event => m.acceptStep event
  | .connection i event => ((m.record i).owned.step event).map fun o => m.own i o
  | .promote i => m.promote i
  | .reap owner => m.beginReap owner
  | .reapNext ok => m.reapStep ok

end Machine

end MaskGateway.Pgwire.Listener
