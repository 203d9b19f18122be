import MaskGateway.Pgwire.Listener

/-!
# `MaskGateway.Proofs.Pgwire.ListenerMoves`: what a step of the listener can do

`Moved` says once what each step does to the machine, with the conditions under which it does it.
The steps of one call that differ only in what they do to its own place and to the state are one
constructor each. The invariants of the listener are proved about `Moved` and never unfold a step.
-/

set_option autoImplicit false

namespace MaskGateway.Proofs.Pgwire.Listener

open MaskGateway.Pgwire.Listener

/-! ### Between the steps of one call -/

/-- The call of `start` that found the listener new is not over. -/
def inFlight : StartPc → Bool
  | .before | .finished _ => false
  | _ => true

/-- The acceptor was not tried yet by that call. -/
def untried : StartPc → Bool
  | .before | .making | .binding | .bound | .bindFailed _ | .signalling _ | .closing
  | .closingSocket | .attempting => true
  | _ => false

/-- What that call does to the owner of the acceptor on its way to the next place. -/
inductive Tries (m : Machine) : StartPc → Owned → Prop where
  | nothing (start : StartPc) (h : untried start = true → untried m.start = true) :
      Tries m start m.acceptor
  | attempt (start : StartPc) (hfrom : untried m.start = true) (hto : untried start = false) :
      Tries m start m.acceptor.attempt
  | confirm (start : StartPc) (hto : untried start = false) : Tries m start m.acceptor.confirm
  | abandon (start : StartPc) (hto : untried start = false) : Tries m start m.acceptor.abandon

/-- The acceptor was never tried, or has ended. -/
def acceptorDone (m : Machine) : Bool := m.acceptor.state = Ownership.idle ∨ m.acceptor.ended = true

/-- How a call of `stop` goes from one place to the next, on what it reads. -/
inductive Goes (m : Machine) : StopPc → StopPc → Prop where
  | joins : Goes m .testing .joining
  | skips (h : m.acceptor.joinable = false) : Goes m .testing .copying
  | joined (h : m.acceptor.life = .dead) : Goes m .joining .copying
  | copied : Goes m .copying (.settlingOf m.connections)
  /-- from record to record, to the sockets -/
  | along (pc pc' : StopPc)
      (h : match pc with
        | .settlingOf _ | .testingOf _ | .joiningOf _ | .reading | .judging | .closing => True
        | _ => False)
      (h' : match pc' with
        | .settlingOf _ | .testingOf _ | .joiningOf _ | .reaping | .judging | .closing
        | .closingSocket | .retained => True
        | _ => False) : Goes m pc pc'
  | looked : Goes m .retained (.checking (decide (m.retained = [])))
  | reread (empty : Bool) : Goes m (.rereading empty) (.looking m.acceptor.ended empty)
  | found (settled empty : Bool) :
      Goes m (.looking settled empty) (.last (settled && m.socketDone && empty))

/-- Where a call of `stop` goes with the section of `acceptor.settled()`. -/
inductive Settles (m : Machine) : StopPc → StopPc → Prop where
  | first : Settles m .settling .testing
  | second (pc : StopPc) (h : pc = .closing ∨ pc = .reading) : Settles m .resettling pc
  | idle (empty : Bool) (h : m.acceptor.state = .idle) :
      Settles m (.checking empty) (.looking true empty)
  | tried (empty : Bool) : Settles m (.checking empty) (.rereading empty)

/-- How the acceptor goes from one place to the next without anybody's help. -/
inductive Walks (m : Machine) : AcceptPc → AcceptPc → Prop where
  | loops (pc : AcceptPc) (h : pc = .looking ∨ pc = .accepting ∨ pc = .breaking) :
      Walks m pc .top
  | reaps (last : Bool) : Walks m .top (.reaping last)
  | looks : Walks m .looking .accepting
  | fails : Walks m .accepting .breaking
  | refuses (i : ConnId) : Walks m (.admitting i) (.refusing i)
  | raises (i : ConnId) (pc : AcceptPc) (h : pc = .admitting i ∨ pc = .refusing i) :
      Walks m pc (.raised i)
  | called (i : ConnId) (pc : AcceptPc) (h : pc = .confirming i ∨ pc = .abandoning i) :
      Walks m (.calling i) pc
  | releases (i : ConnId) : Walks m (.raised i) (.releasing i)
  | released (i : ConnId) (pc : AcceptPc) (h : pc = .top ∨ pc = .closing i) :
      Walks m (.releasing i) pc

/-- How the acceptor goes on after a socket was closed, or not. -/
inductive Closes : AcceptPc → ConnId → AcceptPc → Prop where
  | refused (i : ConnId) (pc : AcceptPc) (h : pc = .top ∨ pc = .retaining i true) :
      Closes (.refusing i) i pc
  | released (i : ConnId) (pc : AcceptPc) (h : pc = .top ∨ pc = .retaining i false) :
      Closes (.closing i) i pc

/-! ### Steps -/

/-- What a step can do. -/
inductive Moved (m : Machine) : Event → Machine → Prop where
  | idle (e : Event) : Moved m e m
  | begun (hnew : m.state = .new) :
      Moved m .start { m with state := .starting, startInFlight := true, start := .making }
  /-- `start` goes on. -/
  | starts (ok : Bool) (state : ListenerState) (stop socket closed closeFailed : Bool)
      (acceptor : Owned) (start : StartPc) (hfrom : inFlight m.start = true)
      (hto : inFlight start = true) (hstate : m.state ≠ .new → state ≠ .new)
      (hclosed : m.socketClosed = true → closed = true)
      (hacceptor : Tries m start acceptor) :
      Moved m (.startNext ok) { m with
        state := state, stop := stop, socket := socket, socketClosed := closed
        socketCloseFailed := closeFailed, acceptor := acceptor, start := start }
  | started (ok result : Bool) (hstart : m.start = .ending result) :
      Moved m (.startNext ok) { m with startInFlight := false, start := .finished result }
  | requested (state : ListenerState) (hstate : state ≠ .new) :
      Moved m .requestStop { m with state := state, stop := true }
  /-- A step of the acceptor thread, outside of its body. -/
  | thread (event : ThreadEvent) (o : Owned) (ho : m.acceptor.step event = some o)
      (hevent : event ≠ .leave) (hlife : o.life ≠ .inside) :
      Moved m (.acceptor event) { m with acceptor := o }
  | enters (o : Owned) (pc : AcceptPc) (ho : m.acceptor.step .enter = some o)
      (hlife : o.life = .inside) (hpc : pc = .top ∨ pc = .finished) :
      Moved m (.acceptor .enter) { m with acceptor := o, accept := pc }
  | leaves (o : Owned) (ho : m.acceptor.step .leave = some o)
      (hpc : m.accept = .finished ∨ m.accept = .outside) :
      Moved m (.acceptor .leave) { m with acceptor := o, accept := .outside }
  | walks (event : AcceptEvent) (state : ListenerState) (pc : AcceptPc)
      (hpc : Walks m m.accept pc) (hstate : m.state ≠ .new → state ≠ .new) :
      Moved m (.accept event) { m with state := state, accept := pc }
  | accepted (event : AcceptEvent) (hpc : m.accept = .accepting) :
      Moved m (.accept event) { m with
        accept := .admitting m.accepted, accepted := m.accepted + 1 }
  | admitted (event : AcceptEvent) (i : ConnId) (hpc : m.accept = .admitting i)
      (hrunning : m.state = .running) (hroom : m.preAuth < m.preAuthSlots) :
      Moved m (.accept event) { m with
        connections := m.connections ++ [i], preAuth := m.preAuth + 1, accept := .starting i }
  | tries (event : AcceptEvent) (i : ConnId) (hpc : m.accept = .starting i) :
      Moved m (.accept event)
        { m.own i (m.record i).owned.attempt with accept := .calling i }
  | tried (event : AcceptEvent) (i : ConnId) (o : Owned) (pc : AcceptPc)
      (hpc : m.accept = .confirming i ∧ o = (m.record i).owned.confirm ∨
        m.accept = .abandoning i ∧ o = (m.record i).owned.abandon)
      (hpc' : pc = .top ∨ pc = .breaking) :
      Moved m (.accept event) { m.own i o with accept := pc }
  | closes (event : AcceptEvent) (i : ConnId) (pc : AcceptPc) (hpc : Closes m.accept i pc) :
      Moved m (.accept event) { m with closes := m.closes ++ [i], accept := pc }
  | retains (event : AcceptEvent) (i : ConnId) (refused : Bool) (pc : AcceptPc)
      (hpc : m.accept = .retaining i refused) (hpc' : pc = .breaking ∨ pc = .top) :
      Moved m (.accept event) { m with retained := m.retained ++ [i], accept := pc }
  | connection (i : ConnId) (event : ThreadEvent) (o : Owned)
      (ho : (m.record i).owned.step event = some o) :
      Moved m (.connection i event) (m.own i o)
  | promoted (i : ConnId) (hlife : (m.record i).owned.life = .inside)
      (hfirst : (m.record i).authenticated = false) (hroom : m.auth < m.sessionSlots) :
      Moved m (.promote i) { m.put i { m.record i with authenticated := true } with
        auth := m.auth + 1, preAuth := m.preAuth - 1 }
  | reapBegun (owner : Reaper) (hfree : m.reap = none)
      (howner : match owner with
        | .acceptor => m.accept = .reaping true ∨ m.accept = .reaping false
        | .stop k => m.stops k = .reaping) :
      Moved m (.reap owner) { m with reap := some { owner, todo := m.connections } }
  | reapReturned (ok : Bool) (r : Reap) (pc : AcceptPc) (hreap : m.reap = some r)
      (howner : r.owner = .acceptor) (hpc : pc = .finished ∨ pc = .looking) :
      Moved m (.reapNext ok) { m with reap := none, accept := pc }
  | reapEnded (ok : Bool) (r : Reap) (k : StopId) (hreap : m.reap = some r)
      (howner : r.owner = .stop k) :
      Moved m (.reapNext ok)
        { m with reap := none, stops := Function.update m.stops k .resettling }
  | reapSettled (ok : Bool) (r : Reap) (i : ConnId) (todo : List ConnId)
      (hreap : m.reap = some r) (htodo : r.todo = i :: todo) (hpc : r.pc = .settling) :
      Moved m (.reapNext ok) ((m.own i (m.record i).owned.cancel).reapAt r
        (if (m.record i).owned.state = .idle then .judging true else .reading))
  | reapRead (ok : Bool) (r : Reap) (i : ConnId) (todo : List ConnId) (hreap : m.reap = some r)
      (htodo : r.todo = i :: todo) (hpc : r.pc = .reading) :
      Moved m (.reapNext ok) (m.reapAt r (.judging (m.record i).owned.ended))
  | reapJudged (ok : Bool) (r : Reap) (i : ConnId) (todo : List ConnId) (settled : Bool)
      (pc : ReapPc) (hreap : m.reap = some r) (htodo : r.todo = i :: todo)
      (hpc : r.pc = .judging settled)
      (hpc' : pc = .dropping settled ∨ pc = .closing settled ∧ (m.record i).closed = false ∧
        (m.record i).closeFailed = false) :
      Moved m (.reapNext ok) (m.reapAt r pc)
  | reapClosed (ok : Bool) (r : Reap) (i : ConnId) (todo : List ConnId) (settled : Bool)
      (c : Connection) (pc : ReapPc) (hreap : m.reap = some r) (htodo : r.todo = i :: todo)
      (hpc : r.pc = .closing settled)
      (hc : c = { m.record i with closed := true } ∨ c = { m.record i with closeFailed := true })
      (hpc' : pc = .dropping settled ∨ pc = .breaking settled) :
      Moved m (.reapNext ok) ({ m.put i c with closes := m.closes ++ [i] }.reapAt r pc)
  | reapBroke (ok : Bool) (r : Reap) (i : ConnId) (todo : List ConnId) (settled : Bool)
      (state : ListenerState) (hreap : m.reap = some r) (htodo : r.todo = i :: todo)
      (hpc : r.pc = .breaking settled) (hstate : m.state ≠ .new → state ≠ .new) :
      Moved m (.reapNext ok) ({ m with state := state }.reapAt r (.dropping settled))
  | dropped (ok : Bool) (r : Reap) (i : ConnId) (todo : List ConnId) (preAuth auth : Nat)
      (hreap : m.reap = some r) (htodo : r.todo = i :: todo) (hpc : r.pc = .dropping true)
      (hclosed : (m.record i).closed = true)
      (hslot : (m.record i).authenticated = true ∧ auth = m.auth - 1 ∧ preAuth = m.preAuth ∨
        (m.record i).authenticated = false ∧ auth = m.auth ∧ preAuth = m.preAuth - 1) :
      Moved m (.reapNext ok) { m with
        connections := m.connections.erase i, auth := auth, preAuth := preAuth
        reap := some { r with todo := todo, pc := .settling } }
  | reapPassed (ok : Bool) (r : Reap) (i : ConnId) (todo : List ConnId) (settled : Bool)
      (hreap : m.reap = some r) (htodo : r.todo = i :: todo) (hpc : r.pc = .dropping settled) :
      Moved m (.reapNext ok) { m with reap := some { r with todo := todo, pc := .settling } }
  | stopNew (hnew : m.state = .new) :
      Moved m .stop { m.stopAt m.called .finished with
        state := .stopped, stop := true, stopped := true, called := m.called + 1 }
  | stops (state : ListenerState) (hold : m.state ≠ .new) (hstate : state ≠ .new) :
      Moved m .stop { m.stopAt m.called .settling with
        state := state, stop := true, called := m.called + 1 }
  | stopGoes (k : StopId) (ok : Bool) (pc : StopPc) (hgoes : Goes m (m.stops k) pc) :
      Moved m (.stopNext k ok) (m.stopAt k pc)
  | stopSettles (k : StopId) (ok : Bool) (pc : StopPc) (hsettles : Settles m (m.stops k) pc) :
      Moved m (.stopNext k ok) ({ m with acceptor := m.acceptor.cancel }.stopAt k pc)
  | stopCancels (k : StopId) (ok : Bool) (i : ConnId) (todo : List ConnId)
      (hpc : m.stops k = .settlingOf (i :: todo)) :
      Moved m (.stopNext k ok)
        ((m.own i (m.record i).owned.cancel).stopAt k (.testingOf (i :: todo)))
  | stopCloses (k : StopId) (ok : Bool) (closed closeFailed : Bool)
      (hpc : m.stops k = .closingSocket) (hclosed : m.socketClosed = true → closed = true) :
      Moved m (.stopNext k ok)
        ({ m with socketClosed := closed, socketCloseFailed := closeFailed }.stopAt k .retained)
  | stopComplete (k : StopId) (ok : Bool) (hpc : m.stops k = .last true)
      (hconnections : m.connections = []) (hflight : m.startInFlight = false) :
      Moved m (.stopNext k ok) { m.stopAt k .finished with state := .stopped, stopped := true }
  | stopIncomplete (k : StopId) (ok complete : Bool) (hpc : m.stops k = .last complete) :
      Moved m (.stopNext k ok) { m.stopAt k .finished with state := .incomplete }

/-! ### Every step is a move -/

theorem markBroken_eq (m : Machine) :
    ∃ state, m.markBroken = { m with state := state } ∧ (m.state ≠ .new → state ≠ .new) := by
  unfold Machine.markBroken
  split
  · exact ⟨.broken, rfl, fun _ => by decide⟩
  · exact ⟨m.state, rfl, id⟩

theorem closeListenerSocket_eq (m : Machine) (ok : Bool) :
    ∃ closed closeFailed, m.closeListenerSocket ok =
        { m with socketClosed := closed, socketCloseFailed := closeFailed } ∧
      (m.socketClosed = true → closed = true) := by
  unfold Machine.closeListenerSocket
  split
  · exact ⟨true, m.socketCloseFailed, rfl, fun _ => rfl⟩
  · exact ⟨m.socketClosed, true, rfl, id⟩

variable {m m' : Machine}

/-- A step of `start` that only goes on to its next place. -/
theorem moved_start (ok : Bool) {start : StartPc} (hfrom : inFlight m.start = true)
    (hto : inFlight start = true) (htried : untried start = true → untried m.start = true) :
    Moved m (.startNext ok) { m with start := start } :=
  .starts ok m.state m.stop m.socket m.socketClosed m.socketCloseFailed m.acceptor start hfrom hto
    id id (.nothing start htried)

theorem moved_of_startStep {ok : Bool} (h : m.startStep ok = some m') :
    Moved m (.startNext ok) m' := by
  unfold Machine.startStep at h
  split at h <;> rename_i hstart
  case h_1 => cases h
  case h_2 =>
      obtain rfl := Option.some.inj h
      split
      · exact .starts ok m.state m.stop true m.socketClosed m.socketCloseFailed m.acceptor
          .binding (by rw [hstart]; rfl) rfl id id (.nothing _ fun _ => by rw [hstart]; rfl)
      · exact moved_start ok (by rw [hstart]; rfl) rfl fun _ => by rw [hstart]; rfl
  case h_3 =>
      obtain rfl := Option.some.inj h
      exact moved_start ok (by rw [hstart]; rfl) (by split <;> rfl) fun _ => by rw [hstart]; rfl
  case h_4 made =>
      obtain rfl := Option.some.inj h
      refine .starts ok _ m.stop m.socket m.socketClosed m.socketCloseFailed m.acceptor
        (.signalling made) (by rw [hstart]; rfl) rfl (fun hold => ?_) id
        (.nothing _ fun _ => by rw [hstart]; rfl)
      split
      · decide
      · exact hold
  case h_5 =>
      obtain rfl := Option.some.inj h
      exact .starts ok m.state true m.socket m.socketClosed m.socketCloseFailed m.acceptor _
        (by rw [hstart]; rfl) (by split <;> rfl) id id (.nothing _ fun _ => by rw [hstart]; rfl)
  case h_6 =>
      obtain rfl := Option.some.inj h
      split
      · exact .starts ok .running m.stop m.socket m.socketClosed m.socketCloseFailed m.acceptor
          .attempting (by rw [hstart]; rfl) rfl (fun _ => by decide) id
          (.nothing _ fun _ => by rw [hstart]; rfl)
      · exact moved_start ok (by rw [hstart]; rfl) rfl fun _ => by rw [hstart]; rfl
  case h_7 =>
      obtain rfl := Option.some.inj h
      exact moved_start ok (by rw [hstart]; rfl) (by split <;> rfl) fun _ => by rw [hstart]; rfl
  case h_8 =>
      obtain rfl := Option.some.inj h
      obtain ⟨closed, closeFailed, heq, hclosed⟩ := closeListenerSocket_eq m ok
      rw [heq]
      exact .starts ok m.state m.stop m.socket closed closeFailed m.acceptor (.ending false)
        (by rw [hstart]; rfl) rfl id hclosed (.nothing _ fun h => nomatch h)
  case h_9 =>
      obtain rfl := Option.some.inj h
      exact .starts ok m.state m.stop m.socket m.socketClosed m.socketCloseFailed _ .calling
        (by rw [hstart]; rfl) rfl id id (.attempt _ (by rw [hstart]; rfl) rfl)
  case h_10 =>
      split at h
      · split at h
        · cases h
        · obtain rfl := Option.some.inj h
          exact moved_start ok (by rw [hstart]; rfl) rfl fun h => nomatch h
      · obtain rfl := Option.some.inj h
        exact moved_start ok (by rw [hstart]; rfl) rfl fun h => nomatch h
  case h_11 =>
      obtain rfl := Option.some.inj h
      exact .starts ok m.state m.stop m.socket m.socketClosed m.socketCloseFailed _ (.ending true)
        (by rw [hstart]; rfl) rfl id id (.confirm _ rfl)
  case h_12 =>
      obtain rfl := Option.some.inj h
      exact .starts ok m.state m.stop m.socket m.socketClosed m.socketCloseFailed _ .breaking
        (by rw [hstart]; rfl) rfl id id (.abandon _ rfl)
  case h_13 =>
      obtain rfl := Option.some.inj h
      obtain ⟨state, heq, hstate⟩ := markBroken_eq m
      rw [heq]
      exact .starts ok state m.stop m.socket m.socketClosed m.socketCloseFailed m.acceptor
        .signallingBroken (by rw [hstart]; rfl) rfl hstate id (.nothing _ fun h => nomatch h)
  case h_14 =>
      obtain rfl := Option.some.inj h
      exact .starts ok m.state true m.socket m.socketClosed m.socketCloseFailed m.acceptor
        (.ending false) (by rw [hstart]; rfl) rfl id id (.nothing _ fun h => nomatch h)
  case h_15 result =>
      obtain rfl := Option.some.inj h
      exact .started ok result hstart
  case h_16 => cases h

/-- What a step of a thread leaves its life at. -/
theorem life_of_step {o o' : Owned} {event : ThreadEvent} (h : o.step event = some o') :
    match event with
    | .birth => o'.life = .born
    | .enter => o'.life = .inside ∨ o'.life = .skipped
    | .leave => o'.life = .ending
    | .die => o'.life = .dead := by
  cases event <;> simp only [Owned.step, Option.ite_none_right_eq_some, Option.some.injEq] at h
  case enter =>
      obtain ⟨-, rfl⟩ := h
      by_cases hc : o.cancelled = true <;> simp [hc]
  all_goals
    obtain ⟨-, rfl⟩ := h
    rfl

theorem moved_of_acceptorStep {event : ThreadEvent} (h : m.acceptorStep event = some m') :
    Moved m (.acceptor event) m' := by
  cases event with
  | birth =>
      obtain ⟨o, ho, rfl⟩ := Option.map_eq_some_iff.mp h
      have hlife : o.life = .born := life_of_step ho
      exact .thread .birth o ho (by decide) (by rw [hlife]; decide)
  | enter =>
      obtain ⟨o, ho, rfl⟩ := Option.map_eq_some_iff.mp h
      by_cases hlife : o.life = .inside
      · rw [if_pos hlife]
        exact .enters o _ ho hlife (by split <;> simp)
      · rw [if_neg hlife]
        exact .thread .enter o ho (by decide) hlife
  | leave =>
      unfold Machine.acceptorStep at h
      split at h
      case h_1 hpc =>
          obtain ⟨o, ho, rfl⟩ := Option.map_eq_some_iff.mp h
          have hmoved := Moved.leaves (m := m) o ho (.inr hpc)
          rwa [← hpc] at hmoved
      case h_2 hpc =>
          obtain ⟨o, ho, rfl⟩ := Option.map_eq_some_iff.mp h
          exact .leaves o ho (.inl hpc)
      case h_3 => cases h
      case h_4 heq => cases heq
      case h_5 hleave _ _ _ => exact absurd rfl hleave
  | die =>
      obtain ⟨o, ho, rfl⟩ := Option.map_eq_some_iff.mp h
      have hlife : o.life = .dead := life_of_step ho
      exact .thread .die o ho (by decide) (by rw [hlife]; decide)

/-- A step of the acceptor that only goes on to its next place. -/
theorem moved_walk (event : AcceptEvent) {pc : AcceptPc} (hpc : Walks m m.accept pc) :
    Moved m (.accept event) { m with accept := pc } :=
  .walks event m.state pc hpc id

theorem moved_of_admit {i : ConnId} {event : AcceptEvent} (admission : Admission)
    (hpc : m.accept = .admitting i) : Moved m (.accept event) (m.admits i admission) := by
  cases admission with
  | tries token created =>
      simp only [Machine.admits]
      split
      · rename_i hadmitted
        exact .admitted event i hpc hadmitted.1 hadmitted.2.2.1
      · exact moved_walk event (hpc ▸ .refuses i)
  | raises => exact moved_walk event (hpc ▸ .raises i _ (.inl rfl))

theorem moved_of_acceptStep {event : AcceptEvent} (h : m.acceptStep event = some m') :
    Moved m (.accept event) m' := by
  unfold Machine.acceptStep at h
  split at h <;> rename_i hpc
  case h_1 =>
      obtain rfl := Option.some.inj h
      exact moved_walk _ (hpc ▸ .reaps m.stop)
  case h_2 =>
      obtain rfl := Option.some.inj h
      split
      · exact moved_walk _ (hpc ▸ .looks)
      · exact moved_walk _ (hpc ▸ .loops _ (.inl rfl))
  case h_3 =>
      obtain rfl := Option.some.inj h
      exact moved_walk _ (hpc ▸ .loops _ (.inr (.inl rfl)))
  case h_4 =>
      obtain rfl := Option.some.inj h
      exact moved_walk _ (hpc ▸ .fails)
  case h_5 =>
      obtain rfl := Option.some.inj h
      exact .accepted _ hpc
  case h_6 i admission =>
      obtain rfl := Option.some.inj h
      exact moved_of_admit admission hpc
  case h_7 i =>
      obtain rfl := Option.some.inj h
      exact .tries _ i hpc
  case h_8 i =>
      split at h
      · cases h
      · obtain rfl := Option.some.inj h
        exact moved_walk _ (hpc ▸ .called i _ (.inl rfl))
  case h_9 i =>
      obtain rfl := Option.some.inj h
      exact moved_walk _ (hpc ▸ .called i _ (.inr rfl))
  case h_10 i =>
      obtain rfl := Option.some.inj h
      exact .tried _ i _ .top (.inl ⟨hpc, rfl⟩) (.inl rfl)
  case h_11 i =>
      obtain rfl := Option.some.inj h
      exact .tried _ i _ .breaking (.inr ⟨hpc, rfl⟩) (.inr rfl)
  case h_12 =>
      obtain rfl := Option.some.inj h
      obtain ⟨state, heq, hstate⟩ := markBroken_eq m
      rw [heq]
      exact .walks _ state .top (hpc ▸ .loops _ (.inr (.inr rfl))) hstate
  case h_13 i =>
      obtain rfl := Option.some.inj h
      exact .closes _ i .top (hpc ▸ .refused i _ (.inl rfl))
  case h_14 i =>
      obtain rfl := Option.some.inj h
      exact .closes _ i _ (hpc ▸ .refused i _ (.inr rfl))
  case h_15 i =>
      obtain rfl := Option.some.inj h
      exact moved_walk _ (hpc ▸ .raises i _ (.inr rfl))
  case h_16 i refused =>
      obtain rfl := Option.some.inj h
      exact .retains _ i refused _ hpc (by split <;> simp)
  case h_17 i =>
      obtain rfl := Option.some.inj h
      obtain ⟨state, heq, hstate⟩ := markBroken_eq m
      rw [heq]
      exact .walks _ state (.releasing i) (hpc ▸ .releases i) hstate
  case h_18 i =>
      obtain rfl := Option.some.inj h
      exact moved_walk _ (hpc ▸ .released i _ (by split <;> simp))
  case h_19 i =>
      obtain rfl := Option.some.inj h
      exact .closes _ i .top (hpc ▸ .released i _ (.inl rfl))
  case h_20 i =>
      obtain rfl := Option.some.inj h
      exact .closes _ i _ (hpc ▸ .released i _ (.inr rfl))
  case h_21 => cases h

theorem moved_of_promote {i : ConnId} (h : m.promote i = some m') : Moved m (.promote i) m' := by
  simp only [Machine.promote] at h
  split at h
  · cases h
  · rename_i hlife
    split at h
    · obtain rfl := Option.some.inj h
      exact .idle _
    · rename_i hopen
      obtain rfl := Option.some.inj h
      simp only [not_or, Bool.not_eq_true, Nat.not_le] at hopen
      exact .promoted i (not_not.mp hlife) hopen.2.2.1 hopen.2.2.2

theorem moved_of_beginReap {owner : Reaper} (h : m.beginReap owner = some m') :
    Moved m (.reap owner) m' := by
  simp only [Machine.beginReap, Option.ite_none_right_eq_some, Option.some.injEq] at h
  obtain ⟨⟨hfree, hcalled⟩, rfl⟩ := h
  refine .reapBegun owner hfree ?_
  cases owner with
  | acceptor => simpa using hcalled
  | stop k => simpa using hcalled

theorem moved_of_reapStep {ok : Bool} (h : m.reapStep ok = some m') :
    Moved m (.reapNext ok) m' := by
  unfold Machine.reapStep at h
  split at h
  case h_1 => cases h
  case h_2 r hreap =>
      split at h
      case h_1 htodo =>
          obtain rfl := Option.some.inj h
          rcases howner : r.owner with _ | k
          · exact .reapReturned ok r _ hreap howner (by split <;> simp)
          · exact .reapEnded ok r k hreap howner
      case h_2 i todo htodo =>
          dsimp only at h
          split at h <;> rename_i hpc
          · obtain rfl := Option.some.inj h
            exact .reapSettled ok r i todo hreap htodo hpc
          · obtain rfl := Option.some.inj h
            exact .reapRead ok r i todo hreap htodo hpc
          · obtain rfl := Option.some.inj h
            refine .reapJudged ok r i todo _ _ hreap htodo hpc ?_
            split
            · rename_i hclosable
              simp only [Bool.and_eq_true, Bool.not_eq_true'] at hclosable
              exact .inr ⟨rfl, hclosable.1.2, hclosable.2⟩
            · exact .inl rfl
          · split at h <;> obtain rfl := Option.some.inj h
            · exact .reapClosed ok r i todo _ _ _ hreap htodo hpc (.inl rfl) (.inl rfl)
            · exact .reapClosed ok r i todo _ _ _ hreap htodo hpc (.inr rfl) (.inr rfl)
          · obtain rfl := Option.some.inj h
            obtain ⟨state, heq, hstate⟩ := markBroken_eq m
            rw [heq]
            exact .reapBroke ok r i todo _ state hreap htodo hpc hstate
          · rename_i settled
            obtain rfl := Option.some.inj h
            by_cases hdrop : (settled && (m.record i).closed) = true
            · rw [if_pos hdrop]
              obtain ⟨rfl, hclosed⟩ := Bool.and_eq_true_iff.mp hdrop
              unfold Machine.drop
              split
              · exact .dropped ok r i todo m.preAuth (m.auth - 1) hreap htodo hpc hclosed
                  (.inl ⟨‹_›, rfl, rfl⟩)
              · exact .dropped ok r i todo (m.preAuth - 1) m.auth hreap htodo hpc hclosed
                  (.inr ⟨Bool.eq_false_iff.mpr ‹_›, rfl, rfl⟩)
            · rw [if_neg hdrop]
              exact .reapPassed ok r i todo settled hreap htodo hpc

theorem moved_of_stopStep {k : StopId} {ok : Bool} (h : m.stopStep k ok = some m') :
    Moved m (.stopNext k ok) m' := by
  unfold Machine.stopStep at h
  split at h <;> rename_i hpc
  case h_1 => cases h
  case h_2 =>
      obtain rfl := Option.some.inj h
      exact .stopSettles k ok .testing (hpc ▸ .first)
  case h_3 =>
      obtain rfl := Option.some.inj h
      split
      · exact .stopGoes k ok .joining (hpc ▸ .joins)
      · rename_i hjoinable
        exact .stopGoes k ok .copying (hpc ▸ .skips (Bool.eq_false_iff.mpr hjoinable))
  case h_4 =>
      rw [Option.ite_none_right_eq_some] at h
      obtain rfl := Option.some.inj h.2
      exact .stopGoes k ok .copying (hpc ▸ .joined h.1)
  case h_5 =>
      obtain rfl := Option.some.inj h
      exact .stopGoes k ok _ (hpc ▸ .copied)
  case h_6 =>
      obtain rfl := Option.some.inj h
      exact .stopGoes k ok .reaping (hpc ▸ .along _ _ trivial trivial)
  case h_7 i todo =>
      obtain rfl := Option.some.inj h
      exact .stopCancels k ok i todo hpc
  case h_8 todo =>
      split at h
      · cases h
      · obtain rfl := Option.some.inj h
        exact .stopGoes k ok _ (hpc ▸ .along _ _ trivial (by split_ifs <;> trivial))
  case h_9 todo =>
      split at h
      · cases h
      · rw [Option.ite_none_right_eq_some] at h
        obtain rfl := Option.some.inj h.2
        exact .stopGoes k ok _ (hpc ▸ .along _ _ trivial trivial)
  case h_10 => cases h
  case h_11 =>
      obtain rfl := Option.some.inj h
      exact .stopSettles k ok _ (hpc ▸ .second _ (by split <;> simp))
  case h_12 =>
      obtain rfl := Option.some.inj h
      exact .stopGoes k ok _ (hpc ▸ .along _ _ trivial (by split_ifs <;> trivial))
  case h_13 =>
      obtain rfl := Option.some.inj h
      exact .stopGoes k ok _ (hpc ▸ .along _ _ trivial (by split_ifs <;> trivial))
  case h_14 =>
      obtain rfl := Option.some.inj h
      exact .stopGoes k ok _ (hpc ▸ .along _ _ trivial (by split_ifs <;> trivial))
  case h_15 =>
      obtain rfl := Option.some.inj h
      obtain ⟨closed, closeFailed, heq, hclosed⟩ := closeListenerSocket_eq m ok
      rw [heq]
      exact .stopCloses k ok closed closeFailed hpc hclosed
  case h_16 =>
      obtain rfl := Option.some.inj h
      exact .stopGoes k ok _ (hpc ▸ .looked)
  case h_17 empty =>
      obtain rfl := Option.some.inj h
      split
      · rename_i hidle
        exact .stopSettles k ok _ (hpc ▸ .idle empty hidle)
      · exact .stopSettles k ok _ (hpc ▸ .tried empty)
  case h_18 empty =>
      obtain rfl := Option.some.inj h
      exact .stopGoes k ok _ (hpc ▸ .reread empty)
  case h_19 settled empty =>
      obtain rfl := Option.some.inj h
      exact .stopGoes k ok _ (hpc ▸ .found settled empty)
  case h_20 complete =>
      obtain rfl := Option.some.inj h
      unfold Machine.endStop
      split
      · rename_i hcomplete
        obtain ⟨rfl, hconnections, hflight⟩ := hcomplete
        exact .stopComplete k ok hpc hconnections hflight
      · exact .stopIncomplete k ok complete hpc
  case h_21 => cases h

/-- **A step is a move.** -/
theorem moved_of_step {e : Event} (h : m.step e = some m') : Moved m e m' := by
  cases e with
  | start =>
      obtain rfl := Option.some.inj h
      unfold Machine.beginStart
      split
      · exact .begun ‹_›
      · exact .idle _
  | startNext ok => exact moved_of_startStep h
  | requestStop =>
      obtain rfl := Option.some.inj h
      refine .requested _ ?_
      split_ifs with hnew
      · decide
      · decide
      · exact hnew
  | stop =>
      obtain rfl := Option.some.inj h
      unfold Machine.beginStop
      split
      · exact .stopNew ‹_›
      · exact .stops _ ‹_› (by split <;> decide)
  | stopNext k ok => exact moved_of_stopStep h
  | acceptor event => exact moved_of_acceptorStep h
  | accept event => exact moved_of_acceptStep h
  | connection i event =>
      obtain ⟨o, ho, rfl⟩ := Option.map_eq_some_iff.mp h
      exact .connection i event o ho
  | promote i => exact moved_of_promote h
  | reap owner => exact moved_of_beginReap h
  | reapNext ok => exact moved_of_reapStep h

end MaskGateway.Proofs.Pgwire.Listener
