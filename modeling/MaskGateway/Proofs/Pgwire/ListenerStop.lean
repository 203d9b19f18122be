import MaskGateway.Proofs.Pgwire.ListenerSlots

/-!
# `MaskGateway.Proofs.Pgwire.ListenerStop`: what a stopped listener leaves

The slots are accounted for in every run (`Slots`). What `stop` promises is not: its last section
sets `STOPPED` on what the call read of the acceptor and of the listening socket before, outside
the lock, and asks under the lock only whether a `start` is in flight now. A `start` that was in
flight when the call read, and is over when it decides, is not seen (`closed_too_late`,
`started_too_late`).

`meets` leaves such ends of a `start` out and no others. In a run without them, what a call of
`stop` read stays true until it decides (`StopFinds`), and what `STOPPED` says stays true for good
(`Over`).
-/

set_option autoImplicit false

namespace MaskGateway.Proofs.Pgwire.Listener

open MaskGateway.Lib
open MaskGateway.Pgwire.Listener

variable {m m' : Machine} {e : Event}

/-! ### The condition -/

/-- What a call of `stop` has read, and goes by, still holds. -/
def stillHolds (m : Machine) : StopPc → Bool
  | .looking true true => acceptorDone m
  | .last true => acceptorDone m && m.socketDone
  | _ => true

/-- When a call of `start` comes to its end, what the calls of `stop` have read still holds. -/
def meets (m : Machine) : Event → Bool
  | .startNext _ =>
      match m.start with
      | .ending _ => (List.range m.called).all fun k => stillHolds m (m.stops k)
      | _ => true
  | _ => true

/-! ### What stays true -/

theorem acceptorDone_iff : acceptorDone m = true ↔
    m.acceptor.state = .idle ∨ m.acceptor.ended = true := by
  rw [acceptorDone, decide_eq_true_iff]

/-- An acceptor that is done has no thread. -/
theorem not_alive_of_done (hcalls : Calls m) (h : acceptorDone m = true) :
    m.acceptor.life = .unborn ∨ m.acceptor.life = .dead := by
  rcases acceptorDone_iff.mp h with hidle | hended
  · exact .inl (hcalls.acceptor.unborn hidle)
  · obtain ⟨hdone, halive⟩ := Bool.and_eq_true_iff.mp hended
    rcases hcalls.acceptor.done hdone with hlife | hlife
    · simp [Owned.isAlive, hlife] at halive
    · exact .inr hlife

theorem outside_of_done (hcalls : Calls m) (h : acceptorDone m = true) : m.accept = .outside := by
  by_contra hpc
  have hinside := hcalls.inside.mpr hpc
  rcases not_alive_of_done hcalls h with hlife | hlife
  · exact absurd (hlife.symm.trans hinside) (by decide)
  · exact absurd (hlife.symm.trans hinside) (by decide)

theorem outside_of_quiet (hcalls : Calls m) (h : Quiet m.acceptor) : m.accept = .outside := by
  by_contra hpc
  exact h.not_inside hcalls.acceptor (hcalls.inside.mpr hpc)

/-- Without a `start` in flight, an acceptor that is done stays done. -/
theorem acceptorDone_kept (hcalls : Calls m) (h : Moved m e m')
    (hflight : m.startInFlight = false) (hdone : acceptorDone m = true) :
    acceptorDone m' = true := by
  have hstep : ∀ event o, m.acceptor.step event = some o → False := by
    intro event o ho
    have hlife := not_alive_of_done hcalls hdone
    rcases acceptorDone_iff.mp hdone with hidle | hended
    · cases event <;> simp [Owned.step, hcalls.acceptor.unborn hidle, hidle] at ho
    · obtain ⟨hdone, halive⟩ := Bool.and_eq_true_iff.mp hended
      rcases hcalls.acceptor.done hdone with hlife | hlife
      · simp [Owned.isAlive, hlife] at halive
      · cases event <;> simp [Owned.step, hlife] at ho
  cases h with
  | starts ok state stop socket closed closeFailed acceptor start hfrom =>
      rw [hcalls.flight, hfrom] at hflight
      cases hflight
  | thread event o ho => exact (hstep event o ho).elim
  | enters o pc ho => exact (hstep _ o ho).elim
  | leaves o ho => exact (hstep _ o ho).elim
  | stopSettles k ok pc =>
      refine acceptorDone_iff.mpr ((acceptorDone_iff.mp hdone).imp (fun hidle => ?_) fun hended => ?_)
      · exact (state_cancel _).trans hidle
      · exact (ended_cancel _).trans hended
  | _ => exact hdone

/-- Without a `start` in flight, a listening socket that is done with stays so. -/
theorem socketDone_kept (hcalls : Calls m) (h : Moved m e m')
    (hflight : m.startInFlight = false) (hdone : m.socketDone = true) : m'.socketDone = true := by
  cases h with
  | starts ok state stop socket closed closeFailed acceptor start hfrom =>
      rw [hcalls.flight, hfrom] at hflight
      cases hflight
  | stopCloses k ok closed closeFailed hpc hclosed =>
      show (!m.socket || closed) = true
      rcases Bool.or_eq_true_iff.mp hdone with hnone | hwas
      · rw [hnone, Bool.true_or]
      · rw [hclosed hwas, Bool.or_true]
  | _ => exact hdone

/-- Nobody retains a socket while the acceptor is outside of its body. -/
theorem retained_kept (h : Moved m e m') (hout : m.accept = .outside) :
    m'.retained = m.retained := by
  cases h with
  | retains event i refused pc hpc =>
      rw [hout] at hpc
      cases hpc
  | _ => rfl

/-! ### What a call of `stop` finds -/

/-- What a call of `stop` has found in each of its places, as long as no `start` is in flight. -/
def StopFinds (m : Machine) : StopPc → Prop
  | .checking empty | .rereading empty => empty = true → m.retained = []
  | .looking settled empty =>
      empty = true → m.retained = [] ∧
        (settled = true → acceptorDone m = true ∨ m.startInFlight = true)
  | .last complete =>
      complete = true → m.retained = [] ∧
        (acceptorDone m = true ∨ m.startInFlight = true) ∧
        (m.socketDone = true ∨ m.startInFlight = true)
  | _ => True

/-- What there is once a call of `stop` has set `STOPPED`, and what keeps it so. -/
structure Over (m : Machine) : Prop where
  connections : m.connections = []
  retained : m.retained = []
  acceptor : acceptorDone m = true
  socket : m.socketDone = true
  flight : m.startInFlight = false
  old : m.state ≠ .new

/-- The invariant of the runs that meet the condition. -/
structure Stops (m : Machine) : Prop where
  finds : ∀ k, StopFinds m (m.stops k)
  stopped : m.stopped = true → Over m

/-- A `start` that is in flight stays so, or comes to an end that the condition allows. -/
theorem flight_step (hcalls : Calls m) (h : Moved m e m') (hmeets : meets m e = true)
    (hflight : m.startInFlight = true) (k : StopId) :
    m'.startInFlight = true ∨ acceptorDone m' = acceptorDone m ∧ m'.socketDone = m.socketDone ∧
      stillHolds m (m.stops k) = true := by
  cases h with
  | begun => exact .inl rfl
  | started ok result hstart =>
      refine .inr ⟨rfl, rfl, ?_⟩
      simp only [meets, hstart, List.all_eq_true, List.mem_range] at hmeets
      by_cases hk : k < m.called
      · exact hmeets k hk
      · rw [hcalls.uncalled k (Nat.not_lt.mp hk)]
        rfl
  | _ => exact .inl hflight

/-- What a call of `stop` has found does not change under its feet. -/
theorem finds_kept (hcalls : Calls m) (h : Moved m e m') (hmeets : meets m e = true) {k : StopId}
    (hfinds : StopFinds m (m.stops k)) : StopFinds m' (m.stops k) := by
  have hknows := hcalls.stops k
  have hretained : Quiet m.acceptor → m'.retained = m.retained := fun hquiet =>
    retained_kept h (outside_of_quiet hcalls hquiet)
  have hflight := fun hflight => flight_step hcalls h hmeets hflight k
  have hacceptor := acceptorDone_kept hcalls h
  have hsocket := socketDone_kept hcalls h
  cases hpc : m.stops k with
  | checking empty | rereading empty =>
      rw [hpc] at hfinds hknows
      exact fun hempty => (hretained hknows).trans (hfinds hempty)
  | looking settled empty =>
      rw [hpc] at hfinds hknows hflight
      intro hempty
      refine ⟨(hretained hknows).trans (hfinds hempty).1, fun hsettled => ?_⟩
      subst hempty hsettled
      rcases Bool.eq_false_or_eq_true m.startInFlight with hin | hout
      · rcases hflight hin with hin | ⟨hsame, -, hstill⟩
        · exact .inr hin
        · exact .inl (hsame.trans hstill)
      · rcases (hfinds rfl).2 rfl with hdone | hin
        · exact .inl (hacceptor hout hdone)
        · exact absurd (hout.symm.trans hin) (by decide)
  | last complete =>
      rw [hpc] at hfinds hknows hflight
      intro hcomplete
      subst hcomplete
      obtain ⟨hempty, hdone, hsocketDone⟩ := hfinds rfl
      refine ⟨(hretained hknows).trans hempty, ?_⟩
      rcases Bool.eq_false_or_eq_true m.startInFlight with hin | hout
      · rcases hflight hin with hin | ⟨hsame, hsame', hstill⟩
        · exact ⟨.inr hin, .inr hin⟩
        · obtain ⟨hstill, hstill'⟩ := Bool.and_eq_true_iff.mp hstill
          exact ⟨.inl (hsame.trans hstill), .inl (hsame'.trans hstill')⟩
      · have hnot : ¬ m.startInFlight = true := by
          rw [hout]
          decide
        exact ⟨.inl (hacceptor hout (hdone.resolve_right hnot)),
          .inl (hsocket hout (hsocketDone.resolve_right hnot))⟩
  | _ => trivial

/-- What a call of `stop` finds as it goes on. -/
theorem Goes.finds {pc pc' : StopPc} (hgoes : Goes m pc pc') (h : StopFinds m pc) :
    StopFinds m pc' := by
  cases hgoes with
  | joins => trivial
  | skips => trivial
  | joined => trivial
  | copied => trivial
  | along pc pc' hfrom hto => cases pc' <;> trivial
  | looked => exact fun hempty => of_decide_eq_true hempty
  | reread empty =>
      exact fun hempty => ⟨h hempty, fun hended => .inl (acceptorDone_iff.mpr (.inr hended))⟩
  | found settled empty =>
      intro hcomplete
      simp only [Bool.and_eq_true] at hcomplete
      obtain ⟨⟨hsettled, hsocket⟩, hempty⟩ := hcomplete
      exact ⟨(h hempty).1, (h hempty).2 hsettled, .inl hsocket⟩

/-- What a call of `stop` finds is said by four fields. -/
theorem StopFinds.congr {pc : StopPc} (h : StopFinds m pc) (hretained : m'.retained = m.retained)
    (hacceptor : acceptorDone m' = acceptorDone m) (hsocket : m'.socketDone = m.socketDone)
    (hflight : m'.startInFlight = m.startInFlight) : StopFinds m' pc := by
  cases pc <;> simp only [StopFinds, hretained, hacceptor, hsocket, hflight] at h ⊢ <;> exact h

theorem Settles.finds {pc pc' : StopPc} (hsettles : Settles m pc pc') (h : StopFinds m pc) :
    StopFinds m pc' := by
  cases hsettles with
  | first => trivial
  | second pc hpc => rcases hpc with rfl | rfl <;> trivial
  | idle empty hidle =>
      exact fun hempty => ⟨h hempty, fun _ => .inl (acceptorDone_iff.mpr (.inl hidle))⟩
  | tried empty => exact h

/-- One call of `stop` goes on, and the others stay. -/
theorem finds_update {j k : StopId} {pc : StopPc} (hpc : StopFinds m' pc)
    (hkept : StopFinds m' (m.stops k)) : StopFinds m' (Function.update m.stops j pc k) := by
  by_cases hk : k = j
  · subst hk
    rwa [Function.update_self]
  · rwa [Function.update_of_ne hk]

theorem finds_moved (hcalls : Calls m) (hstops : Stops m) (h : Moved m e m')
    (hmeets : meets m e = true) (k : StopId) : StopFinds m' (m'.stops k) := by
  have hkept := finds_kept hcalls h hmeets (hstops.finds k)
  cases h with
  | stopGoes j ok pc hgoes =>
      exact finds_update ((hgoes.finds (hstops.finds j)).congr rfl rfl rfl rfl) hkept
  | stopSettles j ok pc hsettles =>
      refine finds_update ((hsettles.finds (hstops.finds j)).congr rfl ?_ rfl rfl) hkept
      show decide (m.acceptor.cancel.state = .idle ∨ m.acceptor.cancel.ended = true) = _
      rw [state_cancel, ended_cancel]
      rfl
  | reapEnded ok r j => exact finds_update (j := j) trivial hkept
  | stopNew => exact finds_update (j := m.called) trivial hkept
  | stops => exact finds_update (j := m.called) trivial hkept
  | stopCancels j ok i todo => exact finds_update (j := j) trivial hkept
  | stopCloses j => exact finds_update (j := j) trivial hkept
  | stopComplete j => exact finds_update (j := j) trivial hkept
  | stopIncomplete j => exact finds_update (j := j) trivial hkept
  | _ => exact hkept

/-! ### Once it is over -/

theorem over_kept (hcalls : Calls m) (hover : Over m) (h : Moved m e m') : Over m' where
  connections := by
    have hlist := list_step h
    generalize m'.connections = after at hlist
    cases hlist with
    | same => exact hover.connections
    | admits i hpc =>
        rw [outside_of_done hcalls hover.acceptor] at hpc
        cases hpc
    | drops i =>
        rw [hover.connections]
        rfl
  retained := (retained_kept h (outside_of_done hcalls hover.acceptor)).trans hover.retained
  acceptor := acceptorDone_kept hcalls h hover.flight hover.acceptor
  socket := socketDone_kept hcalls h hover.flight hover.socket
  flight := by
    cases h with
    | begun hnew => exact absurd hnew hover.old
    | started => rfl
    | _ => exact hover.flight
  old := old_moved h hover.old

/-- A call of `start` that is over, or never began, stays so. -/
theorem start_kept (hcalls : Calls m) (hover : Over m) (h : Moved m e m') :
    m'.start = m.start := by
  have hout : inFlight m.start = false := hcalls.flight ▸ hover.flight
  cases h with
  | begun hnew => exact absurd hnew hover.old
  | starts ok state stop socket closed closeFailed acceptor start hfrom =>
      rw [hout] at hfrom
      cases hfrom
  | started ok result hstart =>
      rw [hstart] at hout
      cases hout
  | _ => rfl

theorem over_moved (hcalls : Calls m) (hstops : Stops m) (h : Moved m e m')
    (hstopped : m'.stopped = true) : Over m' := by
  have hkept : m.stopped = true → Over m' := fun hwas => over_kept hcalls (hstops.stopped hwas) h
  cases h with
  | stopNew hnew =>
      obtain ⟨hstart, hsocket, hidle, hconnections, hretained⟩ := hcalls.new hnew
      refine ⟨hconnections, hretained, acceptorDone_iff.mpr (.inl hidle), ?_, ?_,
        ListenerState.noConfusion⟩
      · show (!m.socket || m.socketClosed) = true
        rw [hsocket]
        rfl
      · exact hcalls.flight.trans (by rw [hstart]; rfl)
  | stopComplete k ok hpc hconnections hflight =>
      have hfinds := hstops.finds k
      rw [hpc] at hfinds
      obtain ⟨hretained, hacceptor, hsocket⟩ := hfinds rfl
      have hnot : ¬ m.startInFlight = true := by
        rw [hflight]
        decide
      exact ⟨hconnections, hretained, hacceptor.resolve_right hnot, hsocket.resolve_right hnot,
        hflight, ListenerState.noConfusion⟩
  | _ => exact hkept hstopped

/-- **Every step that meets the condition keeps the promise of `stop`.** -/
theorem stops_kept (hcalls : Calls m) (hstops : Stops m) (h : Moved m e m')
    (hmeets : meets m e = true) : Stops m' where
  finds := finds_moved hcalls hstops h hmeets
  stopped := over_moved hcalls hstops h

theorem stops_init (preAuthSlots sessionSlots : Nat) :
    Stops (Machine.init preAuthSlots sessionSlots) where
  finds _ := trivial
  stopped h := nomatch h

/-! ### Runs -/

/-- The limits are those of the settings. -/
theorem limits_kept (h : Moved m e m') :
    m'.preAuthSlots = m.preAuthSlots ∧ m'.sessionSlots = m.sessionSlots := by
  cases h <;> exact ⟨rfl, rfl⟩

/-- What holds in every run of a listener. -/
theorem sound_of_run {preAuthSlots sessionSlots : Nat} {events : List Event}
    (hrun : run Machine.step (Machine.init preAuthSlots sessionSlots) events = some m) :
    Calls m ∧ Slots m ∧ m.preAuthSlots = preAuthSlots ∧ m.sessionSlots = sessionSlots := by
  refine run_invariant (P := fun m => Calls m ∧ Slots m ∧ m.preAuthSlots = preAuthSlots ∧
    m.sessionSlots = sessionSlots) ?_ hrun
    ⟨calls_init _ _, slots_init _ _, rfl, rfl⟩
  rintro s s' e ⟨hcalls, hslots, hpreAuth, hauth⟩ hstep
  have hmoved := moved_of_step hstep
  obtain ⟨hsame, hsame'⟩ := limits_kept hmoved
  exact ⟨calls_moved hcalls hmoved, slots_moved hcalls hslots hmoved, hsame.trans hpreAuth,
    hsame'.trans hauth⟩

/-- What holds in every run that meets the condition. -/
theorem stops_of_run {events : List Event} {s : Machine}
    (hrun : run (guarded Machine.step meets) s events = some m) (hcalls : Calls s)
    (hstops : Stops s) : Calls m ∧ Stops m := by
  refine run_invariant (P := fun m => Calls m ∧ Stops m) ?_ hrun ⟨hcalls, hstops⟩
  rintro s s' e ⟨hcalls, hstops⟩ hstep
  obtain ⟨hmeets, hstep⟩ := guarded_eq_some.mp hstep
  have hmoved := moved_of_step hstep
  exact ⟨calls_moved hcalls hmoved, stops_kept hcalls hstops hmoved hmeets⟩

/-- What `STOPPED` promises. -/
structure Finished (m : Machine) : Prop where
  connections : m.connections = []
  retained : m.retained = []
  socket : m.socket = true → m.socketClosed = true
  acceptor : m.acceptor.isAlive = false

theorem Over.finished (hcalls : Calls m) (h : Over m) : Finished m where
  connections := h.connections
  retained := h.retained
  socket hsocket := by
    rcases Bool.or_eq_true_iff.mp h.socket with hnone | hclosed
    · rw [hsocket] at hnone
      cases hnone
    · exact hclosed
  acceptor := by
    rcases not_alive_of_done hcalls h.acceptor with hlife | hlife <;>
      simp [Owned.isAlive, hlife]

/-- A thread without a record has not begun, or is over. -/
theorem not_alive_of_unregistered (hcalls : Calls m) (hslots : Slots m) {i : ConnId}
    (hi : i ∉ m.connections) : (m.record i).owned.isAlive = false := by
  by_cases hidle : (m.record i).owned.state = .idle
  · simp [Owned.isAlive, (hcalls.record i).unborn hidle]
  · have hdead : (m.record i).owned.life = .dead := by
      by_contra hlife
      exact hi (hslots.registered i hidle hlife)
    simp [Owned.isAlive, hdead]

/-- **The slots are accounted for in every run, and `STOPPED` is true in every run that meets the
condition**: each counter counts its records within its limit; nobody is admitted unless the
listener is running; a record goes only when its thread is settled and its socket closed, whoever
has a running thread has a record, and no socket is closed twice. Where no `start` comes to an end
against what a call of `stop` has read, a call of `stop` that set `STOPPED` leaves nothing: no
record, no retained socket, no open listening socket and no acceptor thread, from then on, and no
call of `start` comes to its end after it. -/
theorem listener_accounting (preAuthSlots sessionSlots : Nat) :
    (∀ events m, run Machine.step (Machine.init preAuthSlots sessionSlots) events = some m →
      m.preAuth = m.connections.countP (fun i => !(m.record i).authenticated) ∧
      m.auth = m.connections.countP (fun i => (m.record i).authenticated) ∧
      m.preAuth ≤ preAuthSlots ∧ m.auth ≤ sessionSlots ∧ m.closes.Nodup ∧
      (∀ i, i ∉ m.connections → (m.record i).owned.isAlive = false) ∧
      ∀ e m', m.step e = some m' →
        (∀ i ∈ m'.connections, i ∉ m.connections → m.state = .running) ∧
        ∀ i ∈ m.connections, i ∉ m'.connections →
          Settled (m.record i).owned ∧ (m.record i).closed = true) ∧
    ∀ events m,
      run (guarded Machine.step meets) (Machine.init preAuthSlots sessionSlots) events = some m →
      m.stopped = true → ∀ later m', run (guarded Machine.step meets) m later = some m' →
        Finished m' ∧ m'.startInFlight = false ∧ m'.start = m.start := by
  constructor
  · intro events m hrun
    obtain ⟨hcalls, hslots, rfl, rfl⟩ := sound_of_run hrun
    refine ⟨Int.ofNat.inj hslots.preAuth_eq, Int.ofNat.inj hslots.auth_eq, hslots.preAuth_le,
      hslots.auth_le, hslots.closes_nodup, fun i => not_alive_of_unregistered hcalls hslots, ?_⟩
    intro e m' hstep
    have hmoved := moved_of_step hstep
    refine ⟨fun i hi hnew => ?_, fun i hi hgone => ?_⟩
    · have hlist := list_step hmoved
      generalize m'.connections = after at hlist hi
      cases hlist with
      | same => exact absurd hi hnew
      | admits j hpc hrunning => exact hrunning
      | drops j => exact absurd (List.mem_of_mem_erase hi) hnew
    · exact ((mem_of_step hslots hmoved hi).resolve_left hgone).2
  · intro events m hrun hstopped later m' hlater
    obtain ⟨hcalls, hstops⟩ := stops_of_run hrun (calls_init _ _) (stops_init _ _)
    have hkept := run_invariant (P := fun s => Calls s ∧ Over s ∧ s.start = m.start) (by
      rintro s s' e ⟨hcalls, hover, hsame⟩ hstep
      have hmoved := moved_of_step (guarded_eq_some.mp hstep).2
      exact ⟨calls_moved hcalls hmoved, over_kept hcalls hover hmoved,
        (start_kept hcalls hover hmoved).trans hsame⟩)
      hlater ⟨hcalls, hstops.stopped hstopped, rfl⟩
    exact ⟨hkept.2.1.finished hkept.1, hkept.2.1.flight, hkept.2.2⟩

/-- A listener that serves one connection and is stopped. -/
def served : List Event :=
  [.start, .startNext true, .startNext true, .startNext true, .startNext true, .acceptor .birth,
    .startNext true, .startNext true, .startNext true, .acceptor .enter, .accept .next,
    .reap .acceptor, .reapNext true, .accept .next, .accept (.accept .connection),
    .accept (.admits (.tries true true)), .accept .next, .connection 0 .birth,
    .accept (.threadStart true), .accept .next, .connection 0 .enter, .promote 0,
    .connection 0 .leave, .connection 0 .die, .stop, .stopNext 0 true, .stopNext 0 true,
    .accept .next, .reap .acceptor, .reapNext true, .reapNext true, .reapNext true, .reapNext true,
    .reapNext true, .reapNext true, .acceptor .leave, .acceptor .die, .stopNext 0 true,
    .stopNext 0 true, .stopNext 0 true, .reap (.stop 0), .reapNext true, .stopNext 0 true,
    .stopNext 0 true, .stopNext 0 true, .stopNext 0 true, .stopNext 0 true, .stopNext 0 true,
    .stopNext 0 true, .stopNext 0 true, .stopNext 0 true]

theorem listener_accounting_served :
    ∃ m, run (guarded Machine.step meets) (Machine.init 4 4) served = some m ∧
      m.accepted = 1 ∧ m.stopped = true ∧ Finished m :=
  ⟨_, rfl, rfl, rfl, ((listener_accounting 4 4).2 served _ rfl rfl [] _ rfl).1⟩

/-! ### Without the condition -/

/-- Where a `start` comes to its end against what a call of `stop` has read, that call sets
`STOPPED` all the same. -/
theorem stopped_without_proof {k : StopId} {result : Bool} (hstart : m.start = .ending result)
    (hpc : m.stops k = .last true) (hconnections : m.connections = [])
    (hstale : stillHolds m (m.stops k) = false) :
    ∃ m', run Machine.step m [.startNext true, .stopNext k true] = some m' ∧ m'.stopped = true ∧
      (acceptorDone m' && m'.socketDone) = false := by
  rw [hpc] at hstale
  refine ⟨{ m.stopAt k .finished with
    startInFlight := false, start := .finished result, state := .stopped, stopped := true },
    ?_, rfl, hstale⟩
  simp [run, Machine.step, Machine.startStep, Machine.stopStep, Machine.endStop, Machine.stopAt,
    hstart, hpc, hconnections]

/-- The call of `stop` looks before the socket is made, and decides after the close of the socket
has failed. -/
def closedTooLate : List Event :=
  [.start, .stop, .stopNext 0 true, .stopNext 0 true, .stopNext 0 true, .stopNext 0 true,
    .reap (.stop 0), .reapNext true, .stopNext 0 true, .stopNext 0 true, .stopNext 0 true,
    .stopNext 0 true, .stopNext 0 true, .startNext true, .startNext true, .startNext true,
    .startNext true, .startNext false, .startNext true, .stopNext 0 true]

/-- The call of `stop` looks before the acceptor is tried, and decides after its thread has
begun. -/
def startedTooLate : List Event :=
  [.start, .startNext true, .startNext true, .startNext true, .stop, .stopNext 0 true,
    .stopNext 0 true, .stopNext 0 true, .stopNext 0 true, .reap (.stop 0), .reapNext true,
    .stopNext 0 true, .stopNext 0 true, .stopNext 0 true, .stopNext 0 true, .stopNext 0 true,
    .stopNext 0 true, .startNext true, .acceptor .birth, .startNext true, .startNext true,
    .startNext true, .stopNext 0 true]

/-- **`STOPPED` is set with a listening socket that was not closed, and with an acceptor thread
that runs.** -/
theorem stopped_too_early :
    (∃ m, run Machine.step (Machine.init 1 1) closedTooLate = some m ∧ m.state = .stopped ∧
      m.stopped = true ∧ m.socket = true ∧ m.socketClosed = false) ∧
    ∃ m, run Machine.step (Machine.init 1 1) startedTooLate = some m ∧ m.state = .stopped ∧
      m.stopped = true ∧ m.acceptor.isAlive = true :=
  ⟨⟨_, rfl, rfl, rfl, rfl, rfl⟩, ⟨_, rfl, rfl, rfl, rfl⟩⟩

end MaskGateway.Proofs.Pgwire.Listener
