import MaskGateway.Proofs.Pgwire.ListenerMoves

/-!
# `MaskGateway.Proofs.Pgwire.ListenerThreads`: owners, threads and calls

What the flags of an owner say about its thread (`Sound`), and where the calls can be
(`Calls`): once a call of `stop` is past its join, the acceptor will never be in its body again
(`Quiet`), and whoever is in `_reap` waits for it.
-/

set_option autoImplicit false

namespace MaskGateway.Proofs.Pgwire.Listener

open MaskGateway.Pgwire.Listener

/-! ### One owner -/

/-- What can happen to an owner and its thread. -/
inductive Changed (o : Owned) : Owned → Prop where
  | same : Changed o o
  | step (event : ThreadEvent) (o' : Owned) (h : o.step event = some o') : Changed o o'
  | attempt : Changed o o.attempt
  | confirm : Changed o o.confirm
  | abandon : Changed o o.abandon
  | cancel : Changed o o.cancel

/-- What the flags of an owner say about its thread. -/
structure Sound (o : Owned) : Prop where
  unborn : o.state = .idle → o.life = .unborn
  ran : o.life = .inside → o.ran = true
  kept : o.ran = true → o.cancelled = false
  done : o.done = true → o.life = .ending ∨ o.life = .dead

/-- The thread will never be in its body again. -/
def Quiet (o : Owned) : Prop := o.life = .dead ∨ (o.ran = false ∧ o.cancelled = true)

variable {o o' : Owned}

@[simp] theorem life_abandon (o : Owned) : o.abandon.life = o.life := by
  unfold Owned.abandon
  split <;> rfl

@[simp] theorem life_cancel (o : Owned) : o.cancel.life = o.life := by
  unfold Owned.cancel
  split <;> rfl

@[simp] theorem state_abandon (o : Owned) : o.abandon.state = o.state := by
  unfold Owned.abandon
  split <;> rfl

@[simp] theorem state_cancel (o : Owned) : o.cancel.state = o.state := by
  unfold Owned.cancel
  split <;> rfl

/-- Who is cancelled has ended, or not, as before. -/
theorem ended_cancel (o : Owned) : o.cancel.ended = o.ended := by
  unfold Owned.cancel
  split <;> rfl

theorem Changed.sound (h : Changed o o') (hsound : Sound o) : Sound o' := by
  obtain ⟨hunborn, hran, hkept, hdone⟩ := hsound
  cases h with
  | same => exact ⟨hunborn, hran, hkept, hdone⟩
  | step event o' h =>
      cases event <;>
        simp only [Owned.step, Option.ite_none_right_eq_some, Option.some.injEq] at h <;>
        obtain ⟨hlife, rfl⟩ := h <;> constructor <;> grind -ring -linarith -order -ac
  | attempt => exact ⟨(fun h => by cases h), hran, hkept, hdone⟩
  | confirm => exact ⟨(fun h => by cases h), hran, hkept, hdone⟩
  | abandon =>
      unfold Owned.abandon
      split
      · exact ⟨hunborn, hran, hkept, hdone⟩
      · exact ⟨hunborn, hran, fun h => absurd h ‹_›, hdone⟩
  | cancel =>
      unfold Owned.cancel
      split
      · rename_i hcancel
        exact ⟨hunborn, hran, fun h => absurd (hcancel.1.symm.trans h) (by decide), hdone⟩
      · exact ⟨hunborn, hran, hkept, hdone⟩

/-- A cancelled thread stays out of its body, and a dead one stays dead. -/
theorem Changed.quiet (h : Changed o o') (hquiet : Quiet o) : Quiet o' := by
  unfold Quiet at hquiet ⊢
  cases h with
  | same => exact hquiet
  | step event o' h =>
      cases event <;>
        simp only [Owned.step, Option.ite_none_right_eq_some, Option.some.injEq] at h <;>
        obtain ⟨hlife, rfl⟩ := h <;> grind -ring -linarith -order -ac
  | attempt => exact hquiet
  | confirm => exact hquiet
  | abandon =>
      unfold Owned.abandon
      split <;> grind -ring -linarith -order -ac
  | cancel =>
      unfold Owned.cancel
      split <;> grind -ring -linarith -order -ac

/-- Nobody is in the body of a quiet thread. -/
theorem Quiet.not_inside (h : Quiet o) (hsound : Sound o) : o.life ≠ .inside := by
  intro hinside
  rcases h with hdead | ⟨hran, -⟩
  · exact absurd (hinside.symm.trans hdead) (by decide)
  · exact absurd (hran.symm.trans (hsound.ran hinside)) (by decide)

/-- The section of `settled` leaves an owner that ran, was started or is cancelled. -/
theorem cancel_cases (o : Owned) :
    o.cancel.ran = true ∨ o.cancel.state = .started ∨ o.cancel.cancelled = true := by
  unfold Owned.cancel
  split
  · exact .inr (.inr rfl)
  · rename_i h
    by_cases hran : o.ran = true
    · exact .inl hran
    · exact .inr (.inl (not_not.mp fun hstate => h ⟨Bool.eq_false_iff.mpr hran, hstate⟩))

/-- What does not let a join go through is a thread that is over. -/
theorem quiet_of_not_joinable (h : o.ran = true ∨ o.state = .started ∨ o.cancelled = true)
    (hjoinable : o.joinable = false) : Quiet o := by
  unfold Owned.joinable at hjoinable
  simp only [decide_eq_false_iff_not, not_or] at hjoinable
  refine .inr ⟨Bool.eq_false_iff.mpr hjoinable.2.1, ?_⟩
  rcases h with h | h | h
  · exact absurd h hjoinable.2.1
  · exact absurd h hjoinable.1
  · exact h

/-- An owner that ran, was started or is cancelled stays so, if it stays started. -/
theorem Changed.cases_kept (h : Changed o o')
    (hcases : o.ran = true ∨ o.state = .started ∨ o.cancelled = true)
    (hstarted : o.state = .started → o'.state = .started) :
    o'.ran = true ∨ o'.state = .started ∨ o'.cancelled = true := by
  have hran : o.ran = true → o'.ran = true := by
    intro hran
    cases h with
    | same => exact hran
    | step event o' h =>
        cases event <;>
          simp only [Owned.step, Option.ite_none_right_eq_some, Option.some.injEq] at h <;>
          obtain ⟨hlife, rfl⟩ := h <;> grind -ring -linarith -order -ac
    | attempt => exact hran
    | confirm => exact hran
    | abandon => simp [Owned.abandon, hran]
    | cancel => simp [Owned.cancel, hran]
  have hcancelled : o.cancelled = true → o'.cancelled = true := by
    intro hcancelled
    cases h with
    | same => exact hcancelled
    | step event o' h =>
        cases event <;>
          simp only [Owned.step, Option.ite_none_right_eq_some, Option.some.injEq] at h <;>
          obtain ⟨hlife, rfl⟩ := h <;> grind -ring -linarith -order -ac
    | attempt => exact hcancelled
    | confirm => exact hcancelled
    | abandon =>
        unfold Owned.abandon
        split
        · exact hcancelled
        · rfl
    | cancel =>
        unfold Owned.cancel
        split
        · rfl
        · exact hcancelled
  exact hcases.imp hran (Or.imp hstarted hcancelled)

/-! ### Owners and the steps of the machine -/

variable {m m' : Machine} {e : Event}

theorem acceptor_changed (h : Moved m e m') : Changed m.acceptor m'.acceptor := by
  cases h with
  | starts ok state stop socket closed closeFailed acceptor start hfrom hto hstate hclosed
      hacceptor =>
      cases hacceptor with
      | nothing => exact .same
      | attempt => exact .attempt
      | confirm => exact .confirm
      | abandon => exact .abandon
  | thread event o ho => exact .step event o ho
  | enters o pc ho => exact .step .enter o ho
  | leaves o ho => exact .step .leave o ho
  | stopSettles => exact .cancel
  | _ => exact .same

/-- A thread keeps the state of its owner. -/
theorem state_of_step {event : ThreadEvent} (h : o.step event = some o') : o'.state = o.state := by
  cases event <;>
    simp only [Owned.step, Option.ite_none_right_eq_some, Option.some.injEq] at h <;>
    obtain ⟨-, rfl⟩ := h
  case enter => split <;> rfl
  all_goals rfl

/-- What a step does to one record. -/
inductive RecordStep (m : Machine) (j : ConnId) : Connection → Prop where
  | same : RecordStep m j (m.record j)
  | tries (hpc : m.accept = .starting j) :
      RecordStep m j { m.record j with owned := (m.record j).owned.attempt }
  | confirms (hpc : m.accept = .confirming j) :
      RecordStep m j { m.record j with owned := (m.record j).owned.confirm }
  /-- A step of its thread, or somebody who cancels it. -/
  | owns (o : Owned) (hchanged : Changed (m.record j).owned o)
      (hstate : o.state = (m.record j).owned.state) :
      RecordStep m j { m.record j with owned := o }
  | promotes (hlife : (m.record j).owned.life = .inside)
      (hfirst : (m.record j).authenticated = false) (hroom : m.auth < m.sessionSlots) :
      RecordStep m j { m.record j with authenticated := true }
  | closes (r : Reap) (todo : List ConnId) (settled : Bool) (c : Connection)
      (hreap : m.reap = some r) (htodo : r.todo = j :: todo) (hpc : r.pc = .closing settled)
      (hc : c = { m.record j with closed := true } ∨ c = { m.record j with closeFailed := true }) :
      RecordStep m j c

/-- What happens to one record leaves the others alone. -/
theorem recordStep_update {i : ConnId} {c : Connection} (h : RecordStep m i c) (j : ConnId) :
    RecordStep m j (Function.update m.record i c j) := by
  by_cases hj : j = i
  · subst hj
    simpa using h
  · simpa [Function.update_of_ne hj] using RecordStep.same

theorem record_step (h : Moved m e m') (j : ConnId) : RecordStep m j (m'.record j) := by
  cases h with
  | tries event i hpc => exact recordStep_update (.tries hpc) j
  | tried event i o pc hpc =>
      rcases hpc with ⟨hpc, rfl⟩ | ⟨-, rfl⟩
      · exact recordStep_update (.confirms hpc) j
      · exact recordStep_update (.owns _ .abandon (state_abandon _)) j
  | connection i event o ho =>
      exact recordStep_update (.owns o (.step event o ho) (state_of_step ho)) j
  | promoted i hlife hfirst hroom => exact recordStep_update (.promotes hlife hfirst hroom) j
  | reapSettled ok r i => exact recordStep_update (.owns _ .cancel (state_cancel _)) j
  | reapClosed ok r i todo settled c pc hreap htodo hpc hc =>
      exact recordStep_update (.closes r todo settled c hreap htodo hpc hc) j
  | stopCancels k ok i => exact recordStep_update (.owns _ .cancel (state_cancel _)) j
  | _ => exact .same

theorem RecordStep.changed {j : ConnId} {c : Connection} (h : RecordStep m j c) :
    Changed (m.record j).owned c.owned := by
  cases h with
  | same => exact .same
  | tries => exact .attempt
  | confirms => exact .confirm
  | owns o hchanged => exact hchanged
  | promotes => exact .same
  | closes r todo settled c hreap htodo hpc hc => rcases hc with rfl | rfl <;> exact .same

/-- Nothing makes the listener new again. -/
theorem old_moved (h : Moved m e m') (hold : m.state ≠ .new) : m'.state ≠ .new := by
  cases h with
  | begun => exact ListenerState.noConfusion
  | starts _ _ _ _ _ _ _ _ _ _ hstate => exact hstate hold
  | requested _ hstate => exact hstate
  | walks _ _ _ _ hstate => exact hstate hold
  | reapBroke _ _ _ _ _ _ _ _ _ hstate => exact hstate hold
  | stopNew => exact ListenerState.noConfusion
  | stops _ _ hstate => exact hstate
  | stopComplete => exact ListenerState.noConfusion
  | stopIncomplete => exact ListenerState.noConfusion
  | _ => exact hold

theorem Walks.inside {pc pc' : AcceptPc} (h : Walks m pc pc') :
    pc ≠ .outside ∧ pc' ≠ .outside := by
  cases h <;> grind -ring -linarith -order -ac

theorem Closes.inside {pc pc' : AcceptPc} {i : ConnId} (h : Closes pc i pc') :
    pc ≠ .outside ∧ pc' ≠ .outside := by
  cases h <;> grind -ring -linarith -order -ac

theorem inside_moved (hreaper : ∀ r, m.reap = some r → r.owner = .acceptor →
      m.accept = .reaping true ∨ m.accept = .reaping false)
    (hinside : m.acceptor.life = .inside ↔ m.accept ≠ .outside) (h : Moved m e m') :
    m'.acceptor.life = .inside ↔ m'.accept ≠ .outside := by
  -- A step of the body goes from one place in it to another.
  have hwithin : ∀ {pc pc' : AcceptPc}, m.accept = pc → pc ≠ .outside → pc' ≠ .outside →
      (m.acceptor.life = .inside ↔ pc' ≠ .outside) := by
    intro pc pc' hpc hfrom hto
    exact iff_of_true (hinside.mpr (hpc ▸ hfrom)) hto
  cases h with
  | starts ok state stop socket closed closeFailed acceptor start hfrom hto hstate hclosed
      hacceptor =>
      cases hacceptor with
      | nothing => exact hinside
      | attempt => exact hinside
      | confirm => exact hinside
      | abandon => simpa using hinside
  | thread event o ho hevent hlife =>
      refine iff_of_false hlife (not_not.mpr ?_)
      by_contra hpc
      have hin := hinside.mpr hpc
      cases event <;> simp [Owned.step, hin] at ho
      exact hevent rfl
  | enters o pc ho hlife hpc =>
      refine iff_of_true hlife ?_
      rcases hpc with rfl | rfl <;> exact AcceptPc.noConfusion
  | leaves o ho =>
      have hlife : o.life = .ending := life_of_step ho
      exact iff_of_false (by rw [hlife]; decide) (not_not.mpr rfl)
  | walks event state pc hpc => exact hwithin rfl hpc.inside.1 hpc.inside.2
  | accepted event hpc => exact hwithin hpc AcceptPc.noConfusion AcceptPc.noConfusion
  | admitted event i hpc => exact hwithin hpc AcceptPc.noConfusion AcceptPc.noConfusion
  | tries event i hpc => exact hwithin hpc AcceptPc.noConfusion AcceptPc.noConfusion
  | tried event i o pc hpc hpc' => exact hwithin rfl (by grind -ring -linarith -order -ac) (by grind -ring -linarith -order -ac)
  | closes event i pc hpc => exact hwithin rfl hpc.inside.1 hpc.inside.2
  | retains event i refused pc hpc hpc' =>
      exact hwithin hpc AcceptPc.noConfusion (by grind -ring -linarith -order -ac)
  | reapReturned ok r pc hreap howner hpc =>
      have hplace := hreaper r hreap howner
      exact hwithin rfl (by grind -ring -linarith -order -ac) (by grind -ring -linarith -order -ac)
  | stopSettles => simpa [Machine.stopAt] using hinside
  | _ => exact hinside

/-! ### Where the calls are -/

/-- What a call of `stop` knows of the acceptor in each of its places. -/
def StopKnows (m : Machine) : StopPc → Prop
  | .idle | .settling | .joining | .finished => True
  | .testing =>
      m.acceptor.ran = true ∨ m.acceptor.state = .started ∨ m.acceptor.cancelled = true
  | _ => Quiet m.acceptor

/-- A listener that nobody has started or stopped. -/
structure Untouched (m : Machine) : Prop where
  start : m.start = .before
  socket : m.socket = false
  acceptor : m.acceptor.state = .idle
  connections : m.connections = []
  retained : m.retained = []

/-- Where the threads and the calls are. -/
structure Calls (m : Machine) : Prop where
  acceptor : Sound m.acceptor
  record : ∀ i, Sound (m.record i).owned
  inside : m.acceptor.life = .inside ↔ m.accept ≠ .outside
  reaper : ∀ r, m.reap = some r → match r.owner with
    | .acceptor => m.accept = .reaping true ∨ m.accept = .reaping false
    | .stop k => m.stops k = .reaping
  flight : m.startInFlight = inFlight m.start
  tried : untried m.start = true → m.acceptor.state = .idle
  new : m.state = .new → Untouched m
  stops : ∀ k, StopKnows m (m.stops k)
  old : ∀ k, m.stops k ≠ .idle → m.state ≠ .new
  uncalled : ∀ k, m.called ≤ k → m.stops k = .idle

/-- What a step does to one call of `stop`. -/
inductive StopStep (m m' : Machine) (j : StopId) : StopPc → Prop where
  | same : StopStep m m' j (m.stops j)
  | called (pc : StopPc) (hj : j = m.called) (hold : m'.state ≠ .new)
      (hnext : m'.called = m.called + 1) (hpc : pc = .finished ∨ pc = .settling) :
      StopStep m m' j pc
  | goes (pc : StopPc) (hgoes : Goes m (m.stops j) pc) (hacceptor : m'.acceptor = m.acceptor) :
      StopStep m m' j pc
  | settles (pc : StopPc) (hsettles : Settles m (m.stops j) pc)
      (hacceptor : m'.acceptor = m.acceptor.cancel) : StopStep m m' j pc
  | cancels (i : ConnId) (todo : List ConnId) (hpc : m.stops j = .settlingOf (i :: todo)) :
      StopStep m m' j (.testingOf (i :: todo))
  | closes (hpc : m.stops j = .closingSocket) : StopStep m m' j .retained
  | ends (complete : Bool) (hpc : m.stops j = .last complete) : StopStep m m' j .finished
  | reaped (r : Reap) (hreap : m.reap = some r) (howner : r.owner = .stop j)
      (hfree : m'.reap = none) : StopStep m m' j .resettling

/-- A call that goes on leaves the others where they are. -/
theorem stopStep_update {k : StopId} {pc : StopPc} (h : StopStep m m' k pc) (j : StopId) :
    StopStep m m' j (Function.update m.stops k pc j) := by
  by_cases hj : j = k
  · subst hj
    simpa using h
  · simpa [Function.update_of_ne hj] using StopStep.same

theorem stop_step (h : Moved m e m') (j : StopId) : StopStep m m' j (m'.stops j) := by
  cases h with
  | reapEnded ok r k hreap howner => exact stopStep_update (.reaped r hreap howner rfl) j
  | stopNew => exact stopStep_update (.called _ rfl ListenerState.noConfusion rfl (.inl rfl)) j
  | stops state hold hstate => exact stopStep_update (.called _ rfl hstate rfl (.inr rfl)) j
  | stopGoes k ok pc hgoes =>
      refine stopStep_update ?_ j
      exact .goes pc hgoes rfl
  | stopSettles k ok pc hsettles => exact stopStep_update (.settles pc hsettles rfl) j
  | stopCancels k ok i todo hpc => exact stopStep_update (.cancels i todo hpc) j
  | stopCloses k ok closed closeFailed hpc => exact stopStep_update (.closes hpc) j
  | stopComplete k ok hpc => exact stopStep_update (.ends true hpc) j
  | stopIncomplete k ok complete hpc => exact stopStep_update (.ends complete hpc) j
  | _ => exact .same

/-- The acceptor, once started, stays so. -/
theorem started_kept (hcalls : Calls m) (h : Moved m e m')
    (hstarted : m.acceptor.state = .started) : m'.acceptor.state = .started := by
  cases h with
  | starts ok state stop socket closed closeFailed acceptor start hfrom hto hstate hclosed
      hacceptor =>
      cases hacceptor with
      | nothing => exact hstarted
      | attempt hfrom =>
          exact absurd (hstarted.symm.trans (hcalls.tried hfrom)) (by decide)
      | confirm => rfl
      | abandon => simpa using hstarted
  | thread event o ho => exact (state_of_step ho).trans hstarted
  | enters o pc ho => exact (state_of_step ho).trans hstarted
  | leaves o ho => exact (state_of_step ho).trans hstarted
  | stopSettles => simpa [Machine.stopAt] using hstarted
  | _ => exact hstarted

/-- What a call of `stop` knows of the acceptor stays true. -/
theorem StopKnows.kept {pc : StopPc} (hchanged : Changed m.acceptor m'.acceptor)
    (hstarted : m.acceptor.state = .started → m'.acceptor.state = .started)
    (h : StopKnows m pc) : StopKnows m' pc := by
  cases pc with
  | idle | settling | joining | finished => trivial
  | testing => exact hchanged.cases_kept h hstarted
  | _ => exact hchanged.quiet h

theorem Goes.knows {pc pc' : StopPc} (hgoes : Goes m pc pc') (h : StopKnows m pc) :
    StopKnows m pc' := by
  cases hgoes with
  | joins => trivial
  | skips hjoinable => exact quiet_of_not_joinable h hjoinable
  | joined hdead => exact .inl hdead
  | copied => exact h
  | along pc pc' hfrom hto =>
      have hquiet : Quiet m.acceptor := by
        cases pc <;> first | exact h | exact hfrom.elim
      cases pc' <;> first | exact hquiet | exact hto.elim
  | looked => exact h
  | reread empty => exact h
  | found settled empty => exact h

theorem stops_moved (hcalls : Calls m) (h : Moved m e m') (j : StopId) :
    StopKnows m' (m'.stops j) := by
  have hchanged := acceptor_changed h
  have hkept : ∀ {pc}, StopKnows m pc → StopKnows m' pc :=
    StopKnows.kept hchanged (started_kept hcalls h)
  have hknows := hcalls.stops j
  have hstep := stop_step h j
  generalize m'.stops j = pc' at hstep ⊢
  cases hstep with
  | same => exact hkept hknows
  | called pc hj hold hnext hpc => rcases hpc with rfl | rfl <;> trivial
  | goes pc hgoes => exact hkept (hgoes.knows hknows)
  | settles pc hsettles hacceptor =>
      generalize m.stops j = before at hsettles hknows
      cases hsettles with
      | first =>
          show m'.acceptor.ran = true ∨ m'.acceptor.state = .started ∨ m'.acceptor.cancelled = true
          rw [hacceptor]
          exact cancel_cases m.acceptor
      | second pc hpc => rcases hpc with rfl | rfl <;> exact hchanged.quiet hknows
      | idle empty => exact hchanged.quiet hknows
      | tried empty => exact hchanged.quiet hknows
  | cancels i todo hpc =>
      rw [hpc] at hknows
      exact hchanged.quiet hknows
  | closes hpc =>
      rw [hpc] at hknows
      exact hchanged.quiet hknows
  | ends complete hpc => trivial
  | reaped r hreap howner =>
      have hplace := hcalls.reaper r hreap
      rw [howner] at hplace
      rw [show m.stops j = .reaping from hplace] at hknows
      exact hchanged.quiet hknows

/-- A call that goes on has begun. -/
theorem StopStep.begun {j : StopId} {pc : StopPc} (hcalls : Calls m) (h : StopStep m m' j pc) :
    pc = m.stops j ∨ (j = m.called ∧ m'.state ≠ .new ∧ m'.called = m.called + 1) ∨
      m.stops j ≠ .idle := by
  cases h with
  | same => exact .inl rfl
  | called pc hj hold hnext => exact .inr (.inl ⟨hj, hold, hnext⟩)
  | goes pc hgoes =>
      refine .inr (.inr fun hidle => ?_)
      generalize m.stops j = before at hgoes hidle
      subst hidle
      cases hgoes
      case along hfrom _ => exact hfrom
  | settles pc hsettles =>
      refine .inr (.inr fun hidle => ?_)
      generalize m.stops j = before at hsettles hidle
      subst hidle
      cases hsettles
  | cancels i todo hpc => exact .inr (.inr (by rw [hpc]; exact StopPc.noConfusion))
  | closes hpc => exact .inr (.inr (by rw [hpc]; exact StopPc.noConfusion))
  | ends complete hpc => exact .inr (.inr (by rw [hpc]; exact StopPc.noConfusion))
  | reaped r hreap howner =>
      have hplace := hcalls.reaper r hreap
      rw [howner] at hplace
      exact .inr (.inr (by rw [show m.stops j = .reaping from hplace]; exact StopPc.noConfusion))

theorem old_kept (hcalls : Calls m) (h : Moved m e m') {k : StopId}
    (hk : m'.stops k ≠ .idle) : m'.state ≠ .new := by
  rcases (stop_step h k).begun hcalls with hsame | ⟨-, hold, -⟩ | hbegun
  · exact old_moved h (hcalls.old k (hsame ▸ hk))
  · exact hold
  · exact old_moved h (hcalls.old k hbegun)

theorem called_le (h : Moved m e m') : m.called ≤ m'.called := by
  cases h with
  | stopNew => exact Nat.le_succ _
  | stops => exact Nat.le_succ _
  | _ => exact Nat.le_refl _

theorem uncalled_kept (hcalls : Calls m) (h : Moved m e m') {k : StopId}
    (hk : m'.called ≤ k) : m'.stops k = .idle := by
  have hidle := hcalls.uncalled k (Nat.le_trans (called_le h) hk)
  rcases (stop_step h k).begun hcalls with hsame | ⟨rfl, -, hnext⟩ | hbegun
  · exact hsame.trans hidle
  · exact absurd (hnext ▸ hk) (Nat.not_succ_le_self _)
  · exact absurd hidle hbegun

/-- The acceptor waits for its `_reap` to return. -/
theorem accept_waits (hcalls : Calls m) (h : Moved m e m') {last : Bool}
    (hpc : m.accept = .reaping last) : m'.accept = .reaping last ∨ m'.reap = none := by
  cases h with
  | enters o pc ho =>
      have hin := hcalls.inside.mpr (by rw [hpc]; exact AcceptPc.noConfusion)
      simp [Owned.step, hin] at ho
  | leaves o ho hfrom => rw [hpc] at hfrom; simp at hfrom
  | walks event state pc hwalks =>
      rw [hpc] at hwalks
      cases hwalks
      case loops hfrom => simp at hfrom
      case raises hfrom => simp at hfrom
  | accepted event hfrom => rw [hpc] at hfrom; cases hfrom
  | admitted event i hfrom => rw [hpc] at hfrom; cases hfrom
  | tries event i hfrom => rw [hpc] at hfrom; cases hfrom
  | tried event i o pc hfrom => rw [hpc] at hfrom; simp at hfrom
  | closes event i pc hcloses => rw [hpc] at hcloses; cases hcloses
  | retains event i refused pc hfrom => rw [hpc] at hfrom; cases hfrom
  | reapReturned => exact .inr rfl
  | _ => exact .inl hpc

/-- So does a call of `stop`. -/
theorem stop_waits (hcalls : Calls m) (h : Moved m e m') {k : StopId}
    (hpc : m.stops k = .reaping) : m'.stops k = .reaping ∨ m'.reap = none := by
  have hstep := stop_step h k
  generalize m'.stops k = pc' at hstep ⊢
  cases hstep with
  | same => exact .inl hpc
  | called pc hk =>
      rw [hcalls.uncalled k (Nat.le_of_eq hk.symm)] at hpc
      cases hpc
  | goes pc hgoes =>
      rw [hpc] at hgoes
      cases hgoes
      case along hfrom _ => exact hfrom.elim
  | settles pc hsettles =>
      rw [hpc] at hsettles
      cases hsettles
  | cancels i todo hfrom => rw [hpc] at hfrom; cases hfrom
  | closes hfrom => rw [hpc] at hfrom; cases hfrom
  | ends complete hfrom => rw [hpc] at hfrom; cases hfrom
  | reaped r hreap howner hfree => exact .inr hfree

/-- Whoever is in `_reap` waits for it. -/
theorem reaper_moved (hcalls : Calls m) (h : Moved m e m') {r : Reap} (hr : m'.reap = some r) :
    match r.owner with
    | .acceptor => m'.accept = .reaping true ∨ m'.accept = .reaping false
    | .stop k => m'.stops k = .reaping := by
  have hbusy : m'.reap ≠ none := by
    rw [hr]
    exact Option.some_ne_none r
  -- Nothing but its own return takes a caller out of `_reap`.
  have hkept : ∀ {r₀ : Reap}, m.reap = some r₀ → r₀.owner = r.owner →
      match r.owner with
      | .acceptor => m'.accept = .reaping true ∨ m'.accept = .reaping false
      | .stop k => m'.stops k = .reaping := by
    intro r₀ hr₀ howner
    have hplace := hcalls.reaper r₀ hr₀
    rw [howner] at hplace
    split at hplace
    · exact hplace.imp (fun hpc => (accept_waits hcalls h hpc).resolve_right hbusy)
        (fun hpc => (accept_waits hcalls h hpc).resolve_right hbusy)
    · exact (stop_waits hcalls h hplace).resolve_right hbusy
  cases h with
  | reapBegun owner hfree howner =>
      obtain rfl := Option.some.inj hr
      exact howner
  | reapReturned => cases hr
  | reapEnded => cases hr
  | reapSettled ok r₀ i todo hreap | reapRead ok r₀ i todo hreap
  | reapJudged ok r₀ i todo settled pc hreap | reapClosed ok r₀ i todo settled c pc hreap
  | reapBroke ok r₀ i todo settled state hreap
  | dropped ok r₀ i todo preAuth auth hreap | reapPassed ok r₀ i todo settled hreap =>
      obtain rfl := Option.some.inj hr
      exact hkept hreap rfl
  | _ => exact hkept hr rfl

theorem flight_moved (hcalls : Calls m) (h : Moved m e m') :
    m'.startInFlight = inFlight m'.start := by
  cases h with
  | begun => rfl
  | starts ok state stop socket closed closeFailed acceptor start hfrom hto =>
      exact hcalls.flight.trans (hfrom.trans hto.symm)
  | started => rfl
  | _ => exact hcalls.flight

theorem tried_moved (hcalls : Calls m) (h : Moved m e m') (huntried : untried m'.start = true) :
    m'.acceptor.state = .idle := by
  cases h with
  | begun hnew => exact (hcalls.new hnew).acceptor
  | starts ok state stop socket closed closeFailed acceptor start hfrom hto hstate hclosed
      hacceptor =>
      cases hacceptor with
      | nothing hkeep => exact hcalls.tried (hkeep huntried)
      | attempt hfrom hlate => exact absurd (hlate.symm.trans huntried) (by decide)
      | confirm hlate => exact absurd (hlate.symm.trans huntried) (by decide)
      | abandon hlate => exact absurd (hlate.symm.trans huntried) (by decide)
  | started => cases huntried
  | thread event o ho => exact (state_of_step ho).trans (hcalls.tried huntried)
  | enters o pc ho => exact (state_of_step ho).trans (hcalls.tried huntried)
  | leaves o ho => exact (state_of_step ho).trans (hcalls.tried huntried)
  | stopSettles => simpa [Machine.stopAt] using hcalls.tried huntried
  | _ => exact hcalls.tried huntried

/-- Before anybody starts the listener, its acceptor is nowhere. -/
theorem Untouched.outside (huntouched : Untouched m) (hcalls : Calls m) : m.accept = .outside := by
  by_contra hpc
  have hlife := hcalls.inside.mpr hpc
  rw [hcalls.acceptor.unborn huntouched.acceptor] at hlife
  cases hlife

theorem new_moved (hcalls : Calls m) (h : Moved m e m') (hnew : m'.state = .new) :
    Untouched m' := by
  have hbefore : m.state = .new := by
    by_contra hold
    exact old_moved h hold hnew
  have huntouched := hcalls.new hbefore
  have hout := huntouched.outside hcalls
  have hunborn := hcalls.acceptor.unborn huntouched.acceptor
  cases h with
  | begun => cases hnew
  | starts ok state stop socket closed closeFailed acceptor start hfrom =>
      rw [huntouched.start] at hfrom
      cases hfrom
  | started ok result hstart =>
      rw [huntouched.start] at hstart
      cases hstart
  | thread event o ho =>
      exact ⟨huntouched.start, huntouched.socket, (state_of_step ho).trans huntouched.acceptor,
        huntouched.connections, huntouched.retained⟩
  | enters o pc ho => simp [Owned.step, hunborn] at ho
  | leaves o ho => simp [Owned.step, hunborn] at ho
  | walks event state pc hwalks => exact absurd hout hwalks.inside.1
  | accepted event hpc => rw [hout] at hpc; cases hpc
  | admitted event i hpc => rw [hout] at hpc; cases hpc
  | tries event i hpc => rw [hout] at hpc; cases hpc
  | tried event i o pc hpc => rw [hout] at hpc; simp at hpc
  | closes event i pc hcloses => exact absurd hout hcloses.inside.1
  | retains event i refused pc hpc => rw [hout] at hpc; cases hpc
  | dropped ok r i =>
      refine ⟨huntouched.start, huntouched.socket, huntouched.acceptor, ?_, huntouched.retained⟩
      show m.connections.erase i = []
      rw [huntouched.connections]
      rfl
  | stopSettles k ok pc hsettles =>
      refine ⟨huntouched.start, huntouched.socket, ?_, huntouched.connections,
        huntouched.retained⟩
      show m.acceptor.cancel.state = .idle
      rw [state_cancel, huntouched.acceptor]
  | stopComplete => cases hnew
  | stopIncomplete => cases hnew
  | stopNew => cases hnew
  | stops state hold hstate => exact absurd hnew hstate
  | requested state hstate => exact absurd hnew hstate
  | _ =>
      exact ⟨huntouched.start, huntouched.socket, huntouched.acceptor, huntouched.connections,
        huntouched.retained⟩

/-- **Every step keeps threads and calls where they can be.** -/
theorem calls_moved (hcalls : Calls m) (h : Moved m e m') : Calls m' where
  acceptor := (acceptor_changed h).sound hcalls.acceptor
  record i := (record_step h i).changed.sound (hcalls.record i)
  inside := by
    refine inside_moved (fun r hr howner => ?_) hcalls.inside h
    have hplace := hcalls.reaper r hr
    rw [howner] at hplace
    exact hplace
  reaper _ := reaper_moved hcalls h
  flight := flight_moved hcalls h
  tried := tried_moved hcalls h
  new := new_moved hcalls h
  stops := stops_moved hcalls h
  old _ := old_kept hcalls h
  uncalled _ := uncalled_kept hcalls h

theorem calls_init (preAuthSlots sessionSlots : Nat) :
    Calls (Machine.init preAuthSlots sessionSlots) where
  acceptor := ⟨fun _ => rfl, (nomatch ·), (nomatch ·), (nomatch ·)⟩
  record _ := ⟨fun _ => rfl, (nomatch ·), (nomatch ·), (nomatch ·)⟩
  inside := iff_of_false (nomatch ·) (not_not.mpr rfl)
  reaper _ h := nomatch h
  flight := rfl
  tried _ := rfl
  new _ := ⟨rfl, rfl, rfl, rfl, rfl⟩
  stops _ := trivial
  old _ h := absurd rfl h
  uncalled _ _ := rfl

end MaskGateway.Proofs.Pgwire.Listener
