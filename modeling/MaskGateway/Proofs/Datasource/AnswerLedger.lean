import MaskGateway.Proofs.Datasource.AnswerRuns
import MaskGateway.Proofs.Datasource.Supervisor

/-!
# `MaskGateway.Proofs.Datasource.AnswerLedger`: one verification in the ledger

The machine of one verification is that of the ledger, with the pumps followed statement by statement:
a call of the ledger is where a verification is (`Follows`) once its child is spawned
(`follows_spawn`), every step of the verification is an event of the ledger or none (`follows_step`),
and where it ends the call of the ledger ends (`follows_over`).

`verification_in_ledger` says so of whole runs: whatever the verification, its pumps, its child and
the clock do, the ledger has a run that does it too and comes to the same answer.
-/

set_option autoImplicit false

namespace MaskGateway.Proofs.Datasource.Answer

open Lib MaskGateway.Datasource.Verify
open MaskGateway.Proofs.Datasource.Ledger (settle_same)

/-- Where a call of the ledger is when a verification is at a place. -/
def At (accepts : List UInt8 → Bool) (v : Verification) (r : RecordId) (pc : Pc) : Prop :=
  match v.pc with
  | .running run => pc = .running r v.timeout run
  | .reaping completed deadline reap => ∃ interrupted, (completed = true → interrupted = false) ∧
      pc = .reaping (.own completed interrupted) r deadline reap
  | .finished returned => ∃ completed interrupted reaped raised,
      (completed = true → interrupted = false) ∧
      pc = .settling (.own completed interrupted) r reaped raised ∧
      returned = (!raised && reaped && Machine.judge accepts v.res completed)

/-- A call of the ledger is where a verification is. -/
structure Follows (accepts : List UInt8 → Bool) (c : CallId) (r : RecordId) (v : Verification)
    (m : Machine) : Prop where
  now : m.now = v.now
  resources : m.resources r = v.res
  call : At accepts v r (m.calls c)

section
variable {accepts : List UInt8 → Bool} {c : CallId} {r : RecordId} {v v' : Verification}
  {m : Machine} {who : Who}

/-- The call is where it was when neither it nor its child has changed. -/
theorem At.congr {pc : Pc} (h : At accepts v r pc) (hpc : v'.pc = v.pc)
    (htimeout : v'.timeout = v.timeout) (hover : ∀ returned, v.pc ≠ .finished returned) :
    At accepts v' r pc := by
  cases hv : v.pc with
  | finished returned => exact absurd hv (hover returned)
  | running run =>
      simp only [At, hv] at h
      simpa only [At, hpc, hv, htimeout] using h
  | reaping completed deadline reap =>
      simp only [At, hv] at h
      simpa only [At, hpc, hv] using h

/-- A step of the verification without the operating system. -/
theorem Follows.same (h : Follows accepts c r v m) (hover : ∀ returned, v.pc ≠ .finished returned)
    (hnow : v'.now = v.now) (hres : v'.res = v.res) (hpc : v'.pc = v.pc)
    (htimeout : v'.timeout = v.timeout) : ∃ events m', events.length ≤ 1 ∧
      run (Machine.step accepts) m events = some m' ∧ Follows accepts c r v' m' :=
  ⟨[], m, Nat.zero_le 1, rfl, h.now.trans hnow.symm, h.resources.trans hres.symm,
    h.call.congr hpc htimeout hover⟩

/-- A child of the ledger changes as the one of the verification. -/
theorem Follows.event (h : Follows accepts c r v m) (hover : ∀ returned, v.pc ≠ .finished returned)
    {e : Datasource.Verify.Event} (he : Machine.step accepts m e = some (m.setResources r v'.res))
    (hnow : v'.now = v.now) (hpc : v'.pc = v.pc) (htimeout : v'.timeout = v.timeout) :
    ∃ events m', events.length ≤ 1 ∧ run (Machine.step accepts) m events = some m' ∧
      Follows accepts c r v' m' :=
  ⟨[e], m.setResources r v'.res, Nat.le_refl 1, run_cons_eq_some.mpr ⟨_, he, rfl⟩,
    h.now.trans hnow.symm, Function.update_self .., h.call.congr hpc htimeout hover⟩

/-- A thread of a pump moves. -/
theorem Follows.move (h : Follows accepts c r v m) (hover : ∀ returned, v.pc ≠ .finished returned)
    {w : Verification} {i : Nat} {move : PumpMove} (hmove : w.move i move = some v')
    (hnow : w.now = v.now) (hres : w.res = v.res) (hpc : w.pc = v.pc)
    (htimeout : w.timeout = v.timeout) : ∃ events m', events.length ≤ 1 ∧
      run (Machine.step accepts) m events = some m' ∧ Follows accepts c r v' m' := by
  obtain ⟨res, hres', rfl⟩ := Option.map_eq_some_iff.mp hmove
  refine h.event hover (e := .pump r i move) ?_ hnow hpc htimeout
  show ((m.resources r).pumpMove i move).map (m.setResources r) = _
  rw [h.resources, ← hres, hres']
  rfl

/-- A thread of a pump goes on, when the steps of its target are followed. -/
theorem Follows.guardedStep (h : Follows accepts c r v m)
    (hover : ∀ returned, v.pc ≠ .finished returned) {i : Nat} {returning : Bool}
    {target : Option Verification} (htarget : target = some v' → ∃ events m', events.length ≤ 1 ∧
      run (Machine.step accepts) m events = some m' ∧ Follows accepts c r v' m')
    (hstep : v.guardedStep i returning target = some v') : ∃ events m', events.length ≤ 1 ∧
      run (Machine.step accepts) m events = some m' ∧ Follows accepts c r v' m' := by
  rw [Verification.guardedStep] at hstep
  split at hstep
  · exact h.move hover hstep rfl rfl rfl rfl
  · split at hstep
    · exact h.move hover hstep rfl rfl rfl rfl
    · exact htarget hstep
  · exact h.move hover hstep rfl rfl rfl rfl
  · exact h.move hover hstep rfl rfl rfl rfl
  · cases hstep
  · cases hstep

/-- `_pump_stdin` goes on. -/
theorem follows_writerStep (h : Follows accepts c r v m)
    (hover : ∀ returned, v.pc ≠ .finished returned) (hstep : v.writerStep = some v') :
    ∃ events m', events.length ≤ 1 ∧ run (Machine.step accepts) m events = some m' ∧
      Follows accepts c r v' m' := by
  refine h.guardedStep hover (fun htarget => ?_) hstep
  split at htarget
  · obtain rfl := Option.some.inj htarget
    exact h.same hover rfl rfl rfl rfl
  · exact h.move hover htarget rfl rfl rfl rfl
  · cases htarget

/-- `_pump_stdout` goes on. -/
theorem follows_readerStep (h : Follows accepts c r v m)
    (hover : ∀ returned, v.pc ≠ .finished returned) (hstep : v.readerStep = some v') :
    ∃ events m', events.length ≤ 1 ∧ run (Machine.step accepts) m events = some m' ∧
      Follows accepts c r v' m' := by
  refine h.guardedStep hover (fun htarget => ?_) hstep
  split at htarget
  · split at htarget
    · obtain rfl := Option.some.inj htarget
      exact h.same hover rfl rfl rfl rfl
    · obtain rfl := Option.some.inj htarget
      exact h.same hover rfl rfl rfl rfl
  · split_ifs at htarget
    · obtain rfl := Option.some.inj htarget
      exact h.same hover rfl rfl rfl rfl
    · exact h.move hover htarget rfl rfl rfl rfl
    · obtain rfl := Option.some.inj htarget
      exact h.same hover rfl rfl rfl rfl
  · exact h.move hover htarget rfl rfl rfl rfl
  · exact h.move hover htarget rfl rfl rfl rfl
  · obtain rfl := Option.some.inj htarget
    exact h.same hover rfl rfl rfl rfl
  · cases htarget

/-- The child goes on. -/
theorem follows_childStep (h : Follows accepts c r v m)
    (hover : ∀ returned, v.pc ≠ .finished returned) (hstep : v.childStep = some v') :
    ∃ events m', events.length ≤ 1 ∧ run (Machine.step accepts) m events = some m' ∧
      Follows accepts c r v' m' := by
  rw [Verification.childStep] at hstep
  split at hstep
  · split_ifs at hstep
    obtain rfl := Option.some.inj hstep
    exact h.same hover rfl rfl rfl rfl
  · obtain rfl := Option.some.inj hstep
    exact h.same hover rfl rfl rfl rfl
  · split_ifs at hstep
    obtain ⟨res, hexits, rfl⟩ := Option.map_eq_some_iff.mp hstep
    refine h.event hover (e := .exits r 0) ?_ rfl rfl rfl
    show ((m.resources r).exits 0 m.now).map (m.setResources r) = _
    rw [h.resources, h.now, hexits]
    rfl
  · cases hstep

/-- The thread of the verification goes on, and so does the call. -/
theorem follows_verifierStep (h : Follows accepts c r v m)
    (hstep : v.verifierStep accepts = some v') : ∃ events m', events.length ≤ 1 ∧
      run (Machine.step accepts) m events = some m' ∧ Follows accepts c r v' m' := by
  have hcall := h.call
  rw [Verification.verifierStep] at hstep
  split at hstep
  next run hpc =>
    simp only [At, hpc] at hcall
    obtain ⟨⟨res, out⟩, hrun, rfl⟩ := Option.map_eq_some_iff.mp hstep
    refine ⟨[.step c ⟨run.effect v.exited, .returned⟩],
      (m.setResources r res).goto c (m.afterRun r v.timeout out), Nat.le_refl 1, ?_, ?_⟩
    · refine run_cons_eq_some.mpr ⟨_, ?_, rfl⟩
      simp only [Machine.step, Machine.callStep, hcall]
      rw [h.resources, h.now, hrun]
      rfl
    · refine ⟨h.now, Function.update_self .., ?_⟩
      show At accepts _ r (Function.update m.calls c _ c)
      rw [Function.update_self, Machine.afterRun.eq_def, h.now]
      cases out with
      | next pc => rfl
      | done completed => exact ⟨false, fun _ => rfl, rfl⟩
      | raised => exact ⟨true, fun hf => (by cases hf), rfl⟩
  next completed deadline reap hpc =>
    simp only [At, hpc] at hcall
    obtain ⟨interrupted, hcompleted, hcall⟩ := hcall
    split_ifs at hstep
    obtain ⟨⟨res, out⟩, hreap, rfl⟩ := Option.map_eq_some_iff.mp hstep
    refine ⟨[.step c ⟨reap.effect v.exited, .returned⟩], (m.setResources r res).goto c
      (Machine.afterReap (.own completed interrupted) r deadline out), Nat.le_refl 1, ?_, ?_⟩
    · refine run_cons_eq_some.mpr ⟨_, ?_, rfl⟩
      simp only [Machine.step, Machine.callStep, hcall]
      rw [h.resources, h.now, hreap]
      rfl
    · refine ⟨h.now, Function.update_self .., ?_⟩
      show At accepts _ r (Function.update m.calls c _ c)
      rw [Function.update_self]
      cases out with
      | next pc => exact ⟨interrupted, hcompleted, rfl⟩
      | done reaped => exact ⟨completed, interrupted, reaped, false, hcompleted, rfl, rfl⟩
      | raised => exact ⟨completed, interrupted, false, true, hcompleted, rfl, rfl⟩
  next => cases hstep

/-- Once the child of a call is spawned, with both pipes, the call is where a verification begins. -/
theorem follows_spawn {timeout : Nat} (hpc : m.calls c = .running r timeout .spawning)
    (hres : m.resources r = {}) : ∃ m', Machine.step accepts m
      (.spawn c (some (some ⟨true, some false, some false, none⟩)) .returned) = some m' ∧
        Follows accepts c r { timeout := timeout, now := m.now } m' := by
  refine ⟨(m.setResources r ({ timeout := timeout } : Verification).res).goto c
    (.running r timeout (.starting 0)), ?_, ?_⟩
  · simp only [Machine.step, Machine.spawnStep, hpc, hres]
    rfl
  · exact ⟨rfl, Function.update_self .., Function.update_self ..⟩

/-- Every step of a verification that is not over is an event of the ledger, or none. -/
theorem follows_step (h : Follows accepts c r v m) (hover : ∀ returned, v.pc ≠ .finished returned)
    (hstep : v.step accepts who = some v') : ∃ events m', events.length ≤ 1 ∧
      run (Machine.step accepts) m events = some m' ∧ Follows accepts c r v' m' := by
  unfold Verification.step at hstep
  split_ifs at hstep
  cases who with
  | verifier => exact follows_verifierStep h hstep
  | writer => exact follows_writerStep h hover hstep
  | reader => exact follows_readerStep h hover hstep
  | child => exact follows_childStep h hover hstep
  | tick =>
      obtain rfl := Option.some.inj hstep
      exact ⟨[.tick], { m with now := m.now + 1 }, Nat.le_refl 1, rfl, congrArg (· + 1) h.now,
        h.resources, h.call.congr rfl rfl hover⟩

/-- Where a verification ends, the call of the ledger ends after it has settled its record. -/
theorem follows_over (h : Follows accepts c r v m) {returned : Bool} (hpc : v.pc = .finished returned) :
    ∃ events m', run (Machine.step accepts) m events = some m' ∧
      m'.calls c = .finished (if returned then .verified r else .raised) := by
  have hcall := h.call
  simp only [At, hpc] at hcall
  obtain ⟨completed, interrupted, reaped, raised, hcompleted, hcall, rfl⟩ := hcall
  have hres := (settle_same m r ⟨c, true⟩ reaped).2.2.2.1
  have hsettle : Machine.step accepts m (.step c ⟨true, .returned⟩) =
      some ((m.settle r ⟨c, true⟩ reaped).goto c
        (Machine.afterSettle (.own completed interrupted) r reaped raised)) := by
    simp only [Machine.step, Machine.callStep, hcall]
    rfl
  by_cases hfailed : raised = true ∨ interrupted = true ∨ reaped = false
  · refine ⟨[.step c ⟨true, .returned⟩], _, run_cons_eq_some.mpr ⟨_, hsettle, rfl⟩, ?_⟩
    show Function.update _ c _ c = _
    rw [Function.update_self, Machine.afterSettle, if_pos hfailed]
    have hnot : (!raised && reaped && Machine.judge accepts v.res completed) = false := by
      rcases hfailed with rfl | rfl | rfl
      · rfl
      · have hfalse : completed = false := by
          cases completed with
          | false => rfl
          | true => exact hcompleted rfl
        rw [hfalse]
        simp [Machine.judge]
      · simp
    rw [hnot]
    rfl
  · have hpc' : Machine.afterSettle (.own completed interrupted) r reaped raised =
        .judging r completed := by rw [Machine.afterSettle, if_neg hfailed]
    rw [hpc'] at hsettle
    have hjudging : ((m.settle r ⟨c, true⟩ reaped).goto c (.judging r completed)).calls c =
        .judging r completed := Function.update_self ..
    have hsame : ((m.settle r ⟨c, true⟩ reaped).goto c (.judging r completed)).resources r =
        v.res := (congrFun hres r).trans h.resources
    have hjudge : Machine.step accepts ((m.settle r ⟨c, true⟩ reaped).goto c
        (.judging r completed)) (.step c ⟨true, .returned⟩) =
          some (((m.settle r ⟨c, true⟩ reaped).goto c (.judging r completed)).goto c (.finished
            (if Machine.judge accepts v.res completed then .verified r else .raised))) := by
      simp only [Machine.step, Machine.callStep, hjudging, hsame]
    refine ⟨[.step c ⟨true, .returned⟩, .step c ⟨true, .returned⟩], _,
      run_cons_eq_some.mpr ⟨_, hsettle, run_cons_eq_some.mpr ⟨_, hjudge, rfl⟩⟩, ?_⟩
    show Function.update _ c _ c = _
    rw [Function.update_self]
    simp only [not_or, Bool.not_eq_true, Bool.not_eq_false] at hfailed
    rw [hfailed.1, hfailed.2.2]
    rfl

/-- The verification has not ended. -/
def going (v : Verification) : Bool :=
  match v.pc with
  | .finished _ => false
  | _ => true

theorem not_finished_of_going (h : going v = true) (returned : Bool) : v.pc ≠ .finished returned := by
  intro hpc
  rw [going, hpc] at h
  cases h

/-- Every run of a verification that follows a call is one of the ledger. -/
theorem follows_run {schedule : List Who} (h : Follows accepts c r v m)
    (hrun : run (guarded (Verification.step accepts) fun v _ => going v) v schedule = some v') :
    ∃ events m', events.length ≤ schedule.length ∧
      run (Machine.step accepts) m events = some m' ∧ Follows accepts c r v' m' := by
  induction schedule generalizing v m with
  | nil =>
      obtain rfl := Option.some.inj hrun
      exact ⟨[], m, Nat.le_refl 0, rfl, h⟩
  | cons who schedule ih =>
      obtain ⟨v₁, hfirst, hrest⟩ := run_cons_eq_some.mp hrun
      obtain ⟨hgoing, hstep⟩ := guarded_eq_some.mp hfirst
      obtain ⟨events, m₁, hone, hevents, h₁⟩ := follows_step h (not_finished_of_going hgoing) hstep
      obtain ⟨events', m', hlength, hevents', h'⟩ := ih h₁ hrest
      have hjoined : run (Machine.step accepts) m (events ++ events') = some m' := by
        rw [run_append, hevents]
        exact hevents'
      refine ⟨events ++ events', m', ?_, hjoined, h'⟩
      rw [List.length_append, List.length_cons]
      omega

/-- **One verification is one call of the ledger.** From the spawn of its child on, whatever the
verifying thread, the two pumps, the child and the clock do until the verification ends, the ledger
has a run of at most as many events that leaves the call where the verification is, with the same
child and the same time; and where the verification ends, the call goes on to return the record if
the verification returned, and to raise if it raised. -/
theorem verification_in_ledger {timeout : Nat} {schedule : List Who}
    (hpc : m.calls c = .running r timeout .spawning) (hres : m.resources r = {})
    (hrun : run (guarded (Verification.step accepts) fun v _ => going v)
      { timeout := timeout, now := m.now } schedule = some v) :
    ∃ events m', run (Machine.step accepts) m events = some m' ∧
      events.length ≤ schedule.length + 1 ∧ Follows accepts c r v m' ∧
      ∀ returned, v.pc = .finished returned → ∃ rest m'',
        run (Machine.step accepts) m' rest = some m'' ∧
        m''.calls c = .finished (if returned then .verified r else .raised) := by
  have hbegun : ∃ m₀, Machine.step accepts m
      (.spawn c (some (some ⟨true, some false, some false, none⟩)) .returned) = some m₀ ∧
        Follows accepts c r { timeout := timeout, now := m.now } m₀ := follows_spawn hpc hres
  obtain ⟨m₀, hspawn, h₀⟩ := hbegun
  obtain ⟨events, m', hlength, hevents, h'⟩ := follows_run h₀ hrun
  refine ⟨_ :: events, m', run_cons_eq_some.mpr ⟨m₀, hspawn, hevents⟩, ?_, h', ?_⟩
  · rw [List.length_cons]
    omega
  · intro returned hfinished
    exact follows_over h' hfinished

/-- A supervisor has admitted its first verification, and the child is to be spawned. -/
def admitted : List Datasource.Verify.Event :=
  .start 0 (.verify 0 100 12000) :: List.replicate 4 (.step 0 ⟨true, .returned⟩)

/-- The verification whose reader comes first ends in the ledger with its record. -/
theorem verification_in_ledger_read : ∃ m m' : Machine,
    run (Machine.step (· == okAnswer)) { slots := 1 } admitted = some m ∧
      (∃ events, run (Machine.step (· == okAnswer)) m events = some m') ∧
      m'.calls 0 = .finished (.verified 0) := by
  obtain ⟨m, hm, hpc, hres, hnow⟩ : ∃ m : Machine,
      run (Machine.step (· == okAnswer)) { slots := 1 } admitted = some m ∧
        m.calls 0 = .running 0 12000 .spawning ∧ m.resources 0 = {} ∧ m.now = 0 :=
    ⟨_, rfl, rfl, rfl, rfl⟩
  have hsome : (run (guarded (Verification.step (· == okAnswer)) fun v _ => going v)
      { timeout := 12000 } (answered ++ readFirst)).any (fun v => decide (v.pc = .finished true)) =
        true := by decide
  obtain ⟨v, hrun, hfinished⟩ := (Option.any_eq_true _ _).mp hsome
  have hrun' : run (guarded (Verification.step (· == okAnswer)) fun v _ => going v)
      { timeout := 12000, now := m.now } (answered ++ readFirst) = some v := by
    rw [hnow]
    exact hrun
  obtain ⟨events, m', hevents, -, -, hend⟩ := verification_in_ledger hpc hres hrun'
  obtain ⟨rest, m'', hrest, hcall⟩ := hend true (of_decide_eq_true hfinished)
  refine ⟨m, m'', hm, ⟨events ++ rest, ?_⟩, hcall⟩
  rw [run_append, hevents]
  exact hrest

end

end MaskGateway.Proofs.Datasource.Answer
