import MaskGateway.Proofs.Runtime.AdminWorkMoves

/-!
# `MaskGateway.Proofs.Runtime.AdminWorkContainment`: dispatch while a failure is contained

`_contain` clears the one flag `_containing` when it leaves. With two failures under containment at the
same time, the first one that leaves opens the queue for the other (`dispatch_during_containment`).
`containment` says when that does not happen.
-/

set_option autoImplicit false

namespace MaskGateway.Proofs.AdminWork

open MaskGateway.Lib
open MaskGateway.Runtime.AdminWork

variable {ρ : Type}

/-- The worker is in `_contain`. -/
def contains (w : Worker ρ) : Bool :=
  match w.pc with
  | .containing _ => true
  | _ => false

/-- What the queue promises about jobs that raised. -/
structure Containment (m : Machine ρ) : Prop where
  /-- A ticket is dispatched only when the containment of every failure was successful. -/
  dispatch : ∀ event m', m.step event = some m' → m'.started ≠ m.started →
    ∀ id ∈ m.failures, id ∈ m.contained
  /-- After a containment that fails, nothing is dispatched. -/
  frozen : ∀ i outcome m₁, m.step (.worker i (.contain outcome)) = some m₁ →
    m₁.contained = m.contained →
    ∀ events m', run Machine.step m₁ events = some m' → m'.started = m₁.started

/-- A containment ends well only when no other one is under way, or in a frozen queue. -/
def alone (m : Machine ρ) : Event ρ → Bool
  | .worker _ (.contain .returned) => !m.onUnknown || m.frozen || decide (m.workers.countP contains ≤ 1)
  | _ => true

/-! ### Failures and the workers that contain them -/

/-- Every failure was contained, is being contained, or has frozen the queue. -/
structure Accounted (m : Machine ρ) : Prop where
  starts : Starts m.workers m.starting
  failures : ∀ id ∈ m.failures, id ∈ m.contained ∨ m.frozen = true ∨
    ∃ (i : Nat) (w : Worker ρ), m.workers[i]? = some w ∧ w.pc = .containing id

/-- A worker in `_contain` stays there while another worker changes. -/
theorem containing_set {workers : List (Worker ρ)} {i j : WorkerId} {w w' v : Worker ρ}
    {id : TicketId} (hw : workers[i]? = some w) (hv : workers[j]? = some v)
    (hpc : v.pc = .containing id) (hstay : w.pc = .containing id → w'.pc = .containing id) :
    ∃ (k : Nat) (u : Worker ρ), (workers.set i w')[k]? = some u ∧ u.pc = .containing id := by
  by_cases hj : j = i
  · subst hj
    obtain rfl := Option.some.inj (hw.symm.trans hv)
    exact ⟨j, w', by rw [getElem?_set_worker hw, if_pos rfl], hstay hpc⟩
  · exact ⟨j, v, by rw [getElem?_set_worker hw, if_neg hj, hv], hpc⟩

theorem accounted_moved {m m' : Machine ρ} {event : Event ρ} (hm : Accounted m)
    (h : Moved m event m') : Accounted m' := by
  refine ⟨starts_moved hm.starts h, ?_⟩
  have hfailures := hm.failures
  -- a worker that is not in `_contain` changes
  have hother : ∀ {i : WorkerId} {w w' : Worker ρ}, m.workers[i]? = some w → ∀ id ∈ m.failures,
      (w.pc = .containing id → w'.pc = .containing id) → id ∈ m.contained ∨ m.frozen = true ∨
        ∃ (k : Nat) (u : Worker ρ), (m.workers.set i w')[k]? = some u ∧ u.pc = .containing id := by
    intro i w w' hw id hid hstay
    rcases hfailures id hid with hdone | hfrozen | ⟨j, v, hv, hpc⟩
    · exact .inl hdone
    · exact .inr (.inl hfrozen)
    · exact .inr (.inr (containing_set hw hv hpc hstay))
  cases h with
  | accepted | refused | closed | begins | startOver | drains | waits | rechecks | looked
  | drained => exact hfailures
  | attempted i w hstarting hw => exact fun id hid => hother hw id hid fun hpc => hpc
  | confirmed i w hstarting hw => exact fun id hid => hother hw id hid fun hpc => hpc
  | begun outcome i w starting hstarting hnext hw =>
      have hunborn := hm.starts.unborn i i w (by rw [hstarting]; rfl) (Nat.le_refl i) hw
      exact fun id hid => hother hw id hid fun hpc => by rw [hunborn] at hpc; cases hpc
  | settled d i w hdrain hw | checked d i w settled hdrain hw =>
      exact fun id hid => hother hw id hid fun hpc => by rw [cancel_pc, hpc]
  | entered i w w' hw hpc | left i w hw hpc | skipped i w id pending hw hpc
  | ran i w id pending hw hpc | returned i w id job value result hw hpc
  | completed i w id skipped failed result hw hpc | abandoned i w id notify outcome hw hpc
  | notified i w id outcome hw hpc | done i w hw hpc | exited i w hw hpc =>
      exact fun id hid => hother hw id hid fun hpc' => by rw [hpc] at hpc'; cases hpc'
  | raised i w id hw hpc =>
      intro id' hid'
      rcases List.mem_append.mp hid' with hold | hnew
      · exact hother hw id' hold fun hpc' => by rw [hpc] at hpc'; cases hpc'
      · rw [List.mem_singleton.mp hnew]
        exact .inr (.inr ⟨i, _, by rw [Machine.put, getElem?_set_worker hw, if_pos rfl], rfl⟩)
  | contained i w id outcome hw hpc =>
      intro id' hid'
      simp only [Machine.contain]
      by_cases hsame : id' = id
      · subst hsame
        cases m.onUnknown && decide (outcome = .returned)
        · exact .inr (.inl (by simp))
        · exact .inl (by simp)
      · have hstay : w.pc = .containing id' → False := fun hpc' => by
          rw [hpc] at hpc'
          exact hsame (Pc.containing.inj hpc').symm
        rcases hother hw id' hid' fun hpc' => (hstay hpc').elim with hdone | hfrozen | hstill
        · refine .inl ?_
          split
          · exact List.mem_append_left _ hdone
          · exact hdone
        · exact .inr (.inl (by rw [hfrozen]; rfl))
        · exact .inr (.inr hstill)

/-- While a worker is in `_contain`, nothing is dispatched. -/
def Shut (m : Machine ρ) : Prop :=
  ∀ (i : Nat) (w : Worker ρ), m.workers[i]? = some w → contains w = true →
    m.containing = true ∨ m.frozen = true

theorem shut_set {m m' : Machine ρ} (hm : Shut m) {i : WorkerId} {w w' : Worker ρ}
    (hw : m.workers[i]? = some w) (hworkers : m'.workers = m.workers.set i w')
    (hnew : contains w' = true → contains w = true)
    (hcontaining : m'.containing = m.containing) (hfrozen : m'.frozen = m.frozen) : Shut m' := by
  intro j v hv hcontains
  rw [hworkers, getElem?_set_worker hw] at hv
  rw [hcontaining, hfrozen]
  split at hv
  · obtain rfl := Option.some.inj hv
    exact hm i w hw (hnew hcontains)
  · exact hm j v hv hcontains

theorem contains_cancel (w : Worker ρ) : contains w.cancel = contains w := by
  unfold contains
  rw [cancel_pc]

theorem shut_moved {m m' : Machine ρ} {event : Event ρ} (hm : Shut m) (halone : alone m event = true)
    (h : Moved m event m') : Shut m' := by
  cases h with
  | accepted | refused | closed | begins | startOver | drains | waits | rechecks | looked
  | drained => exact hm
  | attempted i w hstarting hw | confirmed i w hstarting hw => exact shut_set hm hw rfl id rfl rfl
  | begun outcome i w starting hstarting hnext hw => exact shut_set hm hw rfl nofun rfl rfl
  | settled d i w hdrain hw | checked d i w settled hdrain hw =>
      exact shut_set hm hw rfl (fun hcontains => by rwa [contains_cancel] at hcontains) rfl rfl
  | entered i w w' hw hpc hw' =>
      exact shut_set hm hw rfl (by rcases hw' with rfl | rfl <;> exact nofun) rfl rfl
  | left i w hw hpc | skipped i w id pending hw hpc | ran i w id pending hw hpc
  | returned i w id job value result hw hpc | done i w hw hpc | exited i w hw hpc =>
      exact shut_set hm hw rfl nofun rfl rfl
  | completed i w id skipped failed result hw hpc =>
      refine shut_set hm hw rfl ?_ rfl rfl
      unfold Machine.calls
      split <;> exact nofun
  | abandoned i w id notify outcome hw hpc =>
      refine shut_set hm hw rfl ?_ rfl rfl
      unfold Machine.calls
      split
      · exact nofun
      · split <;> exact nofun
  | notified i w id outcome hw hpc =>
      refine shut_set hm hw rfl ?_ rfl rfl
      split <;> exact nofun
  | raised i w id hw hpc => exact fun _ _ _ _ => .inl rfl
  | contained i w id outcome hw hpc =>
      intro j v hv hcontains
      refine .inr ?_
      by_contra hthawed
      simp only [Machine.contain, Bool.or_eq_true, Bool.not_eq_true', Bool.and_eq_false_iff,
        decide_eq_false_iff_not, not_or, Bool.not_eq_true, Bool.not_eq_false, not_not] at hthawed
      obtain ⟨hfrozen, honUnknown, rfl⟩ := hthawed
      -- this worker was the only one in `_contain`
      have hone : m.workers.countP contains ≤ 1 := by
        simpa [alone, honUnknown, hfrozen] using halone
      have hin : contains w = true := by rw [contains, hpc]
      simp only [Machine.contain, Machine.put] at hv
      -- the worker after it has left
      generalize hleft : ({ w with
        pc := if (m.onUnknown && decide (Outcome.returned = .interrupted)) = true then .leaving
          else .finishing id false true none } : Worker ρ) = w' at hv
      have hout : contains w' = false := by
        rw [← hleft, honUnknown]
        rfl
      have hcount := countP_set_of_getElem? contains w' hw
      have hpositive := one_le_countP contains hv hcontains
      rw [hin, hout] at hcount
      simp only [unit_true, unit_false] at hcount
      omega

/-- A ticket is taken to be run in an open queue only. -/
theorem open_of_started {m m' : Machine ρ} {event : Event ρ} (h : Moved m event m')
    (hstarted : m'.started ≠ m.started) : m.containing = false ∧ m.frozen = false := by
  cases h
  case ran i w id pending hw hpc hpending hcontaining hfrozen => exact ⟨hcontaining, hfrozen⟩
  all_goals exact absurd rfl hstarted

/-- A frozen queue stays frozen. -/
theorem frozen_moved {m m' : Machine ρ} {event : Event ρ} (hfrozen : m.frozen = true)
    (h : Moved m event m') : m'.frozen = true := by
  cases h
  case contained => simp [Machine.contain, hfrozen]
  all_goals exact hfrozen

theorem run_frozen {m m' : Machine ρ} {events : List (Event ρ)} (hfrozen : m.frozen = true)
    (hrun : run Machine.step m events = some m') : m'.started = m.started := by
  refine run_relates (P := fun m => m.frozen = true) (R := fun m m' => m'.started = m.started)
    (fun hm h => frozen_moved hm (moved_of_step h)) (fun _ => rfl)
    (by intro s₁ s₂ s₃ h₁ h₂; exact h₂.trans h₁) (fun hm h => ?_) hrun hfrozen
  by_contra hstarted
  rw [(open_of_started (moved_of_step h) hstarted).2] at hm
  cases hm

/-- **A failure is contained before the next dispatch**, in every run in which no containment ends
well while another one is under way. -/
theorem containment {workers waiting : Nat} {onUnknown : Bool} {events : List (Event ρ)}
    {m : Machine ρ}
    (hrun : run (guarded Machine.step alone) (Machine.init ρ workers waiting onUnknown) events = some m) :
    Containment m := by
  have hinv : Accounted m ∧ Shut m := by
    refine run_invariant (P := fun m => Accounted m ∧ Shut m) (fun hm h => ?_) hrun ⟨?_, ?_⟩
    · obtain ⟨halone, hstep⟩ := guarded_eq_some.mp h
      have hmoved := moved_of_step hstep
      exact ⟨accounted_moved hm.1 hmoved, shut_moved hm.2 halone hmoved⟩
    · exact ⟨starts_init workers waiting onUnknown, nofun⟩
    · intro i w hw hcontains
      obtain rfl := List.eq_of_mem_replicate (List.mem_of_getElem? hw)
      cases hcontains
  obtain ⟨haccounted, hshut⟩ := hinv
  constructor
  · intro event m' h hstarted id hid
    obtain ⟨hcontaining, hfrozen⟩ := open_of_started (moved_of_step h) hstarted
    rcases haccounted.failures id hid with hdone | hfrozen' | ⟨i, w, hw, hpc⟩
    · exact hdone
    · rw [hfrozen] at hfrozen'
      cases hfrozen'
    · rcases hshut i w hw (by rw [contains, hpc]) with hflag | hflag
      · rw [hcontaining] at hflag
        cases hflag
      · rw [hfrozen] at hflag
        cases hflag
  · intro i outcome m₁ h hsame events m' hrun'
    refine run_frozen ?_ hrun'
    cases moved_of_step h with
    | contained i w id outcome hw hpc =>
        simp only [Machine.contain] at hsame ⊢
        split at hsame
        · exact absurd hsame (by simp)
        · rename_i hfailed
          rw [Bool.not_eq_true] at hfailed
          rw [hfailed, Bool.not_false, Bool.or_true]

/-- Two of three jobs raise. The containment of the first one ends while the other one is under
way. -/
def overlappingFailures : List (Event Unit) :=
  [.submit true false false, .submit true false false, .submit true false false,
   .start .begin, .start .attempt, .start (.threadStart .begun), .start .confirm, .start .attempt,
   .start (.threadStart .begun), .start .confirm, .start .attempt,
   .worker 0 .enter, .worker 1 .enter, .worker 0 .take, .worker 1 .take, .worker 0 .raised,
   .worker 1 .raised, .worker 0 (.contain .returned), .worker 0 .complete,
   .worker 0 (.notify .returned)]

/-- The third job is dispatched before the second failure was contained. -/
theorem dispatch_during_containment :
    ∃ m, run Machine.step (Machine.init Unit 2 2 true) overlappingFailures = some m ∧
      ¬ Containment m := by
  have hrun : (run Machine.step (Machine.init Unit 2 2 true) overlappingFailures).map
      (fun m => (m.started, m.failures, m.contained)) = some ([0, 1], [0, 1], [0]) := by decide
  have hnext : ((run Machine.step (Machine.init Unit 2 2 true) overlappingFailures).bind fun m =>
      m.step (.worker 0 .take)).map Machine.started = some [0, 1, 2] := by decide
  obtain ⟨m, hm, hlists⟩ := Option.map_eq_some_iff.mp hrun
  obtain ⟨m', hm', hstarted⟩ := Option.map_eq_some_iff.mp hnext
  rw [hm, Option.bind_some] at hm'
  simp only [Prod.mk.injEq] at hlists
  refine ⟨m, hm, fun hpromise => ?_⟩
  have hdone := hpromise.dispatch _ m' hm' (by rw [hstarted, hlists.1]; decide) 1
  rw [hlists.2.1, hlists.2.2] at hdone
  exact absurd (hdone (by decide)) (by decide)

/-- One failure at a time. -/
def singleFailures : List (Event Unit) :=
  [.submit true false false, .submit true false false, .submit true false false,
   .start .begin, .start .attempt, .start (.threadStart .begun), .start .confirm, .start .attempt,
   .start (.threadStart .begun), .start .confirm, .start .attempt,
   .worker 0 .enter, .worker 1 .enter, .worker 0 .take, .worker 1 .take, .worker 0 .raised,
   .worker 0 (.contain .returned), .worker 1 .raised, .worker 1 (.contain .returned),
   .worker 0 .complete, .worker 0 (.notify .returned), .worker 0 .take]

theorem containment_single :
    ∃ m, run (guarded Machine.step alone) (Machine.init Unit 2 2 true) singleFailures = some m ∧
      m.started = [0, 1, 2] ∧ Containment m := by
  have hrun : (run (guarded Machine.step alone) (Machine.init Unit 2 2 true) singleFailures).map
      Machine.started = some [0, 1, 2] := by decide
  obtain ⟨m, hm, hstarted⟩ := Option.map_eq_some_iff.mp hrun
  exact ⟨m, hm, hstarted, containment hm⟩

end MaskGateway.Proofs.AdminWork
