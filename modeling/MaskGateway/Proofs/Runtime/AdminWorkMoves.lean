import MaskGateway.Lib.Count
import MaskGateway.Runtime.AdminWork

/-!
# `MaskGateway.Proofs.Runtime.AdminWorkMoves`: what a step of the queue can do

`Moved` says once what each section of the queue does, with the conditions under which it does it.
The invariants of the queue are proved about `Moved` and never unfold a section.
-/

set_option autoImplicit false

namespace MaskGateway.Proofs.AdminWork

open MaskGateway.Lib
open MaskGateway.Runtime.AdminWork

variable {ρ : Type}

/-- What a step of the queue can do. -/
inductive Moved (m : Machine ρ) : Event ρ → Machine ρ → Prop where
  | accepted (notify abandon raises : Bool) (hopen : m.closing = false) (hwhole : m.broken = false)
      (hroom : m.tickets.length < m.capacity) :
      Moved m (.submit notify abandon raises) { m with
        submissions := m.submissions + 1
        ticket := Function.update m.ticket m.submissions { notify, abandon }
        tickets := m.tickets ++ [m.submissions]
        pending := m.pending ++ [m.submissions]
        accepted := m.accepted ++ [m.submissions]
        wanted := if notify then m.wanted ++ [m.submissions] else m.wanted }
  | refused (notify abandon raises : Bool) : Moved m (.submit notify abandon raises) { m with
      submissions := m.submissions + 1, refused := m.refused ++ [m.submissions] }
  | closed : Moved m .closeAdmission { m with closing := true }
  | begins (hstarting : m.starting = .before) (hstopping : m.stopping = false) :
      Moved m (.start .begin) { m with starting := .attempting 0 }
  | attempted (i : WorkerId) (w : Worker ρ) (hstarting : m.starting = .attempting i)
      (hw : m.workers[i]? = some w) :
      Moved m (.start .attempt) { m.put i { w with state := .starting } with starting := .calling i }
  | begun (outcome : ThreadStart) (i : WorkerId) (w : Worker ρ) (starting : Starting) (hstarting : m.starting = .calling i)
      (hnext : starting = .confirming i ∨ starting = .finished) (hw : m.workers[i]? = some w) :
      Moved m (.start (.threadStart outcome)) { m.put i { w with pc := .entering } with starting := starting }
  | confirmed (i : WorkerId) (w : Worker ρ) (hstarting : m.starting = .confirming i)
      (hw : m.workers[i]? = some w) :
      Moved m (.start .confirm) { m.put i { w with state := .started } with starting := .attempting (i + 1) }
  /-- Every worker was started, or a start raised. -/
  | startOver (event : StartEvent) (hstarting : (∃ i, m.starting = .attempting i) ∨ ∃ i, m.starting = .calling i) :
      Moved m (.start event) { m with starting := .finished }
  | entered (i : WorkerId) (w w' : Worker ρ) (hw : m.workers[i]? = some w) (hpc : w.pc = .entering)
      (hw' : w' = { w with pc := .leaving } ∨ w' = { w with ran := true, pc := .serving }) :
      Moved m (.worker i .enter) (m.put i w')
  | left (i : WorkerId) (w : Worker ρ) (hw : m.workers[i]? = some w) (hpc : w.pc = .serving)
      (hpending : m.pending = []) :
      Moved m (.worker i .take) (m.put i { w with pc := .leaving })
  | skipped (i : WorkerId) (w : Worker ρ) (id : TicketId) (pending : List TicketId)
      (hw : m.workers[i]? = some w) (hpc : w.pc = .serving) (hpending : m.pending = id :: pending)
      (hfrozen : m.frozen = true) :
      Moved m (.worker i .take) { m.put i { w with pc := .finishing id true true none } with
        pending := pending, taken := m.taken ++ [id], skipped := m.skipped ++ [id]
        ticket := Function.update m.ticket id { m.ticket id with state := .running, job := false } }
  | ran (i : WorkerId) (w : Worker ρ) (id : TicketId) (pending : List TicketId)
      (hw : m.workers[i]? = some w) (hpc : w.pc = .serving) (hpending : m.pending = id :: pending)
      (hcontaining : m.containing = false) (hfrozen : m.frozen = false) :
      Moved m (.worker i .take) { m.put i { w with pc := .running id (m.ticket id).job } with
        pending := pending, taken := m.taken ++ [id], started := m.started ++ [id]
        ticket := Function.update m.ticket id { m.ticket id with state := .running, job := false } }
  | returned (i : WorkerId) (w : Worker ρ) (id : TicketId) (job : Bool) (value : ρ) (result : Option ρ)
      (hw : m.workers[i]? = some w) (hpc : w.pc = .running id job) :
      Moved m (.worker i (.returned value)) (m.put i { w with pc := .finishing id false false result })
  | raised (i : WorkerId) (w : Worker ρ) (id : TicketId) (hw : m.workers[i]? = some w)
      (hpc : w.pc = .running id true) :
      Moved m (.worker i .raised) { m.put i { w with pc := .containing id } with
        broken := true, containing := true, failures := m.failures ++ [id] }
  | contained (i : WorkerId) (w : Worker ρ) (id : TicketId) (outcome : Outcome)
      (hw : m.workers[i]? = some w) (hpc : w.pc = .containing id) :
      Moved m (.worker i (.contain outcome)) (m.contain i w id outcome)
  | completed (i : WorkerId) (w : Worker ρ) (id : TicketId) (skipped failed : Bool)
      (result : Option ρ) (hw : m.workers[i]? = some w)
      (hpc : w.pc = .finishing id skipped failed result) :
      Moved m (.worker i .complete) (m.complete i w id skipped failed result)
  | abandoned (i : WorkerId) (w : Worker ρ) (id : TicketId) (notify : Bool) (outcome : Outcome)
      (hw : m.workers[i]? = some w) (hpc : w.pc = .calling id true notify) :
      Moved m (.worker i (.abandon outcome)) { m.put i { w with
          pc := if outcome = .interrupted then .leaving else Machine.calls id false notify } with
        abandoned := m.abandoned ++ [id] }
  | notified (i : WorkerId) (w : Worker ρ) (id : TicketId) (outcome : Outcome)
      (hw : m.workers[i]? = some w) (hpc : w.pc = .calling id false true) :
      Moved m (.worker i (.notify outcome)) { m.put i { w with
          pc := if outcome = .interrupted then .leaving else .serving } with
        notified := m.notified ++ [id] }
  | done (i : WorkerId) (w : Worker ρ) (hw : m.workers[i]? = some w) (hpc : w.pc = .leaving) :
      Moved m (.worker i .done) (m.put i { w with done := true, pc := .ending })
  | exited (i : WorkerId) (w : Worker ρ) (hw : m.workers[i]? = some w) (hpc : w.pc = .ending) :
      Moved m (.worker i .exit) (m.put i { w with pc := .exited })
  | drains (d : DrainId) (hidle : m.drains d = .idle)
      (hstarting : m.starting = .before ∨ m.starting = .finished) :
      Moved m (.drain d) ({ m with closing := true, stopping := true }.drainAt d (.settling 0))
  | settled (d : DrainId) (i : WorkerId) (w : Worker ρ) (hdrain : m.drains d = .settling i)
      (hw : m.workers[i]? = some w) :
      Moved m (.advance d) ((m.put i w.cancel).drainAt d (.testing i))
  /-- A drain goes on to wait for a worker, or to the next one. -/
  | waits (d : DrainId) (i : WorkerId) (drain : Drain)
      (hdrain : m.drains d = .testing i ∨ m.drains d = .joining i)
      (hnext : drain = .joining i ∨ drain = .settling (i + 1)) :
      Moved m (.advance d) (m.drainAt d drain)
  | rechecks (d : DrainId) (i : WorkerId) (hdrain : m.drains d = .settling i) :
      Moved m (.advance d) (m.drainAt d (.checking 0 true))
  | checked (d : DrainId) (i : WorkerId) (w : Worker ρ) (settled : Bool)
      (hdrain : m.drains d = .checking i settled) (hw : m.workers[i]? = some w) :
      Moved m (.advance d) ((m.put i w.cancel).drainAt d
        (if w.state = .idle then .checking (i + 1) settled else .looking i settled))
  | looked (d : DrainId) (i : WorkerId) (w : Worker ρ) (settled : Bool)
      (hdrain : m.drains d = .looking i settled) (hw : m.workers[i]? = some w) :
      Moved m (.advance d) (m.drainAt d (.checking (i + 1) (settled && (w.done && w.ended))))
  | drained (d : DrainId) (i : WorkerId) (settled : Bool) (hdrain : m.drains d = .checking i settled)
      (hw : m.workers[i]? = none) :
      Moved m (.advance d) (m.drainAt d (.returned (settled && decide (m.tickets = []))))

theorem moved_of_submit (m : Machine ρ) (notify abandon raises : Bool) :
    Moved m (.submit notify abandon raises) (m.submit notify abandon raises) := by
  unfold Machine.submit
  split
  · exact .refused notify abandon raises
  · rename_i hadmitted
    simp only [not_or, Bool.not_eq_true, ge_iff_le, Nat.not_le] at hadmitted
    exact .accepted notify abandon raises hadmitted.1 hadmitted.2.1 hadmitted.2.2.1

theorem moved_of_take {m m' : Machine ρ} {i : WorkerId} {w : Worker ρ} (hw : m.workers[i]? = some w)
    (hpc : w.pc = .serving) (h : m.take i w = some m') :
    Moved m (.worker i .take) m' := by
  unfold Machine.take at h
  split at h
  · cases h
  · rename_i hwait
    simp only [not_or, Bool.not_eq_true] at hwait
    split at h
    · rename_i hpending
      obtain rfl := Option.some.inj h
      exact .left i w hw hpc hpending
    · rename_i id pending hpending
      simp only at h
      split at h
      · rename_i hfrozen
        obtain rfl := Option.some.inj h
        exact .skipped i w id pending hw hpc hpending hfrozen
      · rename_i hfrozen
        obtain rfl := Option.some.inj h
        exact .ran i w id pending hw hpc hpending hwait.1 (by simpa using hfrozen)

theorem moved_of_workerStep {m m' : Machine ρ} {i : WorkerId} {w : Worker ρ}
    {event : WorkerEvent ρ} (hw : m.workers[i]? = some w) (h : m.workerStep i w event = some m') :
    Moved m (.worker i event) m' := by
  unfold Machine.workerStep at h
  cases event with
  | enter =>
      simp only at h
      split at h
      · rename_i hpc
        split at h <;> obtain rfl := Option.some.inj h
        · exact .entered i w _ hw hpc (.inl rfl)
        · exact .entered i w _ hw hpc (.inr rfl)
      · cases h
  | take =>
      simp only at h
      split at h
      · rename_i hpc
        exact moved_of_take hw hpc h
      · cases h
  | returned result =>
      simp only at h
      split at h
      · rename_i id job hpc
        obtain rfl := Option.some.inj h
        exact .returned i w id job result _ hw hpc
      · cases h
  | raised =>
      simp only at h
      split at h
      · rename_i id hpc
        obtain rfl := Option.some.inj h
        exact .raised i w id hw hpc
      · cases h
  | contain outcome =>
      simp only at h
      split at h
      · rename_i id hpc
        obtain rfl := Option.some.inj h
        exact .contained i w id outcome hw hpc
      · cases h
  | complete =>
      simp only at h
      split at h
      · rename_i id skipped failed result hpc
        obtain rfl := Option.some.inj h
        exact .completed i w id skipped failed result hw hpc
      · cases h
  | abandon outcome =>
      simp only at h
      split at h
      · rename_i id notify hpc
        obtain rfl := Option.some.inj h
        exact .abandoned i w id notify outcome hw hpc
      · cases h
  | notify outcome =>
      simp only at h
      split at h
      · rename_i id hpc
        obtain rfl := Option.some.inj h
        exact .notified i w id outcome hw hpc
      · cases h
  | done =>
      simp only at h
      split at h
      · rename_i hpc
        obtain rfl := Option.some.inj h
        exact .done i w hw hpc
      · cases h
  | exit =>
      simp only at h
      split at h
      · rename_i hpc
        obtain rfl := Option.some.inj h
        exact .exited i w hw hpc
      · cases h

theorem moved_of_startStep {m m' : Machine ρ} {event : StartEvent} (h : m.startStep event = some m') :
    Moved m (.start event) m' := by
  unfold Machine.startStep at h
  cases event with
  | begin =>
      simp only at h
      split at h
      · rename_i hstart
        obtain rfl := Option.some.inj h
        exact .begins hstart.1 hstart.2
      · cases h
  | attempt =>
      simp only at h
      split at h
      · rename_i i hstarting
        split at h <;> obtain rfl := Option.some.inj h
        · rename_i w hw
          exact .attempted i w hstarting hw
        · exact .startOver _ (.inl ⟨i, hstarting⟩)
      · cases h
  | threadStart outcome =>
      simp only at h
      split at h
      · rename_i i hstarting
        split at h
        · rename_i w hw
          obtain rfl := Option.some.inj h
          exact .begun _ i w _ hstarting (.inl rfl) hw
        · rename_i w hw
          obtain rfl := Option.some.inj h
          exact .begun _ i w _ hstarting (.inr rfl) hw
        · obtain rfl := Option.some.inj h
          exact .startOver _ (.inr ⟨i, hstarting⟩)
        · cases h
      · cases h
  | confirm =>
      simp only at h
      split at h
      · rename_i i hstarting
        split at h
        · rename_i w hw
          obtain rfl := Option.some.inj h
          exact .confirmed i w hstarting hw
        · cases h
      · cases h

theorem moved_of_advance {m m' : Machine ρ} {d : DrainId} (h : m.advance d = some m') :
    Moved m (.advance d) m' := by
  unfold Machine.advance at h
  split at h
  · rename_i i hdrain
    split at h <;> obtain rfl := Option.some.inj h
    · rename_i w hw
      exact .settled d i w hdrain hw
    · exact .rechecks d i hdrain
  · rename_i i hdrain
    split at h
    · rename_i w hw
      obtain rfl := Option.some.inj h
      refine .waits d i _ (.inl hdrain) ?_
      cases w.joinable
      · exact .inr rfl
      · exact .inl rfl
    · cases h
  · rename_i i hdrain
    split at h
    · split at h
      · obtain rfl := Option.some.inj h
        exact .waits d i _ (.inr hdrain) (.inr rfl)
      · cases h
    · cases h
  · rename_i i settled hdrain
    split at h <;> obtain rfl := Option.some.inj h
    · rename_i w hw
      exact .checked d i w settled hdrain hw
    · rename_i hw
      exact .drained d i settled hdrain hw
  · rename_i i settled hdrain
    split at h
    · rename_i w hw
      obtain rfl := Option.some.inj h
      exact .looked d i w settled hdrain hw
    · cases h
  · cases h

theorem moved_of_step {m m' : Machine ρ} {event : Event ρ} (h : m.step event = some m') :
    Moved m event m' := by
  cases event with
  | submit notify abandon raises =>
      obtain rfl := Option.some.inj h
      exact moved_of_submit m notify abandon raises
  | closeAdmission =>
      obtain rfl := Option.some.inj h
      exact .closed
  | start event => exact moved_of_startStep h
  | worker i event =>
      obtain ⟨w, hw, hstep⟩ := Option.bind_eq_some_iff.mp h
      exact moved_of_workerStep hw hstep
  | drain d =>
      simp only [Machine.step] at h
      split at h
      · rename_i hdrain
        obtain rfl := Option.some.inj h
        exact .drains d hdrain.1 hdrain.2
      · cases h
  | advance d => exact moved_of_advance h

/-! ### Starting the workers -/

/-- The workers after a worker has changed. -/
theorem getElem?_set_worker {workers : List (Worker ρ)} {i : WorkerId} {w w' : Worker ρ}
    (hw : workers[i]? = some w) (j : WorkerId) :
    (workers.set i w')[j]? = if j = i then some w' else workers[j]? := by
  have hlt := (List.getElem?_eq_some_iff.mp hw).1
  by_cases hj : j = i
  · rw [if_pos hj, hj, List.getElem?_set_self hlt]
  · rw [if_neg hj, List.getElem?_set_ne (Ne.symm hj)]

@[simp] theorem cancel_pc (w : Worker ρ) : w.cancel.pc = w.pc := by
  unfold Worker.cancel
  split <;> rfl

@[simp] theorem cancel_state (w : Worker ρ) : w.cancel.state = w.state := by
  unfold Worker.cancel
  split <;> rfl

/-- From this worker on, `start` has begun no thread. -/
def firstUnborn : Starting → Option WorkerId
  | .before => some 0
  | .attempting i | .calling i => some i
  | .confirming i => some (i + 1)
  | .finished => none

/-- `start` begins every thread at most once, after it has recorded the attempt. -/
structure Starts (workers : List (Worker ρ)) (starting : Starting) : Prop where
  unborn : ∀ i (j : Nat) (w : Worker ρ), firstUnborn starting = some i → i ≤ j →
    workers[j]? = some w → w.pc = .unborn
  idle : ∀ (j : Nat) (w : Worker ρ), workers[j]? = some w → w.state = .idle → w.pc = .unborn
  called : ∀ i (w : Worker ρ), starting = .calling i → workers[i]? = some w → w.state ≠ .idle

theorem starts_init (workers waiting : Nat) (onUnknown : Bool) :
    Starts (Machine.init ρ workers waiting onUnknown).workers .before := by
  have hnew : ∀ (i : Nat) (w : Worker ρ),
      (Machine.init ρ workers waiting onUnknown).workers[i]? = some w → w = {} := fun i w hw =>
    List.eq_of_mem_replicate (List.mem_of_getElem? hw)
  exact ⟨fun i j w _ _ hw => by rw [hnew j w hw], fun i w hw _ => by rw [hnew i w hw],
    fun _ _ h => by cases h⟩

/-- A worker that moves is not one that `start` has yet to begin. -/
theorem Starts.set {workers : List (Worker ρ)} {starting : Starting} (h : Starts workers starting)
    {i : WorkerId} {w w' : Worker ρ} (hw : workers[i]? = some w)
    (hpc : w.pc = .unborn → w'.pc = .unborn) (hstate : w'.state = w.state) :
    Starts (workers.set i w') starting := by
  obtain ⟨unborn, idle, called⟩ := h
  constructor <;> simp only [getElem?_set_worker hw] <;> grind

theorem starts_moved {m m' : Machine ρ} {event : Event ρ} (hm : Starts m.workers m.starting)
    (h : Moved m event m') : Starts m'.workers m'.starting := by
  cases h with
  | accepted | refused | closed | drains | waits | rechecks | looked | drained => exact hm
  | begins hstarting =>
      obtain ⟨unborn, idle, called⟩ := hm
      exact ⟨fun i j w hi => unborn i j w (by rw [hstarting]; exact hi), idle,
        fun _ _ h => by cases h⟩
  | attempted i w hstarting hw =>
      obtain ⟨unborn, idle, called⟩ := hm
      have hlater := fun j v => unborn i j v (by rw [hstarting]; rfl)
      constructor <;> simp only [Machine.put, getElem?_set_worker hw] <;> grind [firstUnborn]
  | begun outcome i w starting hstarting hnext hw =>
      obtain ⟨unborn, idle, called⟩ := hm
      have hcalled := called i w hstarting hw
      have hlater := fun j v => unborn i j v (by rw [hstarting]; rfl)
      rcases hnext with rfl | rfl <;> constructor <;>
        simp only [Machine.put, getElem?_set_worker hw] <;> grind [firstUnborn]
  | confirmed i w hstarting hw =>
      obtain ⟨unborn, idle, called⟩ := hm
      have hlater := fun j v => unborn (i + 1) j v (by rw [hstarting]; rfl)
      constructor <;> simp only [Machine.put, getElem?_set_worker hw] <;> grind [firstUnborn]
  | startOver => exact ⟨fun _ _ _ h => (by cases h), hm.idle, fun _ _ h => by cases h⟩
  | entered i w w' hw hpc hw' =>
      refine hm.set hw (fun hnew => ?_) (by rcases hw' with rfl | rfl <;> rfl)
      rw [hpc] at hnew
      cases hnew
  | left i w hw hpc | skipped i w id pending hw hpc | ran i w id pending hw hpc
  | returned i w id job value result hw hpc | raised i w id hw hpc | contained i w id outcome hw hpc
  | completed i w id skipped failed result hw hpc | abandoned i w id notify outcome hw hpc
  | notified i w id outcome hw hpc | done i w hw hpc | exited i w hw hpc =>
      refine hm.set hw (fun hnew => ?_) rfl
      rw [hpc] at hnew
      cases hnew
  | settled d i w hdrain hw | checked d i w settled hdrain hw =>
      exact hm.set hw (fun hnew => by rw [cancel_pc, hnew]) (cancel_state w)

end MaskGateway.Proofs.AdminWork
