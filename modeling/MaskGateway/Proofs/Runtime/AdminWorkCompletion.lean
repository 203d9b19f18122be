import MaskGateway.Proofs.Runtime.AdminWorkMoves

/-!
# `MaskGateway.Proofs.Runtime.AdminWorkCompletion`: every accepted ticket completes once

The books of the queue are counts: how often a ticket was accepted, taken, completed and notified, and
how many workers have it in hand or still owe its notification. Each section moves one worker and
keeps the sums (`Books`). When no callback is interrupted, nothing gets lost on the way (`Kept`), and a
drain that has seen every worker gone finds every sum at its end.
-/

set_option autoImplicit false

namespace MaskGateway.Proofs.AdminWork

open MaskGateway.Lib
open MaskGateway.Runtime.AdminWork

variable {ρ : Type}

/-! ### What a worker has in hand -/

/-- The worker has this ticket, and has not completed it. -/
def inHand (id : TicketId) : Pc ρ → Bool
  | .running held _ | .containing held | .finishing held _ _ _ => held = id
  | _ => false

/-- The worker has to abandon this ticket, or may have to. -/
def skips (id : TicketId) : Pc ρ → Bool
  | .finishing held true _ _ | .calling held true _ => held = id
  | _ => false

/-- The worker still has to notify for this ticket. -/
def owes (id : TicketId) : Pc ρ → Bool
  | .calling held _ true => held = id
  | _ => false

@[simp] theorem inHand_calls (id held : TicketId) (abandon notify : Bool) :
    inHand id (Machine.calls held abandon notify : Pc ρ) = false := by
  unfold Machine.calls
  split <;> rfl

@[simp] theorem skips_calls (id held : TicketId) (abandon notify : Bool) :
    skips id (Machine.calls held abandon notify : Pc ρ) = (abandon && decide (held = id)) := by
  cases abandon <;> cases notify <;> rfl

@[simp] theorem owes_calls (id held : TicketId) (abandon notify : Bool) :
    owes id (Machine.calls held abandon notify : Pc ρ) = (notify && decide (held = id)) := by
  cases abandon <;> cases notify <;> rfl

/-- How many workers are at such a place. -/
def tally (p : Pc ρ → Bool) (workers : List (Worker ρ)) : Int :=
  workers.countP fun w => p w.pc

theorem tally_set (p : Pc ρ → Bool) {workers : List (Worker ρ)} {i : WorkerId} {w w' : Worker ρ}
    (hw : workers[i]? = some w) :
    tally p (workers.set i w') = tally p workers - unit (p w.pc) + unit (p w'.pc) :=
  countP_set_of_getElem? _ w' hw

theorem one_le_tally {p : Pc ρ → Bool} {workers : List (Worker ρ)} {i : WorkerId} {w : Worker ρ}
    (hw : workers[i]? = some w) (hp : p w.pc = true) : 1 ≤ tally p workers :=
  one_le_countP _ hw hp

theorem tally_nonneg (p : Pc ρ → Bool) (workers : List (Worker ρ)) : 0 ≤ tally p workers :=
  Int.natCast_nonneg _

theorem tally_set_le {p : Pc ρ → Bool} {workers : List (Worker ρ)} {i : WorkerId} {w w' : Worker ρ}
    (hw : workers[i]? = some w) (hp : p w'.pc = true → p w.pc = true) :
    tally p (workers.set i w') ≤ tally p workers := by
  rw [tally_set p hw]
  cases hnew : p w'.pc with
  | true => rw [hp hnew]; omega
  | false => have := unit_bounds (p w.pc); simp only [unit_false]; omega

/-! ### The books -/

/-- What was accepted, taken, completed and called back. -/
structure Books (limit : Nat) (m : Machine ρ) : Prop where
  capacity : m.capacity = limit
  room : m.tickets.length ≤ limit
  order : m.accepted = m.taken ++ m.pending
  sorted : m.accepted.Pairwise (· < ·)
  below : ∀ id ∈ m.accepted, id < m.submissions
  refused : ∀ id ∈ m.refused, id < m.submissions ∧ id ∉ m.accepted
  started : m.started.Sublist m.taken
  unfinished : ∀ id, (m.tickets.count id : Int) + m.completed.count id = m.accepted.count id
  kinds : ∀ id, (m.started.count id : Int) + m.skipped.count id = m.taken.count id
  hand : ∀ id, tally (inHand id) m.workers + m.completed.count id ≤ m.taken.count id
  skips : ∀ id, tally (skips id) m.workers + m.abandoned.count id ≤ m.skipped.count id
  owes : ∀ id, tally (owes id) m.workers + m.notified.count id ≤ m.completed.count id

theorem capacity_put (m : Machine ρ) (i : WorkerId) (w : Worker ρ) :
    (m.put i w).capacity = m.capacity := by
  simp [Machine.capacity, Machine.put]

/-- A worker that has nothing new in hand moves. -/
theorem books_put {limit : Nat} {m : Machine ρ} (hm : Books limit m) {i : WorkerId} {w w' : Worker ρ}
    (hw : m.workers[i]? = some w) (hhand : ∀ id, inHand id w'.pc = true → inHand id w.pc = true)
    (hskips : ∀ id, AdminWork.skips id w'.pc = true → AdminWork.skips id w.pc = true)
    (howes : ∀ id, AdminWork.owes id w'.pc = true → AdminWork.owes id w.pc = true) :
    Books limit (m.put i w') where
  capacity := (capacity_put m i w').trans hm.capacity
  room := hm.room
  order := hm.order
  sorted := hm.sorted
  below := hm.below
  refused := hm.refused
  started := hm.started
  unfinished := hm.unfinished
  kinds := hm.kinds
  hand id := Int.le_trans (Int.add_le_add_right (tally_set_le hw (hhand id)) _) (hm.hand id)
  skips id := Int.le_trans (Int.add_le_add_right (tally_set_le hw (hskips id)) _) (hm.skips id)
  owes id := Int.le_trans (Int.add_le_add_right (tally_set_le hw (howes id)) _) (hm.owes id)

/-- One more in a list. -/
theorem count_concat (l : List TicketId) (new id : TicketId) :
    ((l ++ [new]).count id : Int) = l.count id + unit (decide (new = id)) := by
  rw [List.count_append, List.count_singleton]
  by_cases h : new = id <;> simp [h]

/-- One less in a list. -/
theorem count_erase_of_mem {l : List TicketId} {old : TicketId} (h : old ∈ l) (id : TicketId) :
    ((l.erase old).count id : Int) = l.count id - unit (decide (old = id)) :=
  countP_erase_of_mem (fun t => t == id) h

/-- Taking the first ticket of the queue. -/
theorem order_take {m : Machine ρ} (horder : m.accepted = m.taken ++ m.pending) {id : TicketId}
    {pending : List TicketId} (hpending : m.pending = id :: pending) :
    m.accepted = m.taken ++ [id] ++ pending := by
  rw [horder, hpending, List.append_assoc, List.singleton_append]

theorem books_moved {limit : Nat} {m m' : Machine ρ} {event : Event ρ} (hm : Books limit m)
    (h : Moved m event m') : Books limit m' := by
  cases h with
  | closed | begins | startOver | drains | waits | rechecks | looked | drained =>
      exact { hm with capacity := hm.capacity }
  | accepted notify abandon raises hopen hwhole hroom =>
      refine { hm with
        capacity := hm.capacity
        room := ?_, order := ?_, sorted := ?_, below := ?_, refused := ?_, unfinished := ?_ }
      · rw [List.length_append, List.length_singleton, ← hm.capacity]
        exact hroom
      · rw [hm.order, List.append_assoc]
      · refine List.pairwise_append.mpr ⟨hm.sorted, List.pairwise_singleton _ _, ?_⟩
        intro id hid new hnew
        rw [List.mem_singleton.mp hnew]
        exact hm.below id hid
      · intro id hid
        rcases List.mem_append.mp hid with hold | hnew
        · exact Nat.lt_succ_of_lt (hm.below id hold)
        · rw [List.mem_singleton.mp hnew]
          exact Nat.lt_succ_self _
      · intro id hid
        obtain ⟨hlt, hnot⟩ := hm.refused id hid
        refine ⟨Nat.lt_succ_of_lt hlt, fun hmem => ?_⟩
        rcases List.mem_append.mp hmem with hold | hnew
        · exact hnot hold
        · rw [List.mem_singleton.mp hnew] at hlt
          exact Nat.lt_irrefl _ hlt
      · intro id
        have := hm.unfinished id
        simp only [count_concat]
        omega
  | refused notify abandon raises =>
      refine { hm with below := fun id hid => Nat.lt_succ_of_lt (hm.below id hid), refused := ?_ }
      intro id hid
      rcases List.mem_append.mp hid with hold | hnew
      · exact ⟨Nat.lt_succ_of_lt (hm.refused id hold).1, (hm.refused id hold).2⟩
      · rw [List.mem_singleton.mp hnew]
        exact ⟨Nat.lt_succ_self _, fun hin => Nat.lt_irrefl _ (hm.below _ hin)⟩
  | attempted i w hstarting hw =>
      have hput := @books_put ρ limit m hm i w { w with state := .starting } hw (fun _ => id)
        (fun _ => id) (fun _ => id)
      exact { hput with capacity := hput.capacity }
  | confirmed i w hstarting hw =>
      have hput := @books_put ρ limit m hm i w { w with state := .started } hw (fun _ => id)
        (fun _ => id) (fun _ => id)
      exact { hput with capacity := hput.capacity }
  | begun outcome i w starting hstarting hnext hw =>
      have hput := @books_put ρ limit m hm i w { w with pc := .entering } hw (fun _ => nofun)
        (fun _ => nofun) (fun _ => nofun)
      exact { hput with capacity := hput.capacity }
  | settled d i w hdrain hw | checked d i w settled hdrain hw =>
      have hput := @books_put ρ limit m hm i w w.cancel hw (by simp) (by simp) (by simp)
      exact { hput with capacity := hput.capacity }
  | entered i w w' hw hpc hw' =>
      rcases hw' with rfl | rfl <;>
        exact books_put hm hw (fun _ => nofun) (fun _ => nofun) (fun _ => nofun)
  | left i w hw hpc => exact books_put hm hw (fun _ => nofun) (fun _ => nofun) (fun _ => nofun)
  | done i w hw hpc => exact books_put hm hw (fun _ => nofun) (fun _ => nofun) (fun _ => nofun)
  | exited i w hw hpc => exact books_put hm hw (fun _ => nofun) (fun _ => nofun) (fun _ => nofun)
  | returned i w id job value result hw hpc =>
      refine books_put hm hw (fun k hk => ?_) (fun _ hk => Bool.noConfusion hk)
        (fun _ hk => Bool.noConfusion hk)
      rw [hpc]
      exact hk
  | raised i w id hw hpc =>
      have hput := @books_put ρ limit m hm i w { w with pc := .containing id } hw
        (fun k hk => by rw [hpc]; exact hk) (fun _ => nofun) (fun _ => nofun)
      exact { hput with capacity := hput.capacity }
  | contained i w id outcome hw hpc =>
      have hput := @books_put ρ limit m hm i w
        { w with pc := if m.onUnknown && decide (outcome = .interrupted) then .leaving
            else .finishing id false true none } hw
        (fun k hk => by
          rw [hpc]
          dsimp only at hk
          split at hk
          · cases hk
          · exact hk)
        (fun k hk => by
          dsimp only at hk
          split at hk <;> cases hk)
        (fun k hk => by
          dsimp only at hk
          split at hk <;> cases hk)
      exact { hput with capacity := hput.capacity }
  | skipped i w id pending hw hpc hpending hfrozen =>
      refine { hm with
        capacity := (capacity_put m i _).trans hm.capacity, order := order_take hm.order hpending
        started := hm.started.trans (List.sublist_append_left _ _), kinds := ?_, hand := ?_
        skips := ?_, owes := ?_ } <;> intro k
      · have := hm.kinds k
        simp only [Machine.put, count_concat]
        omega
      · have := hm.hand k
        simp only [Machine.put, tally_set _ hw, hpc, count_concat]
        simp only [inHand, unit_false]
        omega
      · have := hm.skips k
        simp only [Machine.put, tally_set _ hw, hpc, count_concat]
        simp only [AdminWork.skips, unit_false]
        omega
      · have := hm.owes k
        simp only [Machine.put, tally_set _ hw, hpc]
        simp only [AdminWork.owes, unit_false]
        omega
  | ran i w id pending hw hpc hpending hcontaining hfrozen =>
      refine { hm with
        capacity := (capacity_put m i _).trans hm.capacity, order := order_take hm.order hpending
        started := hm.started.append_right [id], kinds := ?_, hand := ?_, skips := ?_, owes := ?_ } <;>
        intro k
      · have := hm.kinds k
        simp only [Machine.put, count_concat]
        omega
      · have := hm.hand k
        simp only [Machine.put, tally_set _ hw, hpc, count_concat]
        simp only [inHand, unit_false]
        omega
      · have := hm.skips k
        simp only [Machine.put, tally_set _ hw, hpc]
        simp only [AdminWork.skips, unit_false]
        omega
      · have := hm.owes k
        simp only [Machine.put, tally_set _ hw, hpc]
        simp only [AdminWork.owes, unit_false]
        omega
  | completed i w id skipped failed result hw hpc =>
      -- the ticket is one of the unfinished ones
      have hmem : id ∈ m.tickets := by
        have hin := one_le_tally (p := inHand id) hw (by rw [hpc]; exact decide_eq_true rfl)
        have hhand := hm.hand id
        have hcount := hm.unfinished id
        rw [hm.order, List.count_append] at hcount
        rw [← List.count_pos_iff]
        omega
      refine { hm with
        capacity := (capacity_put m i _).trans hm.capacity
        room := Nat.le_trans (List.length_erase_le) hm.room
        unfinished := ?_, hand := ?_, skips := ?_, owes := ?_ } <;> intro k
      · have := hm.unfinished k
        simp only [Machine.complete, Machine.put, count_erase_of_mem hmem, count_concat]
        omega
      · have := hm.hand k
        simp only [Machine.complete, Machine.put, tally_set _ hw, hpc, count_concat, inHand_calls]
        simp only [inHand, unit_false]
        omega
      · have := hm.skips k
        simp only [Machine.complete, Machine.put, tally_set _ hw, hpc, skips_calls]
        have hbefore : unit (skipped && (m.ticket id).abandon && decide (id = k)) ≤
            unit (AdminWork.skips k (.finishing id skipped failed result : Pc ρ)) := by
          cases skipped with
          | false => exact Int.le_refl 0
          | true =>
              cases (m.ticket id).abandon
              · exact (unit_bounds _).1
              · exact Int.le_refl _
        omega
      · have := hm.owes k
        simp only [Machine.complete, Machine.put, tally_set _ hw, hpc, owes_calls, count_concat]
        have hnew : unit ((m.ticket id).notify && decide (id = k)) ≤ unit (decide (id = k)) := by
          cases (m.ticket id).notify
          · exact (unit_bounds _).1
          · exact Int.le_refl _
        simp only [AdminWork.owes, unit_false]
        omega
  | abandoned i w id notify outcome hw hpc =>
      have hput := @books_put ρ limit m hm i w { w with
          pc := if outcome = .interrupted then .leaving else Machine.calls id false notify } hw
        (fun k hk => by
          dsimp only at hk
          split at hk
          · cases hk
          · simp at hk)
        (fun k hk => by
          dsimp only at hk
          split at hk
          · cases hk
          · simp at hk)
        (fun k hk => by
          rw [hpc]
          dsimp only at hk
          split at hk
          · cases hk
          · rw [owes_calls] at hk
            cases notify with
            | true => exact hk
            | false => cases hk)
      refine { hput with capacity := hput.capacity, skips := fun k => ?_ }
      have := hm.skips k
      simp only [Machine.put, tally_set _ hw, hpc, count_concat]
      have hnone : AdminWork.skips k (if outcome = .interrupted then .leaving
          else Machine.calls id false notify : Pc ρ) = false := by
        split
        · rfl
        · exact skips_calls k id false notify
      rw [hnone]
      simp only [AdminWork.skips, unit_false]
      omega
  | notified i w id outcome hw hpc =>
      have hleft : ∀ p : Pc ρ → Bool, p .leaving = false → p .serving = false →
          p (if outcome = .interrupted then .leaving else .serving) = false := by
        intro p hleaving hserving
        split
        · exact hleaving
        · exact hserving
      have hput := @books_put ρ limit m hm i w { w with
          pc := if outcome = .interrupted then .leaving else .serving } hw
        (fun k hk => by rw [hleft (inHand k) rfl rfl] at hk; cases hk)
        (fun k hk => by rw [hleft (AdminWork.skips k) rfl rfl] at hk; cases hk)
        (fun k hk => by rw [hleft (AdminWork.owes k) rfl rfl] at hk; cases hk)
      refine { hput with capacity := hput.capacity, owes := fun k => ?_ }
      have := hm.owes k
      simp only [Machine.put, tally_set _ hw, hpc, count_concat]
      rw [hleft (AdminWork.owes k) rfl rfl]
      simp only [AdminWork.owes, unit_false]
      omega

theorem count_le_one {limit : Nat} {m : Machine ρ} (hm : Books limit m) (id : TicketId) :
    m.accepted.count id ≤ 1 :=
  List.nodup_iff_count_le_one.mp (hm.sorted.imp Nat.ne_of_lt) id

theorem taken_le {limit : Nat} {m : Machine ρ} (hm : Books limit m) (id : TicketId) :
    m.taken.count id ≤ m.accepted.count id := by
  rw [hm.order, List.count_append]
  exact Nat.le_add_right _ _

/-! ### Runs without an interrupt -/

/-- No callback raises what is not an `Exception`. -/
def uninterrupted : Event ρ → Bool
  | .worker _ (.contain .interrupted) | .worker _ (.abandon .interrupted)
  | .worker _ (.notify .interrupted) => false
  | _ => true

/-- Nothing gets lost: what was taken is in hand or completed, and what was completed is notified or
about to be. -/
structure Kept (m : Machine ρ) : Prop where
  hand : ∀ id, tally (inHand id) m.workers + m.completed.count id = m.taken.count id
  wanted : ∀ id ∈ m.wanted, id ∈ m.accepted
  owes : ∀ id ∈ m.wanted, tally (owes id) m.workers + m.notified.count id = m.completed.count id
  notify : ∀ id ∈ m.wanted, id ∉ m.completed → (m.ticket id).notify = true

theorem kept_put {m : Machine ρ} (hm : Kept m) {i : WorkerId} {w w' : Worker ρ}
    (hw : m.workers[i]? = some w) (hhand : ∀ id, inHand id w'.pc = inHand id w.pc)
    (howes : ∀ id, AdminWork.owes id w'.pc = AdminWork.owes id w.pc) : Kept (m.put i w') where
  hand id := by
    have := hm.hand id
    simp only [Machine.put, tally_set _ hw, hhand]
    omega
  wanted := hm.wanted
  owes id hid := by
    have := hm.owes id hid
    simp only [Machine.put, tally_set _ hw, howes]
    omega
  notify := hm.notify

theorem kept_moved {limit : Nat} {m m' : Machine ρ} {event : Event ρ}
    (hstarts : Starts m.workers m.starting) (hbooks : Books limit m) (hm : Kept m)
    (hquiet : uninterrupted event = true) (h : Moved m event m') : Kept m' := by
  cases h with
  | refused | closed | begins | startOver | drains | waits | rechecks | looked | drained =>
      exact { hm with hand := hm.hand }
  | attempted i w hstarting hw =>
      have hput := @kept_put ρ m hm i w { w with state := .starting } hw (fun _ => rfl) fun _ => rfl
      exact { hput with hand := hput.hand }
  | confirmed i w hstarting hw =>
      have hput := @kept_put ρ m hm i w { w with state := .started } hw (fun _ => rfl) fun _ => rfl
      exact { hput with hand := hput.hand }
  | begun outcome i w starting hstarting hnext hw =>
      have hunborn := hstarts.unborn i i w (by rw [hstarting]; rfl) (Nat.le_refl i) hw
      have hput := @kept_put ρ m hm i w { w with pc := .entering } hw
        (fun _ => by rw [hunborn]; rfl) fun _ => by rw [hunborn]; rfl
      exact { hput with hand := hput.hand }
  | settled d i w hdrain hw | checked d i w settled hdrain hw =>
      have hput := @kept_put ρ m hm i w w.cancel hw (by simp) (by simp)
      exact { hput with hand := hput.hand }
  | entered i w w' hw hpc hw' =>
      rcases hw' with rfl | rfl <;>
        exact kept_put hm hw (fun _ => by rw [hpc]; rfl) fun _ => by rw [hpc]; rfl
  | left i w hw hpc | done i w hw hpc | exited i w hw hpc =>
      exact kept_put hm hw (fun _ => by rw [hpc]; rfl) fun _ => by rw [hpc]; rfl
  | returned i w id job value result hw hpc =>
      exact kept_put hm hw (fun _ => by rw [hpc]; rfl) fun _ => by rw [hpc]; rfl
  | raised i w id hw hpc =>
      have hput := @kept_put ρ m hm i w { w with pc := .containing id } hw
        (fun _ => by rw [hpc]; rfl) fun _ => by rw [hpc]; rfl
      exact { hput with hand := hput.hand }
  | contained i w id outcome hw hpc =>
      have hstays : (m.onUnknown && decide (outcome = .interrupted)) = false := by
        cases outcome with
        | interrupted => cases hquiet
        | returned | raised => exact Bool.and_false _
      have hput := @kept_put ρ m hm i w { w with pc := .finishing id false true none } hw
        (fun _ => by rw [hpc]; rfl) fun _ => by rw [hpc]; rfl
      rw [Machine.contain, hstays]
      exact { hput with hand := hput.hand }
  | skipped i w id pending hw hpc hpending | ran i w id pending hw hpc hpending =>
      refine { hm with hand := fun k => ?_, owes := fun k hk => ?_, notify := fun k hk hopen => ?_ }
      · have := hm.hand k
        simp only [Machine.put, tally_set _ hw, hpc, count_concat]
        simp only [inHand, unit_false]
        omega
      · have := hm.owes k hk
        simp only [Machine.put, tally_set _ hw, hpc]
        simp only [AdminWork.owes, unit_false]
        omega
      · have := hm.notify k hk hopen
        simp only [Function.update_apply]
        split
        · rename_i hsame
          rw [← hsame]
          exact this
        · exact this
  | accepted notify abandon raises hopen hwhole hroom =>
      have hnew : m.submissions ∉ m.accepted := fun hin => Nat.lt_irrefl _ (hbooks.below _ hin)
      have hsplit : ∀ id ∈ (if notify then m.wanted ++ [m.submissions] else m.wanted),
          id ∈ m.wanted ∨ (id = m.submissions ∧ notify = true) := by
        intro id hid
        cases notify with
        | false => exact .inl hid
        | true =>
            rcases List.mem_append.mp hid with hold | hnew
            · exact .inl hold
            · exact .inr ⟨List.mem_singleton.mp hnew, rfl⟩
      refine ⟨hm.hand, fun id hid => ?_, fun id hid => ?_, fun id hid hcompleted => ?_⟩
      · rcases hsplit id hid with hold | ⟨rfl, -⟩
        · exact List.mem_append_left _ (hm.wanted id hold)
        · exact List.mem_append_right _ (List.mem_singleton_self _)
      · rcases hsplit id hid with hold | ⟨rfl, -⟩
        · exact hm.owes id hold
        · -- nothing is known of a ticket that is new
          have hzero := List.count_eq_zero_of_not_mem hnew
          have htaken := taken_le hbooks m.submissions
          have hhand := hbooks.hand m.submissions
          have howes := hbooks.owes m.submissions
          have hpos := tally_nonneg (inHand m.submissions) m.workers
          have hpos' := tally_nonneg (AdminWork.owes m.submissions) m.workers
          simp only
          omega
      · simp only [Function.update_apply]
        split
        · rename_i hsame
          rcases hsplit id hid with hold | ⟨-, hnotify⟩
          · rw [hsame] at hold
            exact absurd (hm.wanted _ hold) hnew
          · exact hnotify
        · rename_i hne
          rcases hsplit id hid with hold | ⟨hsame, -⟩
          · exact hm.notify id hold hcompleted
          · exact absurd hsame hne
  | completed i w id skipped failed result hw hpc =>
      have hopen : id ∉ m.completed := by
        intro hin
        have hin := List.one_le_count_iff.mpr hin
        have htally := one_le_tally (p := inHand id) hw (by rw [hpc]; exact decide_eq_true rfl)
        have hhand := hbooks.hand id
        have htaken := taken_le hbooks id
        have hone := count_le_one hbooks id
        omega
      refine ⟨fun k => ?_, hm.wanted, fun k hk => ?_, fun k hk hcompleted => ?_⟩
      · have := hm.hand k
        simp only [Machine.complete, Machine.put, tally_set _ hw, hpc, count_concat, inHand_calls]
        simp only [inHand, unit_false]
        omega
      · have := hm.owes k hk
        simp only [Machine.complete, Machine.put, tally_set _ hw, hpc, owes_calls, count_concat]
        have hnew : unit ((m.ticket id).notify && decide (id = k)) = unit (decide (id = k)) := by
          by_cases hsame : id = k
          · rw [hsame] at hopen ⊢
            rw [hm.notify k hk hopen, Bool.true_and]
          · simp [hsame]
        simp only [AdminWork.owes, unit_false]
        omega
      · have hne : k ≠ id := fun hsame => hcompleted (by simp [Machine.complete, hsame])
        simp only [Machine.complete, Function.update_apply, if_neg hne]
        exact hm.notify k hk fun hin => hcompleted (List.mem_append_left _ hin)
  | abandoned i w id notify outcome hw hpc =>
      have hstays : ¬ outcome = .interrupted := by
        rintro rfl
        cases hquiet
      have hput := @kept_put ρ m hm i w { w with pc := Machine.calls id false notify } hw
        (fun k => by rw [hpc]; exact inHand_calls k id false notify) fun k => by
          rw [hpc, owes_calls]
          cases notify <;> rfl
      rw [if_neg hstays]
      exact { hput with hand := hput.hand }
  | notified i w id outcome hw hpc =>
      have hstays : ¬ outcome = .interrupted := by
        rintro rfl
        cases hquiet
      rw [if_neg hstays]
      refine { hm with hand := fun k => ?_, owes := fun k hk => ?_ }
      · have := hm.hand k
        simp only [Machine.put, tally_set _ hw, hpc]
        simp only [inHand, unit_false]
        omega
      · have := hm.owes k hk
        simp only [Machine.put, tally_set _ hw, hpc, count_concat]
        simp only [AdminWork.owes, unit_false]
        omega

/-! ### Draining -/

/-- The worker was never asked to start, or its thread has ended. -/
def Gone (w : Worker ρ) : Prop := w.state = .idle ∨ w.pc = .exited

/-- The workers before this one were found gone. -/
def checkedUpTo : Drain → Option WorkerId
  | .checking i true | .looking i true => some i
  | _ => none

/-- What a call of `drain` has seen. -/
structure Draining (m : Machine ρ) : Prop where
  stop : ∀ d, m.drains d ≠ .idle → m.closing = true ∧ m.stopping = true
  starting : m.stopping = true → m.starting = .before ∨ m.starting = .finished
  checked : ∀ d i, checkedUpTo (m.drains d) = some i →
    ∀ (j : Nat) (w : Worker ρ), j < i → m.workers[j]? = some w → Gone w
  returned : ∀ d, m.drains d = .returned true →
    m.tickets = [] ∧ ∀ (j : Nat) (w : Worker ρ), m.workers[j]? = some w → Gone w

/-- A worker that moves is not gone. -/
theorem gone_set {workers : List (Worker ρ)} {starting : Starting} (hstarts : Starts workers starting)
    {i : WorkerId} {w w' : Worker ρ} (hw : workers[i]? = some w)
    (hstill : w.pc ≠ .unborn ∧ w.pc ≠ .exited ∨ w'.state = w.state ∧ w'.pc = w.pc) {j : Nat}
    (hgone : ∀ v, workers[j]? = some v → Gone v) :
    ∀ v, (workers.set i w')[j]? = some v → Gone v := by
  intro v hv
  rw [getElem?_set_worker hw] at hv
  split at hv
  · rename_i hj
    subst hj
    obtain rfl := Option.some.inj hv
    rcases hstill with ⟨hborn, hruns⟩ | ⟨hstate, hpc⟩
    · rcases hgone w hw with hidle | hexited
      · exact absurd (hstarts.idle j w hw hidle) hborn
      · exact absurd hexited hruns
    · rcases hgone w hw with hidle | hexited
      · exact .inl (hstate.trans hidle)
      · exact .inr (hpc.trans hexited)
  · exact hgone v hv

theorem pc_of_ended {w : Worker ρ} (h : w.ended = true) : w.pc = .exited := by
  unfold Worker.ended at h
  split at h
  · assumption
  · cases h

/-- Once the queue stops, a worker that is gone stays so. -/
theorem gone_moved {m m' : Machine ρ} {event : Event ρ} (hstarts : Starts m.workers m.starting)
    (hover : m.starting = .before ∨ m.starting = .finished) (hstopping : m.stopping = true)
    (h : Moved m event m') {j : Nat} (hgone : ∀ w, m.workers[j]? = some w → Gone w) :
    ∀ w, m'.workers[j]? = some w → Gone w := by
  cases h with
  | accepted | refused | closed | startOver | drains | waits | rechecks | looked | drained =>
      exact hgone
  | begins hstarting hopen =>
      rw [hstopping] at hopen
      cases hopen
  | attempted i w hstarting | begun outcome i w starting hstarting | confirmed i w hstarting =>
      rw [hstarting] at hover
      rcases hover with hover | hover <;> cases hover
  | settled d i w hdrain hw | checked d i w settled hdrain hw =>
      exact gone_set hstarts hw (.inr ⟨cancel_state w, cancel_pc w⟩) hgone
  | entered i w w' hw hpc | left i w hw hpc | skipped i w id pending hw hpc
  | ran i w id pending hw hpc | returned i w id job value result hw hpc | raised i w id hw hpc
  | contained i w id outcome hw hpc | completed i w id skipped failed result hw hpc
  | abandoned i w id notify outcome hw hpc | notified i w id outcome hw hpc | done i w hw hpc
  | exited i w hw hpc =>
      exact gone_set hstarts hw (.inl ⟨by rw [hpc]; exact nofun, by rw [hpc]; exact nofun⟩) hgone

/-- In a closed or broken queue nothing is accepted. -/
theorem barrier_moved {m m' : Machine ρ} {event : Event ρ}
    (hshut : m.closing = true ∨ m.broken = true) (h : Moved m event m') :
    (m'.closing = true ∨ m'.broken = true) ∧ m'.accepted = m.accepted ∧
      (m.tickets = [] → m'.tickets = []) := by
  cases h with
  | accepted notify abandon raises hopen hwhole =>
      rw [hopen, hwhole] at hshut
      rcases hshut with hshut | hshut <;> cases hshut
  | closed | drains => exact ⟨.inl rfl, rfl, fun hnone => hnone⟩
  | raised => exact ⟨.inr rfl, rfl, fun hnone => hnone⟩
  | completed => exact ⟨hshut, rfl, fun hnone => by simp [Machine.complete, hnone]⟩
  | _ => exact ⟨hshut, rfl, fun hnone => hnone⟩

/-- Once the queue stops, `start` is not called any more. -/
theorem starting_moved {m m' : Machine ρ} {event : Event ρ} (h : Moved m event m')
    (hstopping : m.stopping = true) (hover : m.starting = .before ∨ m.starting = .finished) :
    m'.starting = .before ∨ m'.starting = .finished := by
  cases h with
  | begins hstarting hopen =>
      rw [hstopping] at hopen
      cases hopen
  | attempted i w hstarting | begun outcome i w starting hstarting | confirmed i w hstarting =>
      rw [hstarting] at hover
      rcases hover with hover | hover <;> cases hover
  | startOver => exact .inr rfl
  | _ => exact hover

theorem stopping_moved {m m' : Machine ρ} {event : Event ρ} (h : Moved m event m')
    (hstop : m.closing = true ∧ m.stopping = true) :
    m'.closing = true ∧ m'.stopping = true := by
  cases h with
  | closed => exact ⟨rfl, hstop.2⟩
  | drains => exact ⟨rfl, rfl⟩
  | _ => exact hstop

/-- A step that is none of a drain. -/
theorem draining_keep {m m' : Machine ρ} {event : Event ρ} (hstarts : Starts m.workers m.starting)
    (hm : Draining m) (h : Moved m event m') (hdrains : m'.drains = m.drains)
    (hstopping : m'.stopping = m.stopping) : Draining m' := by
  constructor
  · intro d hd
    rw [hdrains] at hd
    exact stopping_moved h (hm.stop d hd)
  · intro hnow
    rw [hstopping] at hnow
    exact starting_moved h hnow (hm.starting hnow)
  · intro d i hd j w hj
    rw [hdrains] at hd
    have hnow := hm.stop d fun hidle => by rw [hidle] at hd; cases hd
    exact gone_moved hstarts (hm.starting hnow.2) hnow.2 h (fun v hv => hm.checked d i hd j v hj hv) w
  · intro d hd
    rw [hdrains] at hd
    obtain ⟨hnone, hgone⟩ := hm.returned d hd
    have hnow := hm.stop d fun hidle => by rw [hidle] at hd; cases hd
    exact ⟨(barrier_moved (.inl hnow.1) h).2.2 hnone, fun j w =>
      gone_moved hstarts (hm.starting hnow.2) hnow.2 h (hgone j) w⟩

/-- The call of `drain` goes on. -/
theorem draining_at {m : Machine ρ} (hm : Draining m) {d : DrainId} {next : Drain}
    (hstop : m.closing = true ∧ m.stopping = true)
    (hchecked : ∀ i, checkedUpTo next = some i →
      ∀ (j : Nat) (w : Worker ρ), j < i → m.workers[j]? = some w → Gone w)
    (hreturned : next = .returned true →
      m.tickets = [] ∧ ∀ (j : Nat) (w : Worker ρ), m.workers[j]? = some w → Gone w) :
    Draining (m.drainAt d next) := by
  constructor
  · exact fun _ _ => hstop
  · exact hm.starting
  · intro d' i hd'
    simp only [Machine.drainAt, Function.update_apply] at hd'
    split at hd'
    · exact hchecked i hd'
    · exact hm.checked d' i hd'
  · intro d' hd'
    simp only [Machine.drainAt, Function.update_apply] at hd'
    split at hd'
    · exact hreturned hd'
    · exact hm.returned d' hd'

theorem draining_cancel {m : Machine ρ} (hstarts : Starts m.workers m.starting) (hm : Draining m)
    {i : WorkerId} {w : Worker ρ} (hw : m.workers[i]? = some w) : Draining (m.put i w.cancel) :=
  have hgone : ∀ {j : Nat}, (∀ v, m.workers[j]? = some v → Gone v) →
      ∀ v, (m.workers.set i w.cancel)[j]? = some v → Gone v := fun h =>
    gone_set hstarts hw (.inr ⟨cancel_state w, cancel_pc w⟩) h
  { hm with
    checked := fun d k hd j v hj => hgone (fun u hu => hm.checked d k hd j u hj hu) v
    returned := fun d hd => ⟨(hm.returned d hd).1, fun j v => hgone ((hm.returned d hd).2 j) v⟩ }

theorem draining_moved {m m' : Machine ρ} {event : Event ρ} (hstarts : Starts m.workers m.starting)
    (hm : Draining m) (h : Moved m event m') : Draining m' := by
  have hmoved := h
  cases h with
  | drains d hidle hstarting =>
      have hstopped : Draining { m with closing := true, stopping := true } :=
        { hm with stop := fun _ _ => ⟨rfl, rfl⟩, starting := fun _ => hstarting }
      exact draining_at hstopped ⟨rfl, rfl⟩ (by intros; contradiction) (by intros; contradiction)
  | settled d i w hdrain hw =>
      refine draining_at (draining_cancel hstarts hm hw) (hm.stop d ?_) (by intros; contradiction) (by intros; contradiction)
      rw [hdrain]
      rintro ⟨⟩
  | waits d i drain hdrain hnext =>
      refine draining_at hm (hm.stop d ?_) ?_ ?_
      · rcases hdrain with hdrain | hdrain <;> rw [hdrain] <;> rintro ⟨⟩
      · rcases hnext with rfl | rfl <;> (intros; contradiction)
      · rcases hnext with rfl | rfl <;> (intros; contradiction)
  | rechecks d i hdrain =>
      refine draining_at hm (hm.stop d ?_) ?_ (by intros; contradiction)
      · rw [hdrain]
        rintro ⟨⟩
      · intro k hk j w hj
        obtain rfl := Option.some.inj hk
        cases hj
  | checked d i w settled hdrain hw =>
      refine draining_at (draining_cancel hstarts hm hw) (hm.stop d ?_) ?_ ?_
      · rw [hdrain]
        rintro ⟨⟩
      · intro k hk j v hj hv
        cases settled with
        | false => split at hk <;> cases hk
        | true =>
            have hbefore := (draining_cancel hstarts hm hw).checked d i
              (by rw [show (m.put i w.cancel).drains = m.drains from rfl, hdrain]; rfl) j v
            split at hk <;> obtain rfl := Option.some.inj hk
            · rename_i hidle
              rcases Nat.lt_succ_iff_lt_or_eq.mp hj with hlt | rfl
              · exact hbefore hlt hv
              · rw [Machine.put, getElem?_set_worker hw, if_pos rfl] at hv
                obtain rfl := Option.some.inj hv
                exact .inl ((cancel_state w).trans hidle)
            · exact hbefore hj hv
      · split <;> (intros; contradiction)
  | looked d i w settled hdrain hw =>
      refine draining_at hm (hm.stop d ?_) ?_ (by intros; contradiction)
      · rw [hdrain]
        rintro ⟨⟩
      · intro k hk j v hj hv
        cases settled with
        | false => cases hk
        | true =>
            cases hended : w.done && w.ended with
            | false =>
                rw [hended] at hk
                cases hk
            | true =>
                rw [hended] at hk
                obtain rfl := Option.some.inj hk
                rcases Nat.lt_succ_iff_lt_or_eq.mp hj with hlt | rfl
                · exact hm.checked d i (by rw [hdrain]; rfl) j v hlt hv
                · obtain rfl := Option.some.inj (hw.symm.trans hv)
                  exact .inr (pc_of_ended (Bool.and_eq_true_iff.mp hended).2)
  | drained d i settled hdrain hw =>
      refine draining_at hm (hm.stop d ?_) (by intros; contradiction) ?_
      · rw [hdrain]
        rintro ⟨⟩
      · intro hreturned
        simp only [Drain.returned.injEq, Bool.and_eq_true, decide_eq_true_eq] at hreturned
        obtain ⟨rfl, hnone⟩ := hreturned
        refine ⟨hnone, fun j v hv => hm.checked d i (by rw [hdrain]; rfl) j v ?_ hv⟩
        have hend := List.getElem?_eq_none_iff.mp hw
        have hlt := (List.getElem?_eq_some_iff.mp hv).1
        exact Nat.lt_of_lt_of_le hlt hend
  | _ => exact draining_keep hstarts hm hmoved rfl rfl

/-! ### Completion -/

/-- What the queue promises about the tickets that it accepts. -/
structure Completion (limit : Nat) (m : Machine ρ) : Prop where
  bounded : m.tickets.Nodup ∧ m.tickets.length ≤ limit
  unfinished : ∀ id, id ∈ m.tickets ↔ id ∈ m.accepted ∧ id ∉ m.completed
  executed : m.started.Nodup
  /-- Tickets are numbered as they come, and jobs start in the order in which they were accepted. -/
  order : m.accepted.Pairwise (· < ·) ∧ m.started.Sublist m.accepted
  completed : m.completed.Nodup ∧ m.completed ⊆ m.accepted
  notified : m.notified.Nodup ∧ m.notified ⊆ m.completed
  abandoned : m.abandoned.Nodup ∧ ∀ id ∈ m.abandoned, id ∉ m.started
  refused : ∀ id ∈ m.refused, id ∉ m.started
  barrier : m.closing = true ∨ m.broken = true →
    ∀ events m', run Machine.step m events = some m' → m'.accepted = m.accepted
  /-- When a drain returns `True`, every ticket was completed and notified, and every worker is gone. -/
  drained : ∀ d, m.drains d = .returned true →
    (∀ id ∈ m.accepted, m.completed.count id = 1 ∧ (id ∈ m.wanted → m.notified.count id = 1)) ∧
      ∀ w ∈ m.workers, Gone w

/-- A worker that is gone has nothing in hand. -/
theorem tally_gone {p : Pc ρ → Bool} {workers : List (Worker ρ)} {starting : Starting}
    (hstarts : Starts workers starting) (hunborn : p .unborn = false) (hexited : p .exited = false)
    (hgone : ∀ (j : Nat) w, workers[j]? = some w → Gone w) : tally p workers = 0 := by
  unfold tally
  rw [Int.natCast_eq_zero, List.countP_eq_zero]
  intro w hw
  obtain ⟨j, hj⟩ := List.getElem?_of_mem hw
  rcases hgone j w hj with hidle | hended
  · rw [hstarts.idle j w hj hidle, hunborn]
    exact Bool.noConfusion
  · rw [hended, hexited]
    exact Bool.noConfusion

theorem run_barrier {m m' : Machine ρ} {events : List (Event ρ)}
    (hshut : m.closing = true ∨ m.broken = true) (hrun : run Machine.step m events = some m') :
    m'.accepted = m.accepted :=
  run_relates (P := fun m => m.closing = true ∨ m.broken = true)
    (R := fun m m' => m'.accepted = m.accepted) (fun hm h => (barrier_moved hm (moved_of_step h)).1)
    (fun _ => rfl) (by intro s₁ s₂ s₃ h₁ h₂; exact h₂.trans h₁)
    (fun hm h => (barrier_moved hm (moved_of_step h)).2.1) hrun hshut

theorem completion_of_books {limit : Nat} {m : Machine ρ} (hstarts : Starts m.workers m.starting)
    (hbooks : Books limit m) (hkept : Kept m) (hdraining : Draining m) : Completion limit m := by
  have htakenOne : ∀ id, m.taken.count id ≤ 1 := fun id =>
    Nat.le_trans (taken_le hbooks id) (count_le_one hbooks id)
  have hcompletedTaken : ∀ id, m.completed.count id ≤ m.taken.count id := fun id => by
    have hhand := hbooks.hand id
    have hpos := tally_nonneg (inHand id) m.workers
    omega
  have hmem : ∀ {id : TicketId} {l : List TicketId}, id ∈ l ↔ 1 ≤ l.count id := fun {id l} =>
    List.one_le_count_iff.symm
  have hstartedAccepted : m.started.Sublist m.accepted := by
    rw [hbooks.order]
    exact hbooks.started.trans (List.sublist_append_left _ _)
  constructor
  · refine ⟨List.nodup_iff_count_le_one.mpr fun id => ?_, hbooks.room⟩
    have hone := count_le_one hbooks id
    have hcount := hbooks.unfinished id
    omega
  · intro id
    rw [hmem, hmem, hmem]
    have hone := count_le_one hbooks id
    have hcount := hbooks.unfinished id
    have htaken := hcompletedTaken id
    omega
  · exact (hbooks.sorted.imp Nat.ne_of_lt).sublist hstartedAccepted
  · exact ⟨hbooks.sorted, hstartedAccepted⟩
  · refine ⟨List.nodup_iff_count_le_one.mpr fun id => Nat.le_trans (hcompletedTaken id) (htakenOne id),
      fun id hid => ?_⟩
    rw [hmem] at hid ⊢
    exact Nat.le_trans hid (Nat.le_trans (hcompletedTaken id) (taken_le hbooks id))
  · have hle : ∀ id, m.notified.count id ≤ m.completed.count id := fun id => by
      have howes := hbooks.owes id
      have hpos := tally_nonneg (owes id) m.workers
      omega
    refine ⟨List.nodup_iff_count_le_one.mpr fun id => ?_, fun id hid => ?_⟩
    · exact Nat.le_trans (hle id) (Nat.le_trans (hcompletedTaken id) (htakenOne id))
    · rw [hmem] at hid ⊢
      exact Nat.le_trans hid (hle id)
  · have hle : ∀ id, m.abandoned.count id ≤ m.skipped.count id := fun id => by
      have hskips := hbooks.skips id
      have hpos := tally_nonneg (skips id) m.workers
      omega
    refine ⟨List.nodup_iff_count_le_one.mpr fun id => ?_, fun id hid hstarted => ?_⟩
    · have := hle id
      have hkinds := hbooks.kinds id
      have hone := htakenOne id
      omega
    · -- a ticket is taken once, to be run or to be skipped
      rw [hmem] at hid hstarted
      have := hle id
      have hkinds := hbooks.kinds id
      have hone := htakenOne id
      omega
  · exact fun id hid hstarted => (hbooks.refused id hid).2 (hstartedAccepted.mem hstarted)
  · exact fun hshut events m' hrun => run_barrier hshut hrun
  · intro d hd
    obtain ⟨hnone, hgone⟩ := hdraining.returned d hd
    refine ⟨fun id hid => ?_, fun w hw => ?_⟩
    · have hcompleted : m.completed.count id = 1 := by
        have hone := count_le_one hbooks id
        have hcount := hbooks.unfinished id
        rw [hnone, List.count_nil] at hcount
        rw [hmem] at hid
        omega
      refine ⟨hcompleted, fun hwanted => ?_⟩
      have howes := hkept.owes id hwanted
      rw [tally_gone hstarts rfl rfl hgone] at howes
      omega
    · obtain ⟨j, hj⟩ := List.getElem?_of_mem hw
      exact hgone j w hj

/-- **Every accepted ticket is executed, completed and notified once**, and a drain that returns
`True` has left nothing behind. -/
theorem completion {workers waiting : Nat} {onUnknown : Bool} {events : List (Event ρ)}
    {m : Machine ρ}
    (hrun : run (guarded Machine.step fun _ => uninterrupted)
      (Machine.init ρ workers waiting onUnknown) events = some m) :
    Completion (workers + waiting) m := by
  have hinv : Starts m.workers m.starting ∧ Books (workers + waiting) m ∧ Kept m ∧ Draining m := by
    refine run_invariant (P := fun m : Machine ρ => Starts m.workers m.starting ∧
      Books (workers + waiting) m ∧ Kept m ∧ Draining m) (fun hm h => ?_) hrun ?_
    · obtain ⟨hstarts, hbooks, hkept, hdraining⟩ := hm
      obtain ⟨hquiet, hstep⟩ := guarded_eq_some.mp h
      have hmoved := moved_of_step hstep
      exact ⟨starts_moved hstarts hmoved, books_moved hbooks hmoved,
        kept_moved hstarts hbooks hkept hquiet hmoved, draining_moved hstarts hdraining hmoved⟩
    · have hstarts := @starts_init ρ workers waiting onUnknown
      have hidle : ∀ (j : Nat) (w : Worker ρ),
          (Machine.init ρ workers waiting onUnknown).workers[j]? = some w → Gone w := by
        intro j w hw
        obtain rfl := List.eq_of_mem_replicate (List.mem_of_getElem? hw)
        exact .inl rfl
      have hhand := fun id => tally_gone (p := inHand id) hstarts rfl rfl hidle
      have hskips := fun id => tally_gone (p := skips id) hstarts rfl rfl hidle
      have howes := fun id => tally_gone (p := owes id) hstarts rfl rfl hidle
      refine ⟨hstarts, ?_, ⟨fun id => ?_, nofun, nofun, nofun⟩, ⟨?_, nofun, nofun, nofun⟩⟩
      · refine ⟨by simp [Machine.capacity, Machine.init], Nat.zero_le _, rfl, .nil, nofun, nofun,
          .slnil, fun _ => rfl, fun _ => rfl, fun id => ?_, fun id => ?_, fun id => ?_⟩
        · rw [hhand id]
          exact Int.le_refl 0
        · rw [hskips id]
          exact Int.le_refl 0
        · rw [howes id]
          exact Int.le_refl 0
      · rw [hhand id]
        rfl
      · exact fun d hd => absurd rfl hd
  obtain ⟨hstarts, hbooks, hkept, hdraining⟩ := hinv
  exact completion_of_books hstarts hbooks hkept hdraining

/-- The first job raises and its containment fails. The second one is skipped, the third refused. -/
def frozenRun : List (Event Unit) :=
  [.submit true true false, .submit true true false, .submit true true false,
   .start .begin, .start .attempt, .start (.threadStart .begun), .start .confirm, .start .attempt,
   .worker 0 .enter, .worker 0 .take, .worker 0 .raised, .worker 0 (.contain .raised),
   .worker 0 .complete, .worker 0 (.notify .raised), .worker 0 .take, .drain 0, .advance 0,
   .advance 0, .worker 0 .complete, .worker 0 (.abandon .raised), .worker 0 (.notify .returned),
   .worker 0 .take, .worker 0 .done, .worker 0 .exit, .advance 0, .advance 0, .advance 0, .advance 0,
   .advance 0]

theorem completion_frozen :
    ∃ m, run (guarded Machine.step fun _ => uninterrupted) (Machine.init Unit 1 1 true) frozenRun =
        some m ∧
      m.drains 0 = .returned true ∧ m.accepted = [0, 1] ∧ m.started = [0] ∧ m.abandoned = [1] ∧
      Completion 2 m := by
  have hrun : (run (guarded Machine.step fun _ => uninterrupted) (Machine.init Unit 1 1 true)
      frozenRun).map (fun m => (m.drains 0, m.accepted, m.started, m.abandoned)) =
        some (.returned true, [0, 1], [0], [1]) := by decide
  obtain ⟨m, hm, hlists⟩ := Option.map_eq_some_iff.mp hrun
  simp only [Prod.mk.injEq] at hlists
  exact ⟨m, hm, hlists.1, hlists.2.1, hlists.2.2.1, hlists.2.2.2, completion hm⟩

end MaskGateway.Proofs.AdminWork
