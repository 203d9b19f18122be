import MaskGateway.Proofs.Runtime.BudgetShutdown

/-!
# `MaskGateway.Proofs.Runtime.BudgetPins`: an output stays pinned until its own pin ends it

The invariants that follow are about one pin in a ledger that others use as well.
-/

set_option autoImplicit false

namespace MaskGateway.Proofs.Budget

open MaskGateway.Lib
open MaskGateway.Runtime.Budget

/-- The output of this pin is in the image. -/
def Pinned (owner : Nat) (image : Image) (pin : BudgetOutputToken) : Prop :=
  ∃ i e row, Holds image i e row ∧ row.outputPinned = true ∧ pin = pinAt owner i e row

theorem Pinned.replace {owner : Nat} {image : Image} {pin : BudgetOutputToken}
    (h : Pinned owner image pin) {index epoch : Nat} {row row' : ReservationView}
    (hslot : Holds image index epoch row) (hsame : SameOutput row row') :
    Pinned owner (image.replace index epoch (some row')) pin := by
  obtain ⟨i, e, found, hfound, hpinned, rfl⟩ := h
  by_cases hi : i = index
  · subst hi
    obtain ⟨rfl, rfl⟩ := holds_unique hfound hslot
    exact ⟨i, e, row', holds_set_self hslot, hsame.pinned.trans hpinned, (pinAt_congr hsame).symm⟩
  · exact ⟨i, e, found, holds_set_of_ne hfound hi, hpinned, rfl⟩

/-- Overwriting a slot that has no pinned output. -/
theorem Pinned.set {owner : Nat} {image : Image} {pin : BudgetOutputToken}
    (h : Pinned owner image pin) {index : Nat} {slot : Slot}
    (hfree : ∀ e row, Holds image index e row → row.outputPinned = false) :
    Pinned owner (image.set index slot) pin := by
  obtain ⟨i, e, found, hfound, hpinned, rfl⟩ := h
  refine ⟨i, e, found, holds_set_of_ne hfound ?_, hpinned, rfl⟩
  rintro rfl
  rw [hfree e found hfound] at hpinned
  cases hpinned

/-- What is published leaves a pinned output alone, unless its own pin says that it is discarded. -/
theorem Written.keepsPin {l : Ledger} {op : Op} {answer : Answer} {new : Image}
    (h : Written l op answer new) {pin : BudgetOutputToken} (hpin : Pinned l.owner l.image pin)
    (hop : ∀ drain, op ≠ .endOutput (some pin) (some true) drain) : Pinned l.owner new pin := by
  cases h with
  | reserved index slot row hadmits hopen hslot hempty =>
      refine hpin.set fun e found hfound => ?_
      rw [Holds, hslot] at hfound
      cases hfound
      cases hempty
  | restated index epoch row row' hadmits hnamed hslot hsame hout => exact hpin.replace hslot hout
  | pinned index epoch row row' frame overhead hslot hsame hfree =>
      refine hpin.set fun e found hfound => ?_
      obtain ⟨rfl, rfl⟩ := holds_unique hslot hfound
      exact hfree
  | unpinned index epoch row row' drain hslot hsame hpinned =>
      obtain ⟨i, e, found, hfound, hfoundPinned, rfl⟩ := hpin
      refine ⟨i, e, found, holds_set_of_ne hfound ?_, hfoundPinned, rfl⟩
      rintro rfl
      obtain ⟨rfl, rfl⟩ := holds_unique hslot hfound
      exact hop _ rfl
  | published candidate replacing mid index epoch row hmid hnamed hslot hkind =>
      have hstill := holds_retires hmid hslot (by simp [hkind])
      have hmidPin : Pinned l.owner mid pin := by
        rcases hmid with rfl | ⟨i, e, gen, -, hgen, -, rfl⟩
        · exact hpin
        · exact hpin.replace hgen (sameOutput_state gen _)
      exact hmidPin.replace hstill ⟨rfl, rfl, rfl, rfl⟩
  | released index epoch row confirmation hconfirmed hslot hstate hfree =>
      refine hpin.set fun e found hfound => ?_
      obtain ⟨rfl, rfl⟩ := holds_unique hslot hfound
      exact hfree
  | closing | closed => exact hpin

/-- **A pinned output stays** through every call but the one that discards it. -/
theorem Pinned.step {l : Ledger} {faults : Faults} {op : Op} {pin : BudgetOutputToken}
    (h : Pinned l.owner l.image pin)
    (hop : ∀ drain, op ≠ .endOutput (some pin) (some true) drain) :
    Pinned (l.step faults op).2.owner (l.step faults op).2.image pin := by
  rw [owner_step]
  exact step_image h fun answer new hwritten => hwritten.keepsPin h hop

/-- A pin that was answered is that of an output of the image. -/
theorem pinned_of_step {l l' : Ledger} {faults : Faults} {op : Op} {pin : BudgetOutputToken}
    (h : l.step faults op = (.ok (.pin pin), l')) : Pinned l'.owner l'.image pin := by
  have hstep := stepped faults l op
  rw [h] at hstep
  cases hstep with
  | still _ hquiet => exact absurd (hquiet _ rfl) id
  | wrote _ new hvalid hwritten hwrite =>
      cases hwritten with
      | restated index epoch row row' hop hnamed hslot hsame hout hquiet => exact absurd hquiet id
      | pinned index epoch row row' frame overhead hslot hsame hfree hepoch hpinned =>
          exact ⟨index, epoch, row', holds_set_self hslot, hpinned, rfl⟩

/-- The answer of a call is that of its plan. -/
theorem plan_of_step {l l' : Ledger} {faults : Faults} {op : Op} {answer : Answer}
    (h : l.step faults op = (.ok answer, l')) : ∃ image, l.plan op = .ok (answer, image) := by
  unfold Ledger.step Ledger.perform at h
  split at h
  · cases h
  · rename_i found hplan
    cases h
    exact ⟨none, hplan⟩
  · rename_i found image hplan
    split at h
    · cases h
      exact ⟨some image, hplan⟩
    · cases h

/-- `end_output`, with the pin of an output that is pinned: CLEARED if it is discarded, and HELD if it
is not. -/
theorem answer_endOutput {l l' : Ledger} {faults : Faults} {pin : BudgetOutputToken}
    {discarded drain : Bool} {answer : Answer} (hpin : Pinned l.owner l.image pin)
    (h : l.step faults (.endOutput (some pin) (some discarded) (some drain)) = (.ok answer, l')) :
    answer = .output (if discarded then .cleared else .held) := by
  obtain ⟨i, e, row, hslot, hpinned, rfl⟩ := hpin
  obtain ⟨image, hplan⟩ := plan_of_step h
  simp only [Ledger.plan, map_eq_ok, Prod.exists, Prod.map_apply, id_eq, Prod.mk.injEq] at hplan
  obtain ⟨outcome, image', hplan, rfl, rfl⟩ := hplan
  simp only [Ledger.endOutput, bind_eq_ok] at hplan
  obtain ⟨-, -, pinEpoch, -, f, -, o, -, ⟨index, epoch, found⟩, hrow, -, -, hplan⟩ := hplan
  obtain ⟨hnamed, hfound⟩ := entry_ok hrow
  simp only [pinAt, tokenAt, Option.some.injEq, BudgetToken.mk.injEq, true_and, Arg.int.injEq,
    Int.natCast_inj] at hnamed
  obtain ⟨rfl, rfl⟩ := hnamed
  obtain ⟨-, rfl⟩ := holds_unique hslot hfound
  rw [if_neg (by rw [hpinned]; exact Bool.noConfusion)] at hplan
  simp only [bind_eq_ok] at hplan
  obtain ⟨-, -, hplan⟩ := hplan
  cases discarded with
  | true =>
      rw [if_pos rfl] at hplan
      simp only [pure_eq_ok, Prod.mk.injEq] at hplan
      rw [if_pos rfl, hplan.1]
  | false =>
      rw [if_neg Bool.noConfusion] at hplan
      split at hplan <;> simp only [pure_eq_ok, Prod.mk.injEq] at hplan <;>
        rw [if_neg Bool.noConfusion, hplan.1]

end MaskGateway.Proofs.Budget
