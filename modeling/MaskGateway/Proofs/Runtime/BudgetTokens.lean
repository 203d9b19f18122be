import MaskGateway.Proofs.Runtime.BudgetInvariant

/-!
# `MaskGateway.Proofs.Runtime.BudgetTokens`: tokens of recycled slots

A slot keeps its epoch when its reservation leaves, and the next reservation raises it. So a token
names one reservation for ever, and an old token nothing at all. The order behind this is `Aged`:
epochs only grow, and under one epoch a slot is never filled again and its output epoch never falls.

`token_safety` follows a ledger over any calls, with any arguments and any publication faults.
-/

set_option autoImplicit false

namespace MaskGateway.Proofs.Budget

open MaskGateway.Lib
open MaskGateway.Runtime.Budget

/-! ### How slots age -/

/-- A slot, later: under the same epoch it has not been filled again, and its output epoch has not
fallen. -/
structure AgedSlot (slot slot' : Slot) : Prop where
  epoch : slot.epoch ≤ slot'.epoch
  entry : slot'.epoch = slot.epoch → ∀ row' ∈ slot'.entry, ∃ row ∈ slot.entry,
    row.outputEpoch ≤ row'.outputEpoch

/-- An image, later: the same slots, each of them later. -/
structure Aged (old new : Image) : Prop where
  length : new.slots.length = old.slots.length
  slots : ∀ (i : Nat) (slot slot' : Slot), old.slots[i]? = some slot → new.slots[i]? = some slot' →
    AgedSlot slot slot'

theorem AgedSlot.refl (slot : Slot) : AgedSlot slot slot :=
  ⟨Nat.le_refl _, fun _ row hrow => ⟨row, hrow, Nat.le_refl _⟩⟩

theorem AgedSlot.trans {a b c : Slot} (h₁ : AgedSlot a b) (h₂ : AgedSlot b c) : AgedSlot a c := by
  refine ⟨Nat.le_trans h₁.epoch h₂.epoch, fun hsame row hrow => ?_⟩
  -- the epoch in the middle is squeezed between two equal ones
  have hb : b.epoch = a.epoch := by
    have := h₁.epoch
    have := h₂.epoch
    omega
  obtain ⟨row₁, hrow₁, hle₁⟩ := h₂.entry (hsame.trans hb.symm) row hrow
  obtain ⟨row₀, hrow₀, hle₀⟩ := h₁.entry hb row₁ hrow₁
  exact ⟨row₀, hrow₀, Nat.le_trans hle₀ hle₁⟩

/-- The slot of before. -/
theorem Aged.before {old new : Image} (h : Aged old new) {i : Nat} {slot' : Slot}
    (hslot' : new.slots[i]? = some slot') : ∃ slot, old.slots[i]? = some slot ∧ AgedSlot slot slot' := by
  have hlt : i < old.slots.length := h.length ▸ (List.getElem?_eq_some_iff.mp hslot').1
  have hslot := List.getElem?_eq_getElem hlt
  exact ⟨old.slots[i], hslot, h.slots i _ _ hslot hslot'⟩

/-- The slot of after. -/
theorem Aged.after {old new : Image} (h : Aged old new) {i : Nat} {slot : Slot}
    (hslot : old.slots[i]? = some slot) : ∃ slot', new.slots[i]? = some slot' ∧ AgedSlot slot slot' := by
  have hlt : i < new.slots.length := h.length.symm ▸ (List.getElem?_eq_some_iff.mp hslot).1
  have hslot' := List.getElem?_eq_getElem hlt
  exact ⟨new.slots[i], hslot', h.slots i _ _ hslot hslot'⟩

theorem aged_of_slots_eq {old new : Image} (h : new.slots = old.slots) : Aged old new := by
  refine ⟨congrArg List.length h, fun i slot slot' hslot hslot' => ?_⟩
  rw [h] at hslot'
  obtain rfl := Option.some.inj (hslot.symm.trans hslot')
  exact AgedSlot.refl slot

theorem Aged.refl (image : Image) : Aged image image := aged_of_slots_eq rfl

theorem Aged.trans {a b c : Image} (h₁ : Aged a b) (h₂ : Aged b c) : Aged a c := by
  refine ⟨h₂.length.trans h₁.length, fun i slot slot' hslot hslot' => ?_⟩
  obtain ⟨mid, hmid, hage₁⟩ := h₁.after hslot
  exact hage₁.trans (h₂.slots i mid slot' hmid hslot')

/-- Overwriting one slot by a later one. -/
theorem aged_set {image : Image} {index : Nat} {slot new : Slot}
    (hslot : image.slots[index]? = some slot) (hage : AgedSlot slot new) :
    Aged image (image.set index new) := by
  refine ⟨List.length_set .., fun i other other' hother hother' => ?_⟩
  unfold Image.set at hother'
  by_cases hi : i = index
  · subst hi
    obtain rfl := Option.some.inj (hslot.symm.trans hother)
    rw [List.getElem?_set_self (List.getElem?_eq_some_iff.mp hother).1] at hother'
    rw [← Option.some.inj hother']
    exact hage
  · rw [List.getElem?_set_ne (Ne.symm hi)] at hother'
    obtain rfl := Option.some.inj (hother.symm.trans hother')
    exact AgedSlot.refl other

/-- Rewriting a reservation, or clearing its slot. -/
theorem aged_replace {image : Image} {index epoch : Nat} {row : ReservationView}
    {entry : Option ReservationView} (hslot : Holds image index epoch row)
    (houtput : ∀ row' ∈ entry, row.outputEpoch ≤ row'.outputEpoch) :
    Aged image (image.replace index epoch entry) :=
  aged_set hslot ⟨Nat.le_refl _, fun _ row' hrow' => ⟨row, rfl, houtput row' hrow'⟩⟩

/-- What `publish` writes into is later than the image. -/
theorem aged_retires {l : Ledger} {tokens : List BudgetToken} {mid : Image}
    (h : Retires l tokens mid) : Aged l.image mid := by
  rcases h with rfl | ⟨i, e, gen, -, hgen, -, rfl⟩
  · exact Aged.refl _
  · exact aged_replace hgen (by simp)

/-- The generation that is replaced is not the candidate. -/
theorem holds_retires {l : Ledger} {tokens : List BudgetToken} {mid : Image} {index epoch : Nat}
    {row : ReservationView} (h : Retires l tokens mid) (hslot : Holds l.image index epoch row)
    (hkind : row.kind ≠ .generation) : Holds mid index epoch row := by
  rcases h with rfl | ⟨i, e, gen, -, hgen, hgk, rfl⟩
  · exact hslot
  · refine holds_set_of_ne hslot ?_
    rintro rfl
    obtain ⟨-, rfl⟩ := holds_unique hslot hgen
    exact hkind hgk

/-- **What is published is later than what it replaces.** -/
theorem Written.aged {l : Ledger} {op : Op} {answer : Answer} {new : Image}
    (h : Written l op answer new) : Aged l.image new := by
  cases h with
  | reserved index slot row hop hopen hslot hempty hrow hout =>
      exact aged_set hslot ⟨Nat.le_succ _, fun h => absurd h (Nat.succ_ne_self _)⟩
  | restated index epoch row row' hop hnamed hslot hsame hout hquiet =>
      refine aged_replace hslot fun r hr => ?_
      rw [← Option.some.inj hr]
      exact Nat.le_of_eq hout.epoch.symm
  | pinned index epoch row row' frame overhead hslot hsame hfree hepoch hpinned =>
      refine aged_replace hslot fun r hr => ?_
      rw [← Option.some.inj hr, hepoch]
      exact Nat.le_succ _
  | unpinned index epoch row row' drain hslot hsame hpinned hepoch hfree =>
      refine aged_replace hslot fun r hr => ?_
      rw [← Option.some.inj hr]
      exact Nat.le_of_eq hepoch.symm
  | published candidate replacing mid index epoch row hmid hnamed hslot hkind hlive =>
      have hstill := holds_retires hmid hslot (by simp [hkind])
      exact (aged_retires hmid).trans (aged_replace hstill (by simp))
  | released index epoch row confirmation hconfirmed hslot hstate hpin hfree =>
      exact aged_replace hslot fun _ hr => by cases hr
  | closing | closed => exact aged_of_slots_eq rfl

/-- One call only ages the image. -/
theorem aged_step (faults : Faults) (l : Ledger) (op : Op) :
    Aged l.image (l.step faults op).2.image := by
  have hstep := stepped faults l op
  generalize l.step faults op = result at hstep
  cases hstep with
  | still answer hquiet => exact Aged.refl _
  | wrote answer new hvalid hwritten hwrite => exact hwritten.aged
  | failed answer new image hvalid hwritten himage hwrite hrestore =>
      rcases himage with rfl | rfl
      · exact Aged.refl _
      · exact hwritten.aged

/-- No call changes whose ledger it is. -/
theorem owner_step (faults : Faults) (l : Ledger) (op : Op) :
    (l.step faults op).2.owner = l.owner := by
  have hstep := stepped faults l op
  generalize l.step faults op = result at hstep
  cases hstep <;> rfl

theorem run_aged (l : Ledger) (calls : List (Faults × Op)) :
    (l.run calls).owner = l.owner ∧ Aged l.image (l.run calls).image := by
  induction calls generalizing l with
  | nil => exact ⟨rfl, Aged.refl _⟩
  | cons call calls ih =>
      obtain ⟨howner, hage⟩ := ih (l.step call.1 call.2).2
      exact ⟨howner.trans (owner_step ..), (aged_step ..).trans hage⟩

/-! ### What a run issues -/

/-- The answers of a run. -/
def answersOf (l : Ledger) : List (Faults × Op) → List (Except BudgetFailure Answer)
  | [] => []
  | (faults, op) :: calls => (l.step faults op).1 :: answersOf (l.step faults op).2 calls

/-- The token of an answer. -/
def tokenOf : Except BudgetFailure Answer → Option BudgetToken
  | .ok (.token token) => some token
  | _ => none

/-- The pin of an answer. -/
def pinOf : Except BudgetFailure Answer → Option BudgetOutputToken
  | .ok (.pin pin) => some pin
  | _ => none

/-- The second token is another one, and of a later epoch where it is of the same slot. -/
def Newer (owner : Nat) (first second : BudgetToken) : Prop :=
  ∃ i e j e', first = tokenAt owner i e ∧ second = tokenAt owner j e' ∧ (i = j → e < e')

/-- The second pin is another one, and of a later output where it is of the same session. -/
def NewerPin (owner : Nat) (first second : BudgetOutputToken) : Prop :=
  ∃ i e row j e' row', first = pinAt owner i e row ∧ second = pinAt owner j e' row' ∧
    (i = j ∧ e = e' → row.outputEpoch < row'.outputEpoch)

theorem tokenOf_eq_some {answer : Except BudgetFailure Answer} {token : BudgetToken}
    (h : tokenOf answer = some token) : answer = .ok (.token token) := by
  unfold tokenOf at h
  split at h
  · rw [Option.some.inj h]
  · cases h

theorem pinOf_eq_some {answer : Except BudgetFailure Answer} {pin : BudgetOutputToken}
    (h : pinOf answer = some pin) : answer = .ok (.pin pin) := by
  unfold pinOf at h
  split at h
  · rw [Option.some.inj h]
  · cases h

/-- A call that returns a token has filled a slot under its next epoch, and nothing else. -/
theorem step_token {faults : Faults} {l : Ledger} {op : Op} {token : BudgetToken}
    (h : (l.step faults op).1 = .ok (.token token)) :
    ∃ i slot row, token = tokenAt l.owner i (slot.epoch + 1) ∧
      l.image.slots[i]? = some slot ∧ slot.entry = none ∧
      (l.step faults op).2.image = l.image.set i { epoch := slot.epoch + 1, entry := some row } := by
  have hstep := stepped faults l op
  generalize l.step faults op = result at h hstep
  cases hstep with
  | still _ hquiet => exact absurd (hquiet _ h) id
  | failed => cases h
  | wrote _ new hvalid hwritten hwrite =>
      obtain rfl := Except.ok.inj h
      cases hwritten with
      | reserved index slot row hop hopen hslot hempty hrow hout =>
          exact ⟨index, slot, row, rfl, hslot, hempty, rfl⟩
      | restated index epoch row row' hop hnamed hslot hsame hout hquiet => exact absurd hquiet id

/-- A call that returns a pin has pinned the next output of a session. -/
theorem step_pin {faults : Faults} {l : Ledger} {op : Op} {pin : BudgetOutputToken}
    (h : (l.step faults op).1 = .ok (.pin pin)) :
    ∃ i e row row', pin = pinAt l.owner i e row' ∧ Holds l.image i e row ∧
      row'.outputEpoch = row.outputEpoch + 1 ∧ Holds (l.step faults op).2.image i e row' := by
  have hstep := stepped faults l op
  generalize l.step faults op = result at h hstep
  cases hstep with
  | still _ hquiet => exact absurd (hquiet _ h) id
  | failed => cases h
  | wrote _ new hvalid hwritten hwrite =>
      obtain rfl := Except.ok.inj h
      cases hwritten with
      | restated index epoch row row' hop hnamed hslot hsame hout hquiet => exact absurd hquiet id
      | pinned index epoch row row' frame overhead hslot hsame hfree hepoch hpinned =>
          exact ⟨index, epoch, row, row', rfl, hslot, hepoch, holds_set_self hslot⟩

/-- The tokens that a run issues are of later epochs than those of its first image. -/
theorem token_later {l : Ledger} {calls : List (Faults × Op)} {token : BudgetToken}
    (h : token ∈ (answersOf l calls).filterMap tokenOf) :
    ∃ i e slot, token = tokenAt l.owner i e ∧ l.image.slots[i]? = some slot ∧ slot.epoch < e := by
  induction calls generalizing l with
  | nil => cases h
  | cons call calls ih =>
      obtain ⟨faults, op⟩ := call
      obtain ⟨answer, hanswer, htoken⟩ := List.mem_filterMap.mp h
      rcases List.mem_cons.mp hanswer with rfl | hlater
      · obtain ⟨i, slot, row, rfl, hslot, -, -⟩ := step_token (tokenOf_eq_some htoken)
        exact ⟨i, _, slot, rfl, hslot, Nat.lt_succ_self _⟩
      · obtain ⟨i, e, slot', rfl, hslot', hlt⟩ :=
          ih (List.mem_filterMap.mpr ⟨answer, hlater, htoken⟩)
        obtain ⟨slot, hslot, hage⟩ := (aged_step faults l op).before hslot'
        rw [owner_step]
        exact ⟨i, e, slot, rfl, hslot, Nat.lt_of_le_of_lt hage.epoch hlt⟩

/-- **No two tokens of a run are of the same slot and epoch**, and the epochs of a slot grow. -/
theorem tokens_newer (l : Ledger) (calls : List (Faults × Op)) :
    ((answersOf l calls).filterMap tokenOf).Pairwise (Newer l.owner) := by
  induction calls generalizing l with
  | nil => exact .nil
  | cons call calls ih =>
      obtain ⟨faults, op⟩ := call
      have hrest := ih (l.step faults op).2
      rw [owner_step] at hrest
      rw [answersOf, List.filterMap_cons]
      split
      · exact hrest
      · rename_i first hfirst
        refine List.pairwise_cons.mpr ⟨fun token htoken => ?_, hrest⟩
        obtain ⟨i, slot, row, rfl, hslot, -, himage⟩ := step_token (tokenOf_eq_some hfirst)
        obtain ⟨j, e, slot', rfl, hslot', hlt⟩ := token_later htoken
        rw [owner_step]
        refine ⟨i, _, j, e, rfl, rfl, ?_⟩
        rintro rfl
        -- the slot has the epoch of the first token from then on
        rw [himage, Image.set, List.getElem?_set_self (List.getElem?_eq_some_iff.mp hslot).1] at hslot'
        rw [← Option.some.inj hslot'] at hlt
        exact hlt

/-- The pins that a run issues are of later outputs than those of its first image. -/
theorem pin_later {l : Ledger} {calls : List (Faults × Op)} {pin : BudgetOutputToken}
    (h : pin ∈ (answersOf l calls).filterMap pinOf) :
    ∃ i e row slot, pin = pinAt l.owner i e row ∧ l.image.slots[i]? = some slot ∧ slot.epoch ≤ e ∧
      (slot.epoch = e → ∃ row₀ ∈ slot.entry, row₀.outputEpoch < row.outputEpoch) := by
  induction calls generalizing l with
  | nil => cases h
  | cons call calls ih =>
      obtain ⟨faults, op⟩ := call
      obtain ⟨answer, hanswer, hpin⟩ := List.mem_filterMap.mp h
      rcases List.mem_cons.mp hanswer with rfl | hlater
      · obtain ⟨i, e, row, row', rfl, hslot, hnext, -⟩ := step_pin (pinOf_eq_some hpin)
        refine ⟨i, e, row', _, rfl, hslot, Nat.le_refl _, fun _ => ⟨row, rfl, ?_⟩⟩
        rw [hnext]
        exact Nat.lt_succ_self _
      · obtain ⟨i, e, row, slot', rfl, hslot', hle, hthere⟩ :=
          ih (List.mem_filterMap.mpr ⟨answer, hlater, hpin⟩)
        obtain ⟨slot, hslot, hage⟩ := (aged_step faults l op).before hslot'
        rw [owner_step]
        refine ⟨i, e, row, slot, rfl, hslot, Nat.le_trans hage.epoch hle, fun hsame => ?_⟩
        -- the session is the same one all along
        have hsame' : slot'.epoch = e := Nat.le_antisymm hle (hsame ▸ hage.epoch)
        obtain ⟨row₁, hrow₁, hlt⟩ := hthere hsame'
        obtain ⟨row₀, hrow₀, hle₀⟩ := hage.entry (hsame'.trans hsame.symm) row₁ hrow₁
        exact ⟨row₀, hrow₀, Nat.lt_of_le_of_lt hle₀ hlt⟩

/-- **No two pins of a run are of the same output**, though the outputs of every session are counted
from one again. -/
theorem pins_newer (l : Ledger) (calls : List (Faults × Op)) :
    ((answersOf l calls).filterMap pinOf).Pairwise (NewerPin l.owner) := by
  induction calls generalizing l with
  | nil => exact .nil
  | cons call calls ih =>
      obtain ⟨faults, op⟩ := call
      have hrest := ih (l.step faults op).2
      rw [owner_step] at hrest
      rw [answersOf, List.filterMap_cons]
      split
      · exact hrest
      · rename_i first hfirst
        refine List.pairwise_cons.mpr ⟨fun pin hpin => ?_, hrest⟩
        obtain ⟨i, e, -, row', rfl, -, -, hnow⟩ := step_pin (pinOf_eq_some hfirst)
        obtain ⟨j, e', row, slot, rfl, hslot, -, hthere⟩ := pin_later hpin
        rw [owner_step]
        refine ⟨i, e, row', j, e', row, rfl, rfl, ?_⟩
        rintro ⟨rfl, rfl⟩
        obtain rfl := Option.some.inj (hnow.symm.trans hslot)
        obtain ⟨row₀, hrow₀, hlt⟩ := hthere rfl
        rwa [← Option.some.inj hrow₀] at hlt

/-! ### Which slots a call changes -/

/-- What `publish` writes into is the image but for slots that its tokens name. -/
theorem slots_retires {l : Ledger} {tokens : List BudgetToken} {mid : Image} {i : Nat}
    (h : Retires l tokens mid) (hchanged : mid.slots[i]? ≠ l.image.slots[i]?) :
    ∃ e row, tokenAt l.owner i e ∈ tokens ∧ Holds l.image i e row := by
  rcases h with rfl | ⟨j, e, gen, hnamed, hgen, -, rfl⟩
  · exact absurd rfl hchanged
  · by_cases hi : i = j
    · subst hi
      exact ⟨e, gen, hnamed, hgen⟩
    · exact absurd (List.getElem?_set_ne (Ne.symm hi)) hchanged

/-- The slots that a call can change: an empty one where it admits a reservation, and otherwise those
that its tokens name. -/
def Touches (l : Ledger) (op : Op) (i : Nat) : Prop :=
  (admits op = true ∧ ∃ slot, l.image.slots[i]? = some slot ∧ slot.entry = none) ∨
    (admits op = false ∧ ∃ e row, tokenAt l.owner i e ∈ tokensOf op ∧ Holds l.image i e row)

theorem Written.touches {l : Ledger} {op : Op} {answer : Answer} {new : Image}
    (h : Written l op answer new) {i : Nat} (hchanged : new.slots[i]? ≠ l.image.slots[i]?) :
    Touches l op i := by
  -- the one slot that an overwriting changes
  have hindex : ∀ {image : Image} {index : Nat} {slot : Slot},
      (image.set index slot).slots[i]? ≠ image.slots[i]? → i = index := by
    intro image index slot hne
    by_contra hi
    exact hne (List.getElem?_set_ne (Ne.symm hi))
  cases h with
  | reserved index slot row hop hopen hslot hempty hrow hout =>
      obtain rfl := hindex hchanged
      exact Or.inl ⟨hop, slot, hslot, hempty⟩
  | restated index epoch row row' hop hnamed hslot hsame hout hquiet =>
      obtain rfl := hindex hchanged
      exact Or.inr ⟨hop, epoch, row, hnamed, hslot⟩
  | pinned index epoch row row' frame overhead hslot hsame hfree hepoch hpinned =>
      obtain rfl := hindex hchanged
      exact Or.inr ⟨rfl, epoch, row, by simp [tokensOf], hslot⟩
  | unpinned index epoch row row' drain hslot hsame hpinned hepoch hfree =>
      obtain rfl := hindex hchanged
      exact Or.inr ⟨rfl, epoch, row, by simp [tokensOf, pinAt], hslot⟩
  | published candidate replacing mid index epoch row hmid hnamed hslot hkind hlive =>
      refine Or.inr ⟨rfl, ?_⟩
      by_cases hmidChanged : mid.slots[i]? = l.image.slots[i]?
      · rw [← hmidChanged] at hchanged
        obtain rfl := hindex hchanged
        exact ⟨epoch, row, hnamed, hslot⟩
      · exact slots_retires hmid hmidChanged
  | released index epoch row confirmation hconfirmed hslot hstate hpin hfree =>
      obtain rfl := hindex hchanged
      exact Or.inr ⟨rfl, epoch, row, by simp [tokensOf], hslot⟩
  | closing | closed => exact absurd rfl hchanged

/-- **A call changes only what it names.** -/
theorem step_touches {faults : Faults} {l : Ledger} {op : Op} {i : Nat}
    (hchanged : (l.step faults op).2.image.slots[i]? ≠ l.image.slots[i]?) : Touches l op i := by
  have hstep := stepped faults l op
  generalize l.step faults op = result at hchanged hstep
  cases hstep with
  | still => exact absurd rfl hchanged
  | wrote answer new hvalid hwritten hwrite => exact hwritten.touches hchanged
  | failed answer new image hvalid hwritten himage hwrite hrestore =>
      rcases himage with rfl | rfl
      · exact absurd rfl hchanged
      · exact hwritten.touches hchanged

/-! ### Pins -/

/-- An output that is pinned after a publication was pinned before it, or is what was answered. -/
theorem Written.pin {l : Ledger} {op : Op} {answer : Answer} {new : Image}
    (h : Written l op answer new) {i e : Nat} {row' : ReservationView} (hslot' : Holds new i e row')
    (hpinned' : row'.outputPinned = true) :
    (∃ row, Holds l.image i e row ∧ SameOutput row row') ∨ answer = .pin (pinAt l.owner i e row') := by
  cases h with
  | reserved index slot row hop hopen hslot hempty hrow hout =>
      rcases holds_set hslot' with ⟨-, hnew⟩ | ⟨-, hold⟩
      · cases hnew
        rw [hout.2] at hpinned'
        cases hpinned'
      · exact Or.inl ⟨row', hold, ⟨rfl, rfl, rfl, rfl⟩⟩
  | restated index epoch row _ hop hnamed hslot hsame hout hquiet =>
      rcases holds_set hslot' with ⟨rfl, hnew⟩ | ⟨-, hold⟩
      · cases hnew
        exact Or.inl ⟨row, hslot, hout⟩
      · exact Or.inl ⟨row', hold, ⟨rfl, rfl, rfl, rfl⟩⟩
  | pinned index epoch row _ frame overhead hslot hsame hfree hepoch hpinned =>
      rcases holds_set hslot' with ⟨rfl, hnew⟩ | ⟨-, hold⟩
      · cases hnew
        exact Or.inr rfl
      · exact Or.inl ⟨row', hold, ⟨rfl, rfl, rfl, rfl⟩⟩
  | unpinned index epoch row _ drain hslot hsame hpinned hepoch hfree =>
      rcases holds_set hslot' with ⟨-, hnew⟩ | ⟨-, hold⟩
      · cases hnew
        rw [hfree] at hpinned'
        cases hpinned'
      · exact Or.inl ⟨row', hold, ⟨rfl, rfl, rfl, rfl⟩⟩
  | published candidate replacing mid index epoch row hmid hnamed hslot hkind hlive =>
      rcases holds_set hslot' with ⟨rfl, hnew⟩ | ⟨-, hold⟩
      · cases hnew
        exact Or.inl ⟨row, hslot, ⟨rfl, rfl, rfl, rfl⟩⟩
      · rcases hmid with rfl | ⟨j, e', gen, -, hgen, -, rfl⟩
        · exact Or.inl ⟨row', hold, ⟨rfl, rfl, rfl, rfl⟩⟩
        · rcases holds_set hold with ⟨rfl, hnew⟩ | ⟨-, hold⟩
          · cases hnew
            exact Or.inl ⟨gen, hgen, sameOutput_state gen _⟩
          · exact Or.inl ⟨row', hold, ⟨rfl, rfl, rfl, rfl⟩⟩
  | released index epoch row confirmation hconfirmed hslot hstate hpin hfree =>
      rcases holds_set hslot' with ⟨-, hnew⟩ | ⟨-, hold⟩
      · cases hnew
      · exact Or.inl ⟨row', hold, ⟨rfl, rfl, rfl, rfl⟩⟩
  | closing | closed => exact Or.inl ⟨row', hslot', ⟨rfl, rfl, rfl, rfl⟩⟩

/-- The pin of a row is that of its output. -/
theorem pinAt_congr {owner i e : Nat} {row row' : ReservationView} (h : SameOutput row row') :
    pinAt owner i e row' = pinAt owner i e row := by
  simp only [pinAt, h.epoch, h.frameBytes, h.overheadBytes]

/-- A failed ledger plans nothing. -/
theorem plan_failed {l : Ledger} (h : l.failure ≠ none) {op : Op} (hop : op ≠ .status) :
    l.plan op = .error .fault := by
  have hfailed : l.failure.isSome = true := Option.isSome_iff_ne_none.mpr h
  have husable : ∀ admission, l.usable admission = .error .fault := by
    intro admission
    rw [Ledger.usable, if_pos hfailed]
  cases op <;> first | exact absurd rfl hop | skip
  all_goals simp [Ledger.plan, Ledger.reserveCandidate, Ledger.reserveAuxiliary, Ledger.publish,
    Ledger.reserveSession, Ledger.markLive, Ledger.adoptSession, Ledger.beginDrain,
    Ledger.beginOutput, Ledger.endOutput, Ledger.retain, Ledger.release, Ledger.beginShutdown,
    Ledger.finishShutdown, husable, refuseIf, hfailed, bind, Except.bind, Except.map]

/-- A failed ledger refuses every call, and stays as it is. -/
theorem step_failed {l : Ledger} (h : l.failure ≠ none) (faults : Faults) (op : Op) :
    (l.step faults op).2 = l ∧ (op ≠ .status → (l.step faults op).1 = .error .fault) := by
  by_cases hop : op = .status
  · subst hop
    exact ⟨rfl, fun h => absurd rfl h⟩
  · rw [Ledger.step, plan_failed h hop]
    exact ⟨rfl, fun _ => rfl⟩

theorem run_failed {l : Ledger} (h : l.failure ≠ none) (calls : List (Faults × Op)) :
    l.run calls = l := by
  induction calls with
  | nil => rfl
  | cons call calls ih =>
      rw [Ledger.run, (step_failed h call.1 call.2).1]
      exact ih

/-- An output that is pinned was pinned before the run, or its pin was issued in the run. -/
theorem pin_issued {l : Ledger} {calls : List (Faults × Op)} {i e : Nat} {row' : ReservationView}
    (hok : (l.run calls).failure = none) (hslot : Holds (l.run calls).image i e row')
    (hpinned : row'.outputPinned = true) :
    (∃ row, Holds l.image i e row ∧ SameOutput row row') ∨
      pinAt l.owner i e row' ∈ (answersOf l calls).filterMap pinOf := by
  induction calls generalizing l with
  | nil => exact Or.inl ⟨row', hslot, ⟨rfl, rfl, rfl, rfl⟩⟩
  | cons call calls ih =>
      obtain ⟨faults, op⟩ := call
      rcases ih hok hslot with ⟨row₁, hslot₁, hsame₁⟩ | hissued
      · have hpinned₁ : row₁.outputPinned = true := hsame₁.pinned ▸ hpinned
        rw [answersOf, List.filterMap_cons]
        have hstep := stepped faults l op
        have hnotFailed : (l.step faults op).2.failure = none := by
          by_contra hfailed
          rw [Ledger.run, run_failed hfailed] at hok
          exact hfailed hok
        generalize l.step faults op = result at hstep hslot₁ hnotFailed
        cases hstep with
        | still => exact Or.inl ⟨row₁, hslot₁, hsame₁⟩
        | failed => cases hnotFailed
        | wrote answer new hvalid hwritten hwrite =>
            rcases hwritten.pin hslot₁ hpinned₁ with ⟨row, hslot, hsame⟩ | rfl
            · exact Or.inl ⟨row, hslot, ⟨hsame₁.epoch.trans hsame.epoch,
                hsame₁.pinned.trans hsame.pinned, hsame₁.frameBytes.trans hsame.frameBytes,
                hsame₁.overheadBytes.trans hsame.overheadBytes⟩⟩
            · refine Or.inr ?_
              simp only [pinOf]
              rw [pinAt_congr hsame₁]
              exact List.mem_cons_self
      · rw [owner_step] at hissued
        obtain ⟨answer, hanswer, hpin⟩ := List.mem_filterMap.mp hissued
        exact Or.inr (List.mem_filterMap.mpr ⟨answer, List.mem_cons_of_mem _ hanswer, hpin⟩)

/-- **A pin that is not the session's own** ends no output. -/
theorem step_foreign_pin {faults : Faults} {l : Ledger} {pin : BudgetOutputToken}
    {discarded drain : Option Bool} {i e : Nat} {row : ReservationView}
    (hslot : Holds l.image i e row) (hforeign : pin ≠ pinAt l.owner i e row) :
    ∃ row', Holds (l.step faults (.endOutput (some pin) discarded drain)).2.image i e row' ∧
      SameOutput row row' := by
  have hsame : SameOutput row row := ⟨rfl, rfl, rfl, rfl⟩
  -- what is published leaves the output of this session alone
  have hkept : ∀ {answer new}, Written l (.endOutput (some pin) discarded drain) answer new →
      ∃ row', Holds new i e row' ∧ SameOutput row row' := by
    intro answer new hwritten
    cases hwritten with
    | reserved index slot row hop => cases hop
    | restated index epoch old row' hop hnamed hold hsame' hout hquiet =>
        by_cases hi : i = index
        · subst hi
          obtain ⟨rfl, rfl⟩ := holds_unique hslot hold
          exact ⟨row', holds_set_self hold, hout⟩
        · exact ⟨row, holds_set_of_ne hslot hi, hsame⟩
    | unpinned index epoch old row' drain hold hsame' hpinned hepoch hfree =>
        by_cases hi : i = index
        · subst hi
          obtain ⟨rfl, rfl⟩ := holds_unique hslot hold
          exact absurd rfl hforeign
        · exact ⟨row, holds_set_of_ne hslot hi, hsame⟩
  have hstep := stepped faults l (.endOutput (some pin) discarded drain)
  generalize l.step faults (.endOutput (some pin) discarded drain) = result at hstep
  cases hstep with
  | still => exact ⟨row, hslot, hsame⟩
  | wrote answer new hvalid hwritten hwrite => exact hkept hwritten
  | failed answer new image hvalid hwritten himage hwrite hrestore =>
      rcases himage with rfl | rfl
      · exact ⟨row, hslot, hsame⟩
      · exact hkept hwritten

/-! ### Tokens that were released -/

/-- The reservation of this slot and epoch is gone for good. -/
def Spent (image : Image) (i e : Nat) : Prop :=
  ∃ slot, image.slots[i]? = some slot ∧ e ≤ slot.epoch ∧ (slot.epoch = e → slot.entry = none)

theorem Spent.aged {old new : Image} {i e : Nat} (h : Spent old i e) (hage : Aged old new) :
    Spent new i e := by
  obtain ⟨slot, hslot, hle, hgone⟩ := h
  obtain ⟨slot', hslot', hslotAge⟩ := hage.after hslot
  refine ⟨slot', hslot', Nat.le_trans hle hslotAge.epoch, fun hsame => ?_⟩
  have hsame' : slot.epoch = e := Nat.le_antisymm (hsame ▸ hslotAge.epoch) hle
  cases hentry : slot'.entry with
  | none => rfl
  | some row' =>
      obtain ⟨row, hrow, -⟩ := hslotAge.entry (hsame.trans hsame'.symm) row' hentry
      rw [hgone hsame'] at hrow
      cases hrow

/-- It is nowhere to be found. -/
theorem Spent.not_holds {image : Image} {i e : Nat} {row : ReservationView}
    (h : Spent image i e) : ¬ Holds image i e row := by
  intro hslot
  obtain ⟨slot, hfound, -, hgone⟩ := h
  obtain rfl := Option.some.inj (hslot.symm.trans hfound)
  cases hgone rfl

/-- A token that `_entry` takes names a reservation that is there. -/
theorem entry_named {l : Ledger} {token : Option BudgetToken} {i e index epoch : Nat}
    {row : ReservationView} (hnamed : tokenAt l.owner i e ∈ token.toList)
    (h : l.entry token = .ok (index, epoch, row)) : ∃ row, Holds l.image i e row := by
  obtain ⟨rfl, hholds⟩ := entry_ok h
  simp only [Option.toList_some, List.mem_singleton, tokenAt, BudgetToken.mk.injEq, true_and,
    Arg.int.injEq, Int.natCast_inj] at hnamed
  obtain ⟨rfl, rfl⟩ := hnamed
  exact ⟨row, hholds⟩

/-- **An operation that does not raise finds what its tokens name**, or is a release that comes
again. -/
theorem named_of_plan {l : Ledger} {op : Op} {answer : Answer} {image : Option Image} {i e : Nat}
    (hnamed : tokenAt l.owner i e ∈ tokensOf op) (h : l.plan op = .ok (answer, image)) :
    (∃ row, Holds l.image i e row) ∨ (answer = .release .alreadyReleased ∧ image = none) := by
  cases op <;> simp only [Ledger.plan, map_eq_ok, Prod.exists, Prod.map_apply, id_eq,
    Prod.mk.injEq] at h
  case reserveCandidate | reserveAuxiliary | beginShutdown | finishShutdown | status => cases hnamed
  all_goals obtain ⟨a, image', h, rfl, rfl⟩ := h
  case publish candidate replacing =>
    simp only [Ledger.publish, bind_eq_ok] at h
    obtain ⟨-, -, ⟨index, epoch, row⟩, hrow, -, -, mid, hmid, -⟩ := h
    rcases List.mem_append.mp hnamed with hcandidate | hreplacing
    · exact Or.inl (entry_named hcandidate hrow)
    · cases replacing with
      | none => cases hreplacing
      | some replacing =>
          simp only [Ledger.retired, bind_eq_ok] at hmid
          obtain ⟨⟨index', epoch', gen⟩, hgen, -⟩ := hmid
          exact Or.inl (entry_named hreplacing hgen)
  case reserveSession generation workerBytes parentBytes =>
    simp only [Ledger.reserveSession, bind_eq_ok] at h
    obtain ⟨-, -, ⟨index, epoch, row⟩, hrow, -⟩ := h
    exact Or.inl (entry_named hnamed hrow)
  case markLive token =>
    simp only [Ledger.markLive, bind_eq_ok] at h
    obtain ⟨-, -, ⟨index, epoch, row⟩, hrow, -⟩ := h
    exact Or.inl (entry_named hnamed hrow)
  case adoptSession token =>
    simp only [Ledger.adoptSession, bind_eq_ok] at h
    obtain ⟨-, -, ⟨index, epoch, row⟩, hrow, -⟩ := h
    exact Or.inl (entry_named hnamed hrow)
  case beginDrain token =>
    simp only [Ledger.beginDrain, bind_eq_ok] at h
    obtain ⟨-, -, ⟨index, epoch, row⟩, hrow, -⟩ := h
    exact Or.inl (entry_named hnamed hrow)
  case beginOutput token frame overhead =>
    simp only [Ledger.beginOutput, bind_eq_ok] at h
    obtain ⟨-, -, f, -, o, -, -, -, ⟨index, epoch, row⟩, hrow, -⟩ := h
    exact Or.inl (entry_named hnamed hrow)
  case endOutput pin discarded drain =>
    unfold Ledger.endOutput at h
    simp only [bind_eq_ok] at h
    obtain ⟨-, -, h⟩ := h
    split at h
    · simp only [bind_eq_ok] at h
      obtain ⟨k, -, f, -, o, -, ⟨index, epoch, row⟩, hrow, -⟩ := h
      exact Or.inl (entry_named hnamed hrow)
    · simp at h
  case retain token =>
    simp only [Ledger.retain, bind_eq_ok] at h
    obtain ⟨-, -, ⟨index, epoch, row⟩, hrow, -⟩ := h
    exact Or.inl (entry_named hnamed hrow)
  case release token confirmation =>
    simp only [Ledger.release, bind_eq_ok] at h
    obtain ⟨-, -, h⟩ := h
    split at h
    · simp at h
    · simp only [bind_eq_ok] at h
      obtain ⟨⟨index, slot⟩, hloc, h⟩ := h
      obtain ⟨rfl, hslot⟩ := locate_ok hloc
      simp only [tokensOf, Option.toList_some, List.mem_singleton, tokenAt, BudgetToken.mk.injEq,
        true_and, Arg.int.injEq, Int.natCast_inj] at hnamed
      obtain ⟨rfl, rfl⟩ := hnamed
      split at h
      · simp only [pure_eq_ok, Prod.mk.injEq] at h
        obtain ⟨rfl, rfl⟩ := h
        exact Or.inr ⟨rfl, rfl⟩
      · rename_i row hentry
        refine Or.inl ⟨row, ?_⟩
        unfold Holds
        rw [hslot, ← hentry]

/-- A call with the token of a reservation that is gone raises, or says so, and changes nothing. -/
theorem step_spent {faults : Faults} {l : Ledger} {op : Op} {i e : Nat}
    (h : Spent l.image i e) (hnamed : tokenAt l.owner i e ∈ tokensOf op) :
    (l.step faults op).2 = l ∧ ((∃ failure, (l.step faults op).1 = .error failure) ∨
      (l.step faults op).1 = .ok (.release .alreadyReleased)) := by
  unfold Ledger.step
  cases hplan : l.plan op with
  | error failure => exact ⟨rfl, Or.inl ⟨failure, rfl⟩⟩
  | ok out =>
      obtain ⟨answer, image⟩ := out
      rcases named_of_plan hnamed hplan with ⟨row, hslot⟩ | ⟨rfl, rfl⟩
      · exact absurd hslot h.not_holds
      · exact ⟨rfl, Or.inr rfl⟩

/-- A call that returns RELEASED has cleared the slot of its token. -/
theorem step_released {faults : Faults} {l : Ledger} {token : BudgetToken}
    {confirmation : Option CleanupConfirmation}
    (h : (l.step faults (.release (some token) confirmation)).1 = .ok (.release .released)) :
    ∃ i e, token = tokenAt l.owner i e ∧
      Spent (l.step faults (.release (some token) confirmation)).2.image i e := by
  have hstep := stepped faults l (.release (some token) confirmation)
  generalize l.step faults (.release (some token) confirmation) = result at h hstep
  cases hstep with
  | still _ hquiet => exact absurd (hquiet _ h) id
  | failed => cases h
  | wrote _ new hvalid hwritten hwrite =>
      obtain rfl := Except.ok.inj h
      cases hwritten with
      | restated index epoch row row' hop hnamed hslot hsame hout hquiet => exact absurd hquiet id
      | released index epoch row confirmation hconfirmed hslot hstate hpin hfree =>
          refine ⟨index, epoch, rfl, ⟨epoch, none⟩, ?_, Nat.le_refl _, fun _ => rfl⟩
          exact List.getElem?_set_self (List.getElem?_eq_some_iff.mp hslot).1

/-! ### Token safety -/

/-- What a ledger that has gone through some calls promises about its tokens. -/
structure TokenSafety (l₀ : Ledger) (calls : List (Faults × Op)) : Prop where
  /-- No two tokens are of the same slot and epoch, and the epochs of a slot grow. -/
  newer : ((answersOf l₀ calls).filterMap tokenOf).Pairwise (Newer l₀.owner)
  /-- A token that is issued names an empty slot that was filled under its next epoch. -/
  fills : ∀ faults op token, ((l₀.run calls).step faults op).1 = .ok (.token token) →
    ∃ i slot row, token = tokenAt l₀.owner i (slot.epoch + 1) ∧
      (l₀.run calls).image.slots[i]? = some slot ∧ slot.entry = none ∧
      ((l₀.run calls).step faults op).2.image =
        (l₀.run calls).image.set i { epoch := slot.epoch + 1, entry := some row }
  /-- After a release, every use of the token raises or says that it is released, and changes
  nothing. -/
  spent : ∀ faults token confirmation l,
    (l₀.run calls).step faults (.release (some token) confirmation) =
      (.ok (.release .released), l) →
    ∀ later faults' op, token ∈ tokensOf op →
      ((l.run later).step faults' op).2 = l.run later ∧
      ((∃ failure, ((l.run later).step faults' op).1 = .error failure) ∨
        ((l.run later).step faults' op).1 = .ok (.release .alreadyReleased))
  /-- A call changes only the slots that its tokens name, or the one that it fills. -/
  touches : ∀ faults op i,
    ((l₀.run calls).step faults op).2.image.slots[i]? ≠ (l₀.run calls).image.slots[i]? →
    Touches (l₀.run calls) op i
  /-- No two pins are of the same output of the same session. -/
  newerPins : ((answersOf l₀ calls).filterMap pinOf).Pairwise (NewerPin l₀.owner)
  /-- An output that is pinned has the pin that was issued for it. -/
  issued : (l₀.run calls).failure = none → ∀ i e row, Holds (l₀.run calls).image i e row →
    row.outputPinned = true → pinAt l₀.owner i e row ∈ (answersOf l₀ calls).filterMap pinOf
  /-- Any other pin leaves it alone. -/
  foreign : ∀ faults pin discarded drain i e row, Holds (l₀.run calls).image i e row →
    pin ≠ pinAt l₀.owner i e row →
    ∃ row', Holds ((l₀.run calls).step faults (.endOutput (some pin) discarded drain)).2.image i e
      row' ∧ SameOutput row row'

/-- A new ledger holds nothing. -/
theorem not_holds_init {owner : Nat} {limits : BudgetLimits} {datasources : List DatasourceCapacity}
    {l₀ : Ledger} (h₀ : Ledger.init owner limits datasources = .ok l₀) (i e : Nat)
    (row : ReservationView) : ¬ Holds l₀.image i e row := by
  simp only [Ledger.init, ite_else_error_eq_ok, Except.ok.injEq] at h₀
  obtain ⟨-, rfl⟩ := h₀
  intro hslot
  have hempty := List.eq_of_mem_replicate (List.mem_of_getElem? hslot)
  cases hempty

/-- **Tokens are safe over every run of a ledger.** -/
theorem token_safety {owner : Nat} {limits : BudgetLimits} {datasources : List DatasourceCapacity}
    {l₀ : Ledger} (h₀ : Ledger.init owner limits datasources = .ok l₀)
    (calls : List (Faults × Op)) : TokenSafety l₀ calls := by
  have howner : (l₀.run calls).owner = l₀.owner := (run_aged l₀ calls).1
  refine { newer := tokens_newer l₀ calls, fills := ?_, spent := ?_
           touches := fun _ _ _ hchanged => step_touches hchanged
           newerPins := pins_newer l₀ calls, issued := ?_, foreign := ?_ }
  · intro faults op token h
    rw [← howner]
    exact step_token h
  · intro faults token confirmation l hrelease later faults' op hnamed
    have hreleased := congrArg Prod.fst hrelease
    have hl : ((l₀.run calls).step faults (.release (some token) confirmation)).2 = l :=
      congrArg Prod.snd hrelease
    obtain ⟨i, e, rfl, hspent⟩ := step_released hreleased
    have hlowner : l.owner = (l₀.run calls).owner := hl ▸ owner_step ..
    rw [hl] at hspent
    -- the slot stays spent, whatever it holds by then
    obtain ⟨hrunOwner, hage⟩ := run_aged l later
    rw [← hlowner, ← hrunOwner] at hnamed
    exact step_spent (hspent.aged hage) hnamed
  · intro hok i e row hslot hpinned
    rcases pin_issued hok hslot hpinned with ⟨row₀, hslot₀, -⟩ | hissued
    · exact absurd hslot₀ (not_holds_init h₀ i e row₀)
    · exact hissued
  · intro faults pin discarded drain i e row hslot hforeign
    rw [← howner] at hforeign
    exact step_foreign_pin hslot hforeign

/-- The session of `drainingRun` pins an output, ends it and is released; its slot is filled again. -/
def recycledRun : List (Faults × Op) :=
  [({}, .reserveCandidate (.int 0) (.int 40)),
   ({}, .publish (some (tokenAt 7 0 1)) none),
   ({}, .reserveSession (some (tokenAt 7 0 1)) (.int 100) (.int 200)),
   ({}, .adoptSession (some (tokenAt 7 1 1))),
   ({}, .beginOutput (some (tokenAt 7 1 1)) (.int 50) (.int 10)),
   ({}, .endOutput (some ⟨some (tokenAt 7 1 1), .int 1, .int 50, .int 10⟩) (some true) (some true)),
   ({}, .release (some (tokenAt 7 1 1)) (some ⟨true, true, true, true, true⟩)),
   ({}, .reserveSession (some (tokenAt 7 0 1)) (.int 100) (.int 200))]

theorem token_safety_recycled :
    ∃ l₀, Ledger.init 7 smallLimits [oneDatasource] = .ok l₀ ∧
      (answersOf l₀ recycledRun).filterMap tokenOf =
        [tokenAt 7 0 1, tokenAt 7 1 1, tokenAt 7 1 2] ∧
      TokenSafety l₀ recycledRun := by
  have hinit : Ledger.init 7 smallLimits [oneDatasource] = .ok
      { limits := smallLimits, datasources := [oneDatasource], owner := 7,
        image := { slots := List.replicate 4 {} } } := rfl
  exact ⟨_, hinit, by decide, token_safety hinit recycledRun⟩

end MaskGateway.Proofs.Budget
