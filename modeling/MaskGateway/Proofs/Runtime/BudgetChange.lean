import MaskGateway.Runtime.Budget

/-!
# `MaskGateway.Proofs.Runtime.BudgetChange`: what an operation can do to the ledger's image

`Change` says once what a public operation can do to a published image: fill an empty slot
under the next epoch, rewrite a reservation in place, turn a candidate into the LIVE generation
(and retire the one it replaces), clear a slot, or raise a shutdown flag. The invariants of
`BudgetInvariant.lean` are proved about `Change` and never unfold an operation.

`Written` says the same with the operation, its tokens and its answer. `written_of_plan` unfolds
every operation once, guards included, and `change_of_plan` follows from it.
-/

set_option autoImplicit false

namespace MaskGateway.Proofs.Budget

open MaskGateway.Lib
open MaskGateway.Runtime.Budget

/-! ### Slots -/

/-- The slot `i` holds `row` under `epoch`. -/
def Holds (image : Image) (i epoch : Nat) (row : ReservationView) : Prop :=
  image.slots[i]? = some { epoch, entry := some row }

/-- What the image holds after slot `index` was overwritten: the new entry there, the old ones
elsewhere. -/
theorem holds_set {image : Image} {index i epoch : Nat} {slot : Slot} {row : ReservationView}
    (h : Holds (image.set index slot) i epoch row) :
    (i = index ∧ slot = { epoch, entry := some row }) ∨ (i ≠ index ∧ Holds image i epoch row) := by
  unfold Holds Image.set at h
  rw [List.getElem?_set] at h
  by_cases hi : index = i
  · subst hi
    rw [if_pos rfl] at h
    split at h
    · exact Or.inl ⟨rfl, Option.some.inj h⟩
    · cases h
  · rw [if_neg hi] at h
    exact Or.inr ⟨Ne.symm hi, h⟩

/-- A slot other than the overwritten one keeps what it holds. -/
theorem holds_set_of_ne {image : Image} {index i epoch : Nat} {slot : Slot}
    {row : ReservationView} (h : Holds image i epoch row) (hi : i ≠ index) :
    Holds (image.set index slot) i epoch row := by
  unfold Holds Image.set
  rw [List.getElem?_set_ne (Ne.symm hi)]
  exact h

/-- The overwritten slot holds the new entry, when the slot exists. -/
theorem holds_set_self {image : Image} {index epoch epoch' : Nat}
    {row row' : ReservationView} (h : Holds image index epoch row) :
    Holds (image.set index { epoch := epoch', entry := some row' }) index epoch' row' := by
  unfold Holds Image.set
  have hlt : index < image.slots.length := (List.getElem?_eq_some_iff.mp h).1
  rw [List.getElem?_set_self hlt]

/-- Two reservations held by the same slot are the same. -/
theorem holds_unique {image : Image} {i e e' : Nat} {row row' : ReservationView}
    (h : Holds image i e row) (h' : Holds image i e' row') : e = e' ∧ row = row' := by
  have := h.symm.trans h'
  simpa using this

/-! ### What an operation can do to an image -/

/-- A rewrite of a reservation in place: the same reservation, and LIVE only if it was LIVE or
RESERVED before. -/
structure SameReservation (row row' : ReservationView) : Prop where
  kind : row'.kind = row.kind
  datasource : row'.datasource = row.datasource
  generationSlot : row'.generationSlot = row.generationSlot
  generationEpoch : row'.generationEpoch = row.generationEpoch
  live : row'.state = .live → row.state = .live ∨ row.state = .reserved
  reserved : row'.state = .reserved → row.state = .reserved

/-- A reservation that enters the ledger: never a generation, and a session only together with
the LIVE generation it names. -/
structure Admissible (image : Image) (row : ReservationView) : Prop where
  kind : row.kind ≠ .generation
  refers : row.kind = .session → ∃ g grow, row.generationSlot = some g ∧
    Holds image g row.generationEpoch grow ∧ grow.kind = .generation ∧
    grow.datasource = row.datasource

/-- What one operation can do to the published image. -/
inductive Change (old : Image) : Image → Prop where
  /-- A reservation enters an empty slot under the slot's next epoch. -/
  | reserve (index : Nat) (slot : Slot) (row : ReservationView)
      (hslot : old.slots[index]? = some slot) (hempty : slot.entry = none)
      (hrow : Admissible old row) :
      Change old (old.set index { epoch := slot.epoch + 1, entry := some row })
  /-- A reservation is rewritten in place. -/
  | update (index epoch : Nat) (row row' : ReservationView)
      (hslot : Holds old index epoch row) (hsame : SameReservation row row') :
      Change old (old.replace index epoch (some row'))
  /-- A candidate becomes the LIVE generation of its datasource, and no other is LIVE in the
  image it is written into. -/
  | publish (mid : Image) (index epoch : Nat) (row : ReservationView)
      (hmid : mid = old ∨ ∃ i e gen, Holds old i e gen ∧ gen.kind = .generation ∧
        mid = old.replace i e (some { gen with state := .draining }))
      (hslot : Holds old index epoch row) (hkind : row.kind = .candidate)
      (hlive : ∀ i e gen, Holds mid i e gen → gen.kind = .generation →
        gen.datasource = row.datasource → gen.state ≠ .live) :
      Change old (mid.replace index epoch
        (some { row with kind := .generation, state := .live }))
  /-- A drained reservation leaves; a generation only when no session names it. -/
  | release (index epoch : Nat) (row : ReservationView) (hslot : Holds old index epoch row)
      (hstate : row.state = .draining ∨ row.state = .held) (hpin : row.outputPinned = false)
      (hfree : row.kind = .generation → ∀ i e session, Holds old i e session →
        session.kind = .session → session.generationSlot = some index →
        session.generationEpoch ≠ epoch) :
      Change old (old.replace index epoch none)
  /-- A shutdown flag changes. -/
  | flags (closing closed : Bool) :
      Change old { old with closing := closing, closed := closed }

/-! ### What an operation is given, and what it answers -/

/-- The token of a slot under an epoch. -/
def tokenAt (owner index epoch : Nat) : BudgetToken :=
  { owner, slot := .int index, epoch := .int epoch }

/-- The pin of the output that a session has. -/
def pinAt (owner index epoch : Nat) (row : ReservationView) : BudgetOutputToken :=
  { session := some (tokenAt owner index epoch), epoch := .int row.outputEpoch
    frameBytes := .int row.outputFrameBytes, overheadBytes := .int row.outputOverheadBytes }

/-- The tokens that an operation is given. -/
def tokensOf : Op → List BudgetToken
  | .publish candidate replacing => candidate.toList ++ replacing.join.toList
  | .reserveSession token _ _ | .beginOutput token _ _ | .release token _ | .markLive token
  | .adoptSession token | .beginDrain token | .retain token => token.toList
  | .endOutput pin _ _ => (pin.bind BudgetOutputToken.session).toList
  | _ => []

/-- The operation fills a slot. -/
def admits : Op → Bool
  | .reserveCandidate .. | .reserveAuxiliary .. | .reserveSession .. => true
  | _ => false

/-- The answer says nothing of a new token or pin, nor that one is gone. -/
def Quiet : Answer → Prop
  | .token _ | .pin _ | .output .cleared | .release .released => False
  | _ => True

/-- Both reservations have the same output. -/
structure SameOutput (row row' : ReservationView) : Prop where
  epoch : row'.outputEpoch = row.outputEpoch
  pinned : row'.outputPinned = row.outputPinned
  frameBytes : row'.outputFrameBytes = row.outputFrameBytes
  overheadBytes : row'.outputOverheadBytes = row.outputOverheadBytes

/-- No session names the generation of this slot and epoch. -/
def Unreferenced (image : Image) (index epoch : Nat) : Prop :=
  ∀ i e session, Holds image i e session → session.kind = .session →
    session.generationSlot = some index → session.generationEpoch ≠ epoch

/-- The image into which `publish` writes: the current one, or the one with the generation that is
replaced draining. -/
def Retires (l : Ledger) (tokens : List BudgetToken) (mid : Image) : Prop :=
  mid = l.image ∨ ∃ i e gen, tokenAt l.owner i e ∈ tokens ∧ Holds l.image i e gen ∧
    gen.kind = .generation ∧ mid = l.image.replace i e (some { gen with state := .draining })

/-- What an operation publishes, with what it answers. -/
inductive Written (l : Ledger) : Op → Answer → Image → Prop
  | reserved {op : Op} (index : Nat) (slot : Slot) (row : ReservationView)
      (hop : admits op = true) (hopen : l.image.closing = false)
      (hslot : l.image.slots[index]? = some slot) (hempty : slot.entry = none)
      (hrow : Admissible l.image row) (hout : row.outputEpoch = 0 ∧ row.outputPinned = false) :
      Written l op (.token (tokenAt l.owner index (slot.epoch + 1)))
        (l.image.set index { epoch := slot.epoch + 1, entry := some row })
  | restated {op : Op} {answer : Answer} (index epoch : Nat) (row row' : ReservationView)
      (hop : admits op = false) (hnamed : tokenAt l.owner index epoch ∈ tokensOf op)
      (hslot : Holds l.image index epoch row)
      (hsame : SameReservation row row') (hout : SameOutput row row') (hquiet : Quiet answer) :
      Written l op answer (l.image.replace index epoch (some row'))
  | pinned (index epoch : Nat) (row row' : ReservationView) (frame overhead : Arg)
      (hslot : Holds l.image index epoch row) (hsame : SameReservation row row')
      (hfree : row.outputPinned = false) (hepoch : row'.outputEpoch = row.outputEpoch + 1)
      (hpinned : row'.outputPinned = true) :
      Written l (.beginOutput (some (tokenAt l.owner index epoch)) frame overhead)
        (.pin (pinAt l.owner index epoch row')) (l.image.replace index epoch (some row'))
  | unpinned (index epoch : Nat) (row row' : ReservationView) (drain : Bool)
      (hslot : Holds l.image index epoch row) (hsame : SameReservation row row')
      (hpinned : row.outputPinned = true) (hepoch : row'.outputEpoch = row.outputEpoch)
      (hfree : row'.outputPinned = false) :
      Written l (.endOutput (some (pinAt l.owner index epoch row)) (some true) (some drain))
        (.output .cleared) (l.image.replace index epoch (some row'))
  | published (candidate : Option BudgetToken) (replacing : Option (Option BudgetToken))
      (mid : Image) (index epoch : Nat) (row : ReservationView)
      (hmid : Retires l (tokensOf (.publish candidate replacing)) mid)
      (hnamed : tokenAt l.owner index epoch ∈ tokensOf (.publish candidate replacing))
      (hslot : Holds l.image index epoch row) (hkind : row.kind = .candidate)
      (hlive : ∀ i e gen, Holds mid i e gen → gen.kind = .generation →
        gen.datasource = row.datasource → gen.state ≠ .live) :
      Written l (.publish candidate replacing) .unit (mid.replace index epoch
        (some { row with kind := .generation, state := .live }))
  | released (index epoch : Nat) (row : ReservationView) (confirmation : CleanupConfirmation)
      (hconfirmed : confirmation.complete = true) (hslot : Holds l.image index epoch row)
      (hstate : row.state = .draining ∨ row.state = .held) (hpin : row.outputPinned = false)
      (hfree : row.kind = .generation → Unreferenced l.image index epoch) :
      Written l (.release (some (tokenAt l.owner index epoch)) (some confirmation))
        (.release .released) (l.image.replace index epoch none)
  | closing (hopen : l.image.closing = false) :
      Written l .beginShutdown .unit { l.image with closing := true }
  | closed (hclosing : l.image.closing = true) (hopen : l.image.closed = false)
      (hempty : ∀ i e row, ¬ Holds l.image i e row) :
      Written l .finishShutdown .unit { l.image with closed := true }

/-- What is published is a change of the image. -/
theorem Written.change {l : Ledger} {op : Op} {answer : Answer} {new : Image}
    (h : Written l op answer new) : Change l.image new := by
  cases h with
  | reserved index slot row hop hopen hslot hempty hrow hout =>
      exact .reserve index slot row hslot hempty hrow
  | restated index epoch row row' hop hnamed hslot hsame hout hquiet =>
      exact .update index epoch row row' hslot hsame
  | pinned index epoch row row' frame overhead hslot hsame hfree hepoch hpinned =>
      exact .update index epoch row row' hslot hsame
  | unpinned index epoch row row' drain hslot hsame hpinned hepoch hfree =>
      exact .update index epoch row row' hslot hsame
  | published candidate replacing mid index epoch row hmid hnamed hslot hkind hlive =>
      refine .publish mid index epoch row ?_ hslot hkind hlive
      rcases hmid with hsame | ⟨i, e, gen, -, hgen, hgk, hmid⟩
      · exact Or.inl hsame
      · exact Or.inr ⟨i, e, gen, hgen, hgk, hmid⟩
  | released index epoch row confirmation hconfirmed hslot hstate hpin hfree =>
      exact .release index epoch row hslot hstate hpin hfree
  | closing => exact .flags true l.image.closed
  | closed => exact .flags l.image.closing true

/-! ### Every operation, unfolded once -/

/-- An argument that passes `_number` is the number. -/
theorem number_ok {value : Arg} {minimum maximum n : Nat}
    (h : number value minimum maximum = .ok n) : value = .int n := by
  cases value with
  | other => cases h
  | int m =>
      simp only [number, ite_else_error_eq_ok, Except.ok.injEq] at h
      obtain ⟨⟨hmin, -⟩, rfl⟩ := h
      rw [Int.toNat_of_nonneg (by omega)]

/-- `_locate` returns the slot that the token names. -/
theorem locate_ok {l : Ledger} {token : Option BudgetToken} {empty : Bool} {index : Nat}
    {slot : Slot} (h : l.locate token empty = .ok (index, slot)) :
    token = some (tokenAt l.owner index slot.epoch) ∧ l.image.slots[index]? = some slot := by
  cases token with
  | none => simp [Ledger.locate] at h
  | some token =>
      simp only [Ledger.locate, bind_eq_ok, refuseIf_eq_ok, not_not] at h
      obtain ⟨-, howner, i, hi, epoch, hepoch, h⟩ := h
      split at h
      · simp at h
      · rename_i found hfound
        simp only [bind_eq_ok, refuseIf_eq_ok, pure_eq_ok, Prod.mk.injEq, not_or, not_not] at h
        obtain ⟨-, ⟨hsame, -⟩, rfl, rfl⟩ := h
        refine ⟨?_, hfound⟩
        obtain ⟨owner, slot, tokenEpoch⟩ := token
        simp only at howner hi hepoch
        rw [tokenAt, howner, number_ok hi, number_ok hepoch, hsame]

/-- `_entry` returns the reservation that the token names. -/
theorem entry_ok {l : Ledger} {token : Option BudgetToken} {index epoch : Nat}
    {row : ReservationView} (h : l.entry token = .ok (index, epoch, row)) :
    token = some (tokenAt l.owner index epoch) ∧ Holds l.image index epoch row := by
  simp only [Ledger.entry, bind_eq_ok] at h
  obtain ⟨⟨i, slot⟩, hloc, h⟩ := h
  obtain ⟨htoken, hslot⟩ := locate_ok hloc
  cases hentry : slot.entry with
  | none => simp [hentry] at h
  | some found =>
      simp only [hentry, pure_eq_ok, Prod.mk.injEq] at h
      obtain ⟨rfl, rfl, rfl⟩ := h
      refine ⟨htoken, ?_⟩
      unfold Holds
      rw [hslot, ← hentry]

/-- What a plan comes to: nothing to publish and a quiet answer, or what `Written` allows. -/
def Planned (l : Ledger) (op : Op) (answer : Answer) : Option Image → Prop
  | none => Quiet answer
  | some new => Written l op answer new

/-- A successful `_reserve` fills an empty slot. -/
theorem planned_reserve {l : Ledger} {op : Op} {row : ReservationView} {token : BudgetToken}
    {image : Option Image} (hop : admits op = true) (hopen : l.image.closing = false)
    (hrow : Admissible l.image row) (hout : row.outputEpoch = 0 ∧ row.outputPinned = false)
    (h : l.reserve row = .ok (token, image)) : Planned l op (.token token) image := by
  unfold Ledger.reserve at h
  split at h
  · cases h
  · rename_i index hfind
    split at h
    · cases h
    · rename_i slot hslot
      simp only [Except.ok.injEq, Prod.mk.injEq] at h
      obtain ⟨rfl, rfl⟩ := h
      have hempty : slot.entry = none := by
        obtain ⟨hlt, hfound, -⟩ := List.findIdx?_eq_some_iff_getElem.mp hfind
        have hget : l.image.slots[index] = slot := by
          rw [List.getElem?_eq_getElem hlt] at hslot
          exact Option.some.inj hslot
        rw [hget] at hfound
        simp only [Bool.and_eq_true, Option.isNone_iff_eq_none] at hfound
        exact hfound.1
      exact .reserved index slot row hop hopen hslot hempty hrow hout

/-- Admission is over once the ledger closes. -/
theorem usable_ok {l : Ledger} {admission : Bool} {u : Unit} (h : l.usable admission = .ok u) :
    l.failure = none ∧ l.image.closed = false ∧
      (admission = true → l.image.closing = false) := by
  unfold Ledger.usable at h
  split at h
  · cases h
  · rename_i hfailure
    split at h
    · cases h
    · rename_i hclosed
      cases admission <;> simp_all

theorem planned_reserveCandidate {l : Ledger} {datasource sharedBytes : Arg} {token : BudgetToken}
    {image : Option Image} (h : l.reserveCandidate datasource sharedBytes = .ok (token, image)) :
    Planned l (.reserveCandidate datasource sharedBytes) (.token token) image := by
  simp only [Ledger.reserveCandidate, bind_eq_ok] at h
  obtain ⟨_, husable, d, -, s, -, h⟩ := h
  exact planned_reserve rfl ((usable_ok husable).2.2 rfl) ⟨by simp, by simp⟩ ⟨rfl, rfl⟩ h

theorem planned_reserveAuxiliary {l : Ledger} {sharedBytes : Arg} {token : BudgetToken}
    {image : Option Image} (h : l.reserveAuxiliary sharedBytes = .ok (token, image)) :
    Planned l (.reserveAuxiliary sharedBytes) (.token token) image := by
  simp only [Ledger.reserveAuxiliary, bind_eq_ok] at h
  obtain ⟨_, husable, s, -, h⟩ := h
  exact planned_reserve rfl ((usable_ok husable).2.2 rfl) ⟨by simp, by simp⟩ ⟨rfl, rfl⟩ h

theorem planned_reserveSession {l : Ledger} {generation : Option BudgetToken}
    {workerBytes parentBytes : Arg} {token : BudgetToken} {image : Option Image}
    (h : l.reserveSession generation workerBytes parentBytes = .ok (token, image)) :
    Planned l (.reserveSession generation workerBytes parentBytes) (.token token) image := by
  simp only [Ledger.reserveSession, bind_eq_ok, refuseIf_eq_ok] at h
  obtain ⟨_, husable, ⟨index, epoch, row⟩, hrow, -, hlive, w, -, p, -, h⟩ := h
  simp only [not_or, not_not] at hlive
  have hadm : Admissible l.image
      { kind := .session, state := .reserved, datasource := row.datasource,
        generationSlot := some index, generationEpoch := epoch, workerBytes := w,
        parentBytes := p } :=
    ⟨by simp, fun _ => ⟨index, row, rfl, (entry_ok hrow).2, hlive.1, rfl⟩⟩
  exact planned_reserve rfl ((usable_ok husable).2.2 rfl) hadm ⟨rfl, rfl⟩ h

/-- The image `publish` writes into is the current one, or the one with the replaced
generation draining. -/
theorem retired_ok {l : Ledger} {row : ReservationView} {candidate : Option BudgetToken}
    {replacing : Option (Option BudgetToken)} {mid : Image}
    (h : l.retired row replacing = .ok mid) :
    Retires l (tokensOf (.publish candidate replacing)) mid := by
  cases replacing with
  | none =>
      simp only [Ledger.retired, Except.ok.injEq] at h
      exact Or.inl h.symm
  | some replacing =>
      simp only [Ledger.retired, bind_eq_ok, refuseIf_eq_ok, pure_eq_ok] at h
      obtain ⟨⟨i, e, gen⟩, hgen, -, hok, rfl⟩ := h
      simp only [not_or, not_not] at hok
      obtain ⟨rfl, hholds⟩ := entry_ok hgen
      exact Or.inr ⟨i, e, gen, by simp [tokensOf], hholds, hok.1, rfl⟩

theorem planned_publish {l : Ledger} {candidate : Option BudgetToken}
    {replacing : Option (Option BudgetToken)} {answer : Unit} {image : Option Image}
    (h : l.publish candidate replacing = .ok (answer, image)) :
    Planned l (.publish candidate replacing) .unit image := by
  simp only [Ledger.publish, bind_eq_ok, refuseIf_eq_ok, pure_eq_ok, Prod.mk.injEq] at h
  obtain ⟨-, -, ⟨index, epoch, row⟩, hrow, -, hkind, mid, hmid, -, hlive, -, rfl⟩ := h
  simp only [not_or, not_not] at hkind
  obtain ⟨rfl, hholds⟩ := entry_ok hrow
  refine .published _ replacing mid index epoch row (retired_ok hmid) (by simp [tokensOf]) hholds
    hkind.1 ?_
  intro i e gen hgen hgk hgd hgs
  -- the `any` test of `publish` would have found this generation
  apply hlive
  rw [List.any_eq_true]
  exact ⟨_, List.mem_of_getElem? hgen, by simp [Slot.liveGeneration, hgk, hgd, hgs]⟩

/-- A rewrite of the state alone keeps the output. -/
theorem sameOutput_state (row : ReservationView) (state : ReservationState) :
    SameOutput row { row with state := state } := ⟨rfl, rfl, rfl, rfl⟩

theorem planned_markLive {l : Ledger} {token : Option BudgetToken} {answer : Unit}
    {image : Option Image} (h : l.markLive token = .ok (answer, image)) :
    Planned l (.markLive token) .unit image := by
  simp only [Ledger.markLive, bind_eq_ok, refuseIf_eq_ok, pure_eq_ok, Prod.mk.injEq] at h
  obtain ⟨-, -, ⟨index, epoch, row⟩, hrow, -, hstate, -, rfl⟩ := h
  simp only [not_not] at hstate
  obtain ⟨rfl, hholds⟩ := entry_ok hrow
  exact .restated index epoch row _ rfl (by simp [tokensOf]) hholds
    ⟨rfl, rfl, rfl, rfl, fun _ => Or.inr hstate, by simp⟩ (sameOutput_state row _) trivial

theorem planned_adoptSession {l : Ledger} {token : Option BudgetToken} {answer : Unit}
    {image : Option Image} (h : l.adoptSession token = .ok (answer, image)) :
    Planned l (.adoptSession token) .unit image := by
  simp only [Ledger.adoptSession, bind_eq_ok, refuseIf_eq_ok, pure_eq_ok, Prod.mk.injEq] at h
  obtain ⟨-, -, ⟨index, epoch, row⟩, hrow, -, hstate, -, rfl⟩ := h
  simp only [not_or, not_not] at hstate
  obtain ⟨rfl, hholds⟩ := entry_ok hrow
  exact .restated index epoch row _ rfl (by simp [tokensOf]) hholds
    ⟨rfl, rfl, rfl, rfl, fun _ => Or.inr hstate.2, by simp⟩ (sameOutput_state row _) trivial

theorem planned_beginDrain {l : Ledger} {token : Option BudgetToken} {answer : Unit}
    {image : Option Image} (h : l.beginDrain token = .ok (answer, image)) :
    Planned l (.beginDrain token) .unit image := by
  simp only [Ledger.beginDrain, bind_eq_ok] at h
  obtain ⟨-, -, ⟨index, epoch, row⟩, hrow, h⟩ := h
  obtain ⟨rfl, hholds⟩ := entry_ok hrow
  split at h
  · simp only [pure_eq_ok, Prod.mk.injEq] at h
    obtain ⟨-, rfl⟩ := h
    exact .restated index epoch row _ rfl (by simp [tokensOf]) hholds
      ⟨rfl, rfl, rfl, rfl, by simp, by simp⟩ (sameOutput_state row _) trivial
  · simp only [pure_eq_ok, Prod.mk.injEq] at h
    obtain ⟨-, rfl⟩ := h
    trivial

theorem planned_retain {l : Ledger} {token : Option BudgetToken} {answer : Unit}
    {image : Option Image} (h : l.retain token = .ok (answer, image)) :
    Planned l (.retain token) .unit image := by
  simp only [Ledger.retain, bind_eq_ok] at h
  obtain ⟨-, -, ⟨index, epoch, row⟩, hrow, h⟩ := h
  obtain ⟨rfl, hholds⟩ := entry_ok hrow
  split at h
  · simp only [pure_eq_ok, Prod.mk.injEq] at h
    obtain ⟨-, rfl⟩ := h
    exact .restated index epoch row _ rfl (by simp [tokensOf]) hholds
      ⟨rfl, rfl, rfl, rfl, by simp, by simp⟩ (sameOutput_state row _) trivial
  · simp only [pure_eq_ok, Prod.mk.injEq] at h
    obtain ⟨-, rfl⟩ := h
    trivial

theorem planned_beginOutput {l : Ledger} {session : Option BudgetToken}
    {frameBytes overheadBytes : Arg} {pin : BudgetOutputToken} {image : Option Image}
    (h : l.beginOutput session frameBytes overheadBytes = .ok (pin, image)) :
    Planned l (.beginOutput session frameBytes overheadBytes) (.pin pin) image := by
  simp only [Ledger.beginOutput, bind_eq_ok, refuseIf_eq_ok, pure_eq_ok, Prod.mk.injEq] at h
  obtain ⟨-, -, f, hf, o, ho, -, -, ⟨index, epoch, row⟩, hrow, -, hfree, -, -, rfl, rfl⟩ := h
  obtain ⟨rfl, hholds⟩ := entry_ok hrow
  simp only [not_or, not_not, Bool.not_eq_true] at hfree
  rw [number_ok hf, number_ok ho]
  exact .pinned index epoch row { row with
      outputEpoch := row.outputEpoch + 1, outputPinned := true, outputFrameBytes := f
      outputOverheadBytes := o } (.int f) (.int o) hholds
    ⟨rfl, rfl, rfl, rfl, Or.inl, id⟩ hfree.2.2 rfl rfl

/-- Ending an output drains the session or leaves its state. -/
theorem same_drainedState (row : ReservationView) (drain : Bool) {row' : ReservationView}
    (hk : row'.kind = row.kind) (hd : row'.datasource = row.datasource)
    (hg : row'.generationSlot = row.generationSlot)
    (he : row'.generationEpoch = row.generationEpoch)
    (hs : row'.state = drainedState row drain) : SameReservation row row' := by
  refine ⟨hk, hd, hg, he, ?_, ?_⟩ <;> intro h <;> rw [hs] at h <;> unfold drainedState at h
  · split at h
    · cases h
    · exact Or.inl h
  · split at h
    · cases h
    · exact h

theorem planned_endOutput {l : Ledger} {pin : Option BudgetOutputToken}
    {discarded drain : Option Bool} {outcome : OutputReleaseOutcome} {image : Option Image}
    (h : l.endOutput pin discarded drain = .ok (outcome, image)) :
    Planned l (.endOutput pin discarded drain) (.output outcome) image := by
  unfold Ledger.endOutput at h
  simp only [bind_eq_ok] at h
  obtain ⟨-, -, h⟩ := h
  split at h
  · rename_i pin discarded drain
    simp only [bind_eq_ok, refuseIf_eq_ok, not_or, not_not] at h
    obtain ⟨pinEpoch, hp, f, hf, o, ho, ⟨index, epoch, row⟩, hrow, -, ⟨-, hepoch⟩, h⟩ := h
    obtain ⟨hsession, hholds⟩ := entry_ok hrow
    have hnamed : tokenAt l.owner index epoch ∈
        tokensOf (.endOutput (some pin) (some discarded) (some drain)) := by
      simp [tokensOf, hsession]
    split at h
    · simp only [pure_eq_ok, Prod.mk.injEq] at h
      obtain ⟨rfl, rfl⟩ := h
      trivial
    · rename_i hpinned
      rw [Bool.not_eq_false] at hpinned
      simp only [bind_eq_ok, refuseIf_eq_ok, not_or, not_not] at h
      obtain ⟨-, ⟨hframe, hoverhead⟩, h⟩ := h
      split at h
      · rename_i hdiscarded
        simp only [pure_eq_ok, Prod.mk.injEq] at h
        obtain ⟨rfl, rfl⟩ := h
        have hpin : pin = pinAt l.owner index epoch row := by
          obtain ⟨session, pinArg, frameArg, overheadArg⟩ := pin
          simp only at hsession hp hf ho
          rw [pinAt, hsession, number_ok hp, number_ok hf, number_ok ho, hepoch, hframe, hoverhead]
        rw [hpin, hdiscarded]
        exact .unpinned index epoch row _ drain hholds (same_drainedState row drain rfl rfl rfl rfl rfl)
          hpinned rfl rfl
      · split at h
        · simp only [pure_eq_ok, Prod.mk.injEq] at h
          obtain ⟨rfl, rfl⟩ := h
          exact .restated index epoch row _ rfl hnamed hholds
            (same_drainedState row drain rfl rfl rfl rfl rfl) (sameOutput_state row _) trivial
        · simp only [pure_eq_ok, Prod.mk.injEq] at h
          obtain ⟨rfl, rfl⟩ := h
          trivial
  · simp at h

theorem planned_release {l : Ledger} {token : Option BudgetToken}
    {confirmation : Option CleanupConfirmation} {outcome : ReleaseOutcome} {image : Option Image}
    (h : l.release token confirmation = .ok (outcome, image)) :
    Planned l (.release token confirmation) (.release outcome) image := by
  simp only [Ledger.release, bind_eq_ok] at h
  obtain ⟨-, -, h⟩ := h
  split at h
  · simp at h
  · rename_i confirmation
    simp only [bind_eq_ok] at h
    obtain ⟨⟨index, slot⟩, hloc, h⟩ := h
    obtain ⟨rfl, hslot⟩ := locate_ok hloc
    split at h
    · simp only [pure_eq_ok, Prod.mk.injEq] at h
      obtain ⟨rfl, rfl⟩ := h
      trivial
    · rename_i row hentry
      have hholds : Holds l.image index slot.epoch row := by
        unfold Holds
        rw [hslot, ← hentry]
      simp only [bind_eq_ok, refuseIf_eq_ok] at h
      obtain ⟨-, hstate, h⟩ := h
      split at h
      · split at h
        · simp only [pure_eq_ok, Prod.mk.injEq] at h
          obtain ⟨rfl, rfl⟩ := h
          exact .restated index slot.epoch row _ rfl (by simp [tokensOf]) hholds
            ⟨rfl, rfl, rfl, rfl, by simp, by simp⟩ (sameOutput_state row _) trivial
        · simp only [pure_eq_ok, Prod.mk.injEq] at h
          obtain ⟨rfl, rfl⟩ := h
          trivial
      · rename_i hclear
        simp only [pure_eq_ok, Prod.mk.injEq] at h
        obtain ⟨rfl, rfl⟩ := h
        simp only [Bool.not_eq_true, Bool.or_eq_false_iff, Bool.not_eq_false'] at hclear
        obtain ⟨⟨hconfirmed, hfree⟩, hpin⟩ := hclear
        refine .released index slot.epoch row confirmation hconfirmed hholds (by tauto) hpin ?_
        intro hk i e session hsession hsk hsg hse
        -- the `any` test of `release` would have found this session
        simp only [hk, decide_true, Bool.true_and, List.any_eq_false] at hfree
        exact hfree _ (List.mem_of_getElem? hsession) (by simp [Slot.references, hsk, hsg, hse])

theorem planned_beginShutdown {l : Ledger} {answer : Unit} {image : Option Image}
    (h : l.beginShutdown = .ok (answer, image)) : Planned l .beginShutdown .unit image := by
  simp only [Ledger.beginShutdown, bind_eq_ok] at h
  obtain ⟨-, -, h⟩ := h
  split at h
  · rename_i hopen
    simp only [pure_eq_ok, Prod.mk.injEq] at h
    obtain ⟨-, rfl⟩ := h
    exact .closing hopen
  · simp only [pure_eq_ok, Prod.mk.injEq] at h
    obtain ⟨-, rfl⟩ := h
    trivial

theorem planned_finishShutdown {l : Ledger} {answer : Unit} {image : Option Image}
    (h : l.finishShutdown = .ok (answer, image)) : Planned l .finishShutdown .unit image := by
  simp only [Ledger.finishShutdown, bind_eq_ok, refuseIf_eq_ok] at h
  obtain ⟨-, -, -, hclosing, -, hany, h⟩ := h
  split at h
  · rename_i hopen
    simp only [pure_eq_ok, Prod.mk.injEq] at h
    obtain ⟨-, rfl⟩ := h
    refine .closed (by simpa using hclosing) hopen fun i e row hholds => hany ?_
    exact List.any_eq_true.mpr ⟨_, List.mem_of_getElem? hholds, rfl⟩
  · simp only [pure_eq_ok, Prod.mk.injEq] at h
    obtain ⟨-, rfl⟩ := h
    trivial

/-- **Every plan of every public operation** publishes what `Written` allows, or nothing. -/
theorem planned_of_plan {l : Ledger} {op : Op} {answer : Answer} {image : Option Image}
    (h : l.plan op = .ok (answer, image)) : Planned l op answer image := by
  cases op <;> simp only [Ledger.plan, map_eq_ok, Prod.exists, Prod.map_apply, id_eq,
    Prod.mk.injEq, Except.ok.injEq] at h
  case status =>
    obtain ⟨rfl, rfl⟩ := h
    trivial
  all_goals obtain ⟨a, image', hplan, rfl, rfl⟩ := h
  case reserveCandidate => exact planned_reserveCandidate hplan
  case reserveAuxiliary => exact planned_reserveAuxiliary hplan
  case publish => exact planned_publish hplan
  case reserveSession => exact planned_reserveSession hplan
  case markLive => exact planned_markLive hplan
  case adoptSession => exact planned_adoptSession hplan
  case beginDrain => exact planned_beginDrain hplan
  case beginOutput => exact planned_beginOutput hplan
  case endOutput => exact planned_endOutput hplan
  case retain => exact planned_retain hplan
  case release => exact planned_release hplan
  case beginShutdown => exact planned_beginShutdown hplan
  case finishShutdown => exact planned_finishShutdown hplan

/-- Every plan of every public operation makes one of the changes of `Change`, or none. -/
theorem change_of_plan {l : Ledger} {op : Op} {answer : Answer} {new : Image}
    (h : l.plan op = .ok (answer, some new)) : Change l.image new :=
  Written.change (planned_of_plan h)

/-! ### One call -/

/-- What one call can come to. -/
inductive Stepped (faults : Faults) (l : Ledger) (op : Op) :
    Except BudgetFailure Answer × Ledger → Prop
  /-- It raised, or there was nothing to publish, or the old image was restored. -/
  | still (answer : Except BudgetFailure Answer) (hquiet : ∀ a, answer = .ok a → Quiet a) :
      Stepped faults l op (answer, l)
  | wrote (answer : Answer) (new : Image) (hvalid : l.validate new = .ok ())
      (hwritten : Written l op answer new) (hwrite : faults.write = .none) :
      Stepped faults l op (.ok answer, { l with image := new })
  /-- The publication failed, and the restoration too. -/
  | failed (answer : Answer) (new image : Image) (hvalid : l.validate new = .ok ())
      (hwritten : Written l op answer new) (himage : image = l.image ∨ image = new)
      (hwrite : faults.write ≠ .none) (hrestore : faults.restore ≠ .none) :
      Stepped faults l op
        (.error .fault, { l with image := image, failure := some (l.image, new) })

/-- **One call of an operation.** -/
theorem stepped (faults : Faults) (l : Ledger) (op : Op) : Stepped faults l op (l.step faults op) := by
  unfold Ledger.step Ledger.perform
  split
  · exact .still _ fun _ h => by cases h
  · rename_i answer hplan
    refine .still _ fun a ha => ?_
    rw [← Except.ok.inj ha]
    exact planned_of_plan hplan
  · rename_i answer new hplan
    have hwritten : Written l op answer new := planned_of_plan hplan
    cases hvalid : l.validate new with
    | error e =>
        simp only [Ledger.commit, hvalid]
        exact .still _ fun _ h => by cases h
    | ok u =>
        cases hwrite : faults.write with
        | none =>
            simp only [Ledger.commit, hvalid, hwrite, Fault.apply, if_true]
            exact .wrote answer new hvalid hwritten hwrite
        | before | after =>
            have hfault : faults.write ≠ .none := by simp [hwrite]
            cases hrestore : faults.restore with
            | none =>
                simp only [Ledger.commit, hvalid, hwrite, hrestore, Fault.apply, reduceCtorEq,
                  if_false, if_true]
                exact .still _ fun _ h => by cases h
            | before | after =>
                simp only [Ledger.commit, hvalid, hwrite, hrestore, Fault.apply, reduceCtorEq,
                  if_false]
                exact .failed answer new _ hvalid hwritten (by simp) hfault (by simp [hrestore])

end MaskGateway.Proofs.Budget
