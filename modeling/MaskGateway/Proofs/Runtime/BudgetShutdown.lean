import MaskGateway.Proofs.Runtime.BudgetTokens

/-!
# `MaskGateway.Proofs.Runtime.BudgetShutdown`: what leaves the ledger, and when

A reservation leaves through `release` alone. Once the ledger is closing nothing enters it, and once it
is closed nothing changes it. A publication that fails is undone; where that fails too, the ledger
refuses every call from then on, and every credit counts as reserved.

`release_safety` collects this for every run of calls, each with its own publication faults.
-/

set_option autoImplicit false

namespace MaskGateway.Proofs.Budget

open MaskGateway.Lib
open MaskGateway.Runtime.Budget

/-! ### The invariant -/

/-- The bytes fit, and a closed ledger is closing and empty. This holds of a failed ledger as well. -/
structure Settled (l : Ledger) : Prop where
  fits : l.used l.image ≤ l.limits.totalBytes
  closed : l.image.closed = true → l.image.closing = true ∧ ∀ i e row, ¬ Holds l.image i e row

/-- A publication of an open ledger is what it is; a closed one publishes nothing. -/
theorem Written.open {l : Ledger} {op : Op} {answer : Answer} {new : Image} (h : Settled l)
    (hwritten : Written l op answer new) : l.image.closed = false := by
  cases hclosed : l.image.closed with
  | false => rfl
  | true =>
      obtain ⟨hclosing, hempty⟩ := h.closed hclosed
      cases hwritten with
      | reserved index slot row hop hopen => exact absurd (hclosing.symm.trans hopen) nofun
      | restated index epoch row row' hop hnamed hslot => exact absurd hslot (hempty _ _ _)
      | pinned index epoch row row' frame overhead hslot => exact absurd hslot (hempty _ _ _)
      | unpinned index epoch row row' drain hslot => exact absurd hslot (hempty _ _ _)
      | published candidate replacing mid index epoch row hmid hnamed hslot =>
          exact absurd hslot (hempty _ _ _)
      | released index epoch row confirmation hconfirmed hslot => exact absurd hslot (hempty _ _ _)
      | closing hopen => exact absurd (hclosing.symm.trans hopen) nofun
      | closed _ hopen => exact absurd (hclosed.symm.trans hopen) nofun

/-- What happens to the flags. -/
theorem Written.flags {l : Ledger} {op : Op} {answer : Answer} {new : Image}
    (h : Written l op answer new) :
    (l.image.closing = true → new.closing = true) ∧
      (new.closed = true → l.image.closed = true ∨
        (op = .finishShutdown ∧ new.closing = true ∧ new.slots = l.image.slots ∧
          ∀ i e row, ¬ Holds l.image i e row)) := by
  cases h with
  | published candidate replacing mid index epoch row hmid =>
      rcases hmid with rfl | ⟨i, e, gen, -, -, -, rfl⟩
      · exact ⟨id, Or.inl⟩
      · exact ⟨id, Or.inl⟩
  | closing hopen => exact ⟨fun _ => rfl, Or.inl⟩
  | closed hclosing hopen hempty => exact ⟨id, fun _ => Or.inr ⟨rfl, hclosing, rfl, hempty⟩⟩
  | reserved | restated | pinned | unpinned | released => exact ⟨id, Or.inl⟩

/-- What is published keeps the invariant. -/
theorem Settled.written {l l' : Ledger} {op : Op} {answer : Answer} {new : Image} (h : Settled l)
    (hwritten : Written l op answer new) (hvalid : l.validate new = .ok ())
    (hlimits : l'.limits = l.limits) (himage : l'.image = new) : Settled l' := by
  refine ⟨?_, fun hclosed => ?_⟩
  · have hbytes := (capacity_of_validate hvalid).bytes
    rw [Ledger.used, hlimits, himage]
    exact hbytes
  · rw [himage] at hclosed ⊢
    rcases hwritten.flags.2 hclosed with hwas | ⟨-, hclosing, hslots, hempty⟩
    · exact absurd (hwas.symm.trans (hwritten.open h)) nofun
    · refine ⟨hclosing, fun i e row hslot => hempty i e row ?_⟩
      unfold Holds at hslot ⊢
      rw [← hslots]
      exact hslot

/-- A call keeps the invariant. -/
theorem Settled.step {l : Ledger} (h : Settled l) (faults : Faults) (op : Op) :
    Settled (l.step faults op).2 := by
  have hstep := stepped faults l op
  generalize l.step faults op = result at hstep
  cases hstep with
  | still => exact h
  | wrote answer new hvalid hwritten hwrite => exact h.written hwritten hvalid rfl rfl
  | failed answer new image hvalid hwritten himage hwrite hrestore =>
      rcases himage with rfl | rfl
      · exact ⟨h.fits, h.closed⟩
      · exact h.written hwritten hvalid rfl rfl

theorem Settled.run {l : Ledger} (h : Settled l) (calls : List (Faults × Op)) :
    Settled (l.run calls) := by
  induction calls generalizing l with
  | nil => exact h
  | cons call calls ih => exact ih (h.step call.1 call.2)

/-- A new ledger. -/
theorem settled_init {owner : Nat} {limits : BudgetLimits} {datasources : List DatasourceCapacity}
    {l₀ : Ledger} (h₀ : Ledger.init owner limits datasources = .ok l₀) : Settled l₀ := by
  have hcapacity := (sound_init h₀ (by
    simp only [Ledger.init, ite_else_error_eq_ok, Except.ok.injEq] at h₀
    rw [← h₀.2])).1
  refine ⟨hcapacity.bytes, fun hclosed => ?_⟩
  simp only [Ledger.init, ite_else_error_eq_ok, Except.ok.injEq] at h₀
  rw [← h₀.2] at hclosed
  cases hclosed

/-! ### What leaves -/

/-- A reservation is still in its slot under its epoch, whatever has become of it. -/
def Occupied (image : Image) (i e : Nat) : Prop := ∃ row, Holds image i e row

/-- A slot that is overwritten under its own epoch is still occupied. -/
theorem occupied_replace {image : Image} {index epoch i e : Nat} {row row' : ReservationView}
    (h : Occupied image i e) (hslot : Holds image index epoch row) :
    Occupied (image.replace index epoch (some row')) i e := by
  obtain ⟨found, hfound⟩ := h
  by_cases hi : i = index
  · subst hi
    obtain ⟨rfl, -⟩ := holds_unique hfound hslot
    exact ⟨row', holds_set_self hslot⟩
  · exact ⟨found, holds_set_of_ne hfound hi⟩

/-- **A reservation leaves only through `release`.** -/
theorem Written.leaves {l : Ledger} {op : Op} {answer : Answer} {new : Image}
    (h : Written l op answer new) {i e : Nat} {row : ReservationView} (hslot : Holds l.image i e row)
    (hgone : ¬ Occupied new i e) :
    ∃ confirmation, op = .release (some (tokenAt l.owner i e)) (some confirmation) ∧
      confirmation.complete = true ∧ (row.state = .draining ∨ row.state = .held) ∧
      row.outputPinned = false ∧ (row.kind = .generation → Unreferenced l.image i e) := by
  cases h with
  | reserved index slot other hop hopen hfound hempty hrow hout =>
      -- the slot that is filled was empty, so it is another one
      have hne := ne_of_holds_of_empty hslot hfound hempty
      exact absurd ⟨row, holds_set_of_ne hslot hne⟩ hgone
  | restated index epoch old row' hop hnamed hold hsame hout hquiet =>
      exact absurd (occupied_replace ⟨row, hslot⟩ hold) hgone
  | pinned index epoch old row' frame overhead hold hsame hfree hepoch hpinned =>
      exact absurd (occupied_replace ⟨row, hslot⟩ hold) hgone
  | unpinned index epoch old row' drain hold hsame hpinned hepoch hfree =>
      exact absurd (occupied_replace ⟨row, hslot⟩ hold) hgone
  | published candidate replacing mid index epoch old hmid hnamed hold hkind hlive =>
      have hstill := holds_retires hmid hold (by simp [hkind])
      have hmidOccupied : Occupied mid i e := by
        rcases hmid with rfl | ⟨j, e', gen, -, hgen, -, rfl⟩
        · exact ⟨row, hslot⟩
        · exact occupied_replace ⟨row, hslot⟩ hgen
      exact absurd (occupied_replace hmidOccupied hstill) hgone
  | released index epoch old confirmation hconfirmed hold hstate hpin hfree =>
      by_cases hi : i = index
      · subst hi
        obtain ⟨rfl, rfl⟩ := holds_unique hslot hold
        exact ⟨confirmation, rfl, hconfirmed, hstate, hpin, hfree⟩
      · exact absurd ⟨row, holds_set_of_ne hslot hi⟩ hgone
  | closing | closed => exact absurd ⟨row, hslot⟩ hgone

/-- Nothing enters a ledger that is closing. -/
theorem Written.shrinks {l : Ledger} {op : Op} {answer : Answer} {new : Image}
    (h : Written l op answer new) (hclosing : l.image.closing = true) {i e : Nat}
    (hafter : Occupied new i e) : Occupied l.image i e := by
  obtain ⟨row', hslot'⟩ := hafter
  have hback : ∀ {image : Image} {index epoch : Nat} {row : ReservationView}
      {entry : Option ReservationView}, Holds image index epoch row →
      Holds (image.replace index epoch entry) i e row' → Occupied image i e := by
    intro image index epoch row entry hslot hset
    rcases holds_set hset with ⟨rfl, hnew⟩ | ⟨-, hold⟩
    · cases hnew
      exact ⟨row, hslot⟩
    · exact ⟨row', hold⟩
  cases h with
  | reserved index slot row hop hopen => exact absurd (hclosing.symm.trans hopen) nofun
  | restated index epoch row _ hop hnamed hslot => exact hback hslot hslot'
  | pinned index epoch row _ frame overhead hslot => exact hback hslot hslot'
  | unpinned index epoch row _ drain hslot => exact hback hslot hslot'
  | published candidate replacing mid index epoch row hmid hnamed hslot hkind hlive =>
      have hstill := holds_retires hmid hslot (by simp [hkind])
      obtain ⟨found, hfound⟩ := hback hstill hslot'
      rcases hmid with rfl | ⟨j, e', gen, -, hgen, -, rfl⟩
      · exact ⟨found, hfound⟩
      · rcases holds_set hfound with ⟨rfl, hnew⟩ | ⟨-, hold⟩
        · cases hnew
          exact ⟨gen, hgen⟩
        · exact ⟨found, hold⟩
  | released index epoch row confirmation hconfirmed hslot => exact hback hslot hslot'
  | closing | closed => exact ⟨row', hslot'⟩

/-- What every publication does to the image, one call does. -/
theorem step_image {faults : Faults} {l : Ledger} {op : Op} {P : Image → Prop} (hstill : P l.image)
    (hwritten : ∀ answer new, Written l op answer new → P new) :
    P (l.step faults op).2.image := by
  have hstep := stepped faults l op
  generalize l.step faults op = result at hstep
  cases hstep with
  | still => exact hstill
  | wrote answer new hvalid hnew hwrite => exact hwritten answer new hnew
  | failed answer new image hvalid hnew himage hwrite hrestore =>
      rcases himage with rfl | rfl
      · exact hstill
      · exact hwritten answer _ hnew

theorem run_closing {l : Ledger} (hclosing : l.image.closing = true) (calls : List (Faults × Op))
    (i e : Nat) (h : Occupied (l.run calls).image i e) : Occupied l.image i e := by
  induction calls generalizing l with
  | nil => exact h
  | cons call calls ih =>
      obtain ⟨hclosing', hshrinks⟩ := @step_image call.1 l call.2
        (fun image => image.closing = true ∧ (Occupied image i e → Occupied l.image i e))
        ⟨hclosing, id⟩ fun answer new hwritten =>
          ⟨hwritten.flags.1 hclosing, hwritten.shrinks hclosing⟩
      exact hshrinks (ih hclosing' h)

/-- **A closed ledger never changes again.** -/
theorem run_closed {l : Ledger} (h : Settled l) (hclosed : l.image.closed = true)
    (calls : List (Faults × Op)) : (l.run calls).image = l.image := by
  induction calls generalizing l with
  | nil => rfl
  | cons call calls ih =>
      have himage : (l.step call.1 call.2).2.image = l.image :=
        @step_image call.1 l call.2 (fun image => image = l.image) rfl
          fun answer new hwritten => absurd (hclosed.symm.trans (hwritten.open h)) nofun
      exact (ih (h.step call.1 call.2) (himage ▸ hclosed)).trans himage

/-! ### What `status` reports -/

/-- The bytes of the rows, field by field. -/
theorem sum_bytes (rows : List ReservationView) :
    (rows.map ReservationView.bytes).sum =
      (rows.map (·.workerBytes)).sum + (rows.map (·.parentBytes)).sum +
        (rows.map (·.sharedBytes)).sum := by
  induction rows with
  | nil => rfl
  | cons row rows ih =>
      simp only [List.map_cons, List.sum_cons, ih, ReservationView.bytes]
      omega

/-- **What is reserved and what is available is the total**, whatever has happened. -/
theorem Settled.status {l : Ledger} (h : Settled l) :
    l.status.reservedBytes + l.status.availableBytes = l.limits.totalBytes ∧
      0 ≤ l.status.reservedBytes ∧ 0 ≤ l.status.availableBytes ∧
      (l.failure ≠ none → l.status.availableBytes = 0) := by
  have hfits := h.fits
  rw [Ledger.used, sum_bytes] at hfits
  cases hfailure : l.failure with
  | none =>
      simp only [Ledger.status, hfailure, Option.isSome_none, Bool.false_eq_true, if_false]
      refine ⟨by omega, by omega, by omega, fun h => absurd rfl h⟩
  | some images =>
      simp only [Ledger.status, hfailure, Option.isSome_some, if_true]
      refine ⟨by omega, by omega, by omega, fun _ => by omega⟩

/-! ### Release, shutdown and faults -/

/-- What a ledger that has gone through some calls promises about what leaves it. -/
structure ReleaseSafety (l₀ : Ledger) (calls : List (Faults × Op)) : Prop where
  /-- A reservation leaves only through `release`, drained or held, with every fact confirmed, no
  output pinned and, where it is a generation, no session that names it. -/
  leaves : ∀ faults op i e row, Holds (l₀.run calls).image i e row →
    ¬ Occupied ((l₀.run calls).step faults op).2.image i e →
    ∃ confirmation, op = .release (some (tokenAt l₀.owner i e)) (some confirmation) ∧
      confirmation.complete = true ∧ (row.state = .draining ∨ row.state = .held) ∧
      row.outputPinned = false ∧
      (row.kind = .generation → Unreferenced (l₀.run calls).image i e)
  /-- Nothing enters a ledger that is closing. -/
  closing : (l₀.run calls).image.closing = true → ∀ later i e,
    Occupied ((l₀.run calls).run later).image i e → Occupied (l₀.run calls).image i e
  /-- Only `finish_shutdown` closes it, and only when it is empty. -/
  finished : ∀ faults op, (l₀.run calls).image.closed = false →
    ((l₀.run calls).step faults op).2.image.closed = true →
    op = .finishShutdown ∧ ∀ i e, ¬ Occupied (l₀.run calls).image i e
  /-- A closed one never changes again. -/
  closed : (l₀.run calls).image.closed = true → ∀ later,
    ((l₀.run calls).run later).image = (l₀.run calls).image
  /-- A publication that fails and is restored leaves everything as it was. -/
  restored : ∀ faults op, faults.write ≠ .none → faults.restore = .none →
    ((l₀.run calls).step faults op).2 = l₀.run calls
  /-- Where the restoration fails too, the ledger has failed. -/
  failed : ∀ faults op answer new, faults.write ≠ .none → faults.restore ≠ .none →
    (l₀.run calls).plan op = .ok (answer, some new) → (l₀.run calls).validate new = .ok () →
    ((l₀.run calls).step faults op).2.failure ≠ none
  /-- A failed ledger refuses everything but `status` for ever, and has nothing available. -/
  quarantined : (l₀.run calls).failure ≠ none → ∀ later,
    (l₀.run calls).run later = l₀.run calls ∧
    (∀ faults op, op ≠ .status → ((l₀.run calls).step faults op).1 = .error .fault) ∧
    (l₀.run calls).status.availableBytes = 0
  /-- What is reserved and what is available is the total. -/
  status : (l₀.run calls).status.reservedBytes + (l₀.run calls).status.availableBytes =
      (l₀.run calls).limits.totalBytes ∧
    0 ≤ (l₀.run calls).status.reservedBytes ∧ 0 ≤ (l₀.run calls).status.availableBytes

/-- **What leaves the ledger, and when, over every run.** -/
theorem release_safety {owner : Nat} {limits : BudgetLimits} {datasources : List DatasourceCapacity}
    {l₀ : Ledger} (h₀ : Ledger.init owner limits datasources = .ok l₀)
    (calls : List (Faults × Op)) : ReleaseSafety l₀ calls := by
  have hsettled : Settled (l₀.run calls) := (settled_init h₀).run calls
  have howner : (l₀.run calls).owner = l₀.owner := (run_aged l₀ calls).1
  obtain ⟨htotal, hreserved, havailable, hnothing⟩ := hsettled.status
  refine { leaves := ?_, closing := fun hclosing later i e => run_closing hclosing later i e
           finished := ?_, closed := fun hclosed later => run_closed hsettled hclosed later
           restored := ?_, failed := ?_, quarantined := ?_
           status := ⟨htotal, hreserved, havailable⟩ }
  · intro faults op i e row hslot hgone
    rw [← howner]
    by_contra hnot
    -- otherwise the reservation would still be there
    refine hgone (@step_image faults _ op (fun image => Occupied image i e) ⟨row, hslot⟩ ?_)
    intro answer new hwritten
    by_contra hgone'
    exact hnot (hwritten.leaves hslot hgone')
  · intro faults op hopen hafter
    refine @step_image faults _ op (fun image => image.closed = true →
      op = .finishShutdown ∧ ∀ i e, ¬ Occupied (l₀.run calls).image i e) ?_ ?_ hafter
    · intro hclosed
      exact absurd (hopen.symm.trans hclosed) nofun
    · intro answer new hwritten hclosed
      rcases hwritten.flags.2 hclosed with hwas | ⟨hop, -, -, hempty⟩
      · exact absurd (hopen.symm.trans hwas) nofun
      · refine ⟨hop, fun i e hoccupied => ?_⟩
        obtain ⟨row, hslot⟩ := hoccupied
        exact hempty i e row hslot
  · intro faults op hwrite hrestore
    have hstep := stepped faults (l₀.run calls) op
    generalize (l₀.run calls).step faults op = result at hstep
    cases hstep with
    | still => rfl
    | wrote answer new hvalid hwritten hnone => exact absurd hnone hwrite
    | failed answer new image hvalid hwritten himage hwrite' hrestore' =>
        exact absurd hrestore hrestore'
  · intro faults op answer new hwrite hrestore hplan hvalid
    simp only [Ledger.step, Ledger.perform, hplan, Ledger.commit, hvalid, if_neg hwrite,
      if_neg hrestore]
    exact Option.some_ne_none _
  · intro hfailure later
    exact ⟨run_failed hfailure later, fun faults op => (step_failed hfailure faults op).2,
      hnothing hfailure⟩

/-- A ledger that is emptied and closed, but for the last publication, which cannot be undone. -/
def closingRun : List (Faults × Op) :=
  [({}, .reserveCandidate (.int 0) (.int 40)),
   ({}, .beginShutdown),
   ({}, .beginDrain (some (tokenAt 7 0 1))),
   ({}, .release (some (tokenAt 7 0 1)) (some ⟨true, true, true, true, true⟩)),
   ({ write := .after, restore := .before }, .finishShutdown)]

theorem release_safety_closing :
    ∃ l₀, Ledger.init 7 smallLimits [oneDatasource] = .ok l₀ ∧
      (l₀.run closingRun).failure ≠ none ∧ (l₀.run closingRun).image.closed = true ∧
      (l₀.run closingRun).status.availableBytes = 0 ∧ ReleaseSafety l₀ closingRun := by
  have hinit : Ledger.init 7 smallLimits [oneDatasource] = .ok
      { limits := smallLimits, datasources := [oneDatasource], owner := 7,
        image := { slots := List.replicate 4 {} } } := rfl
  exact ⟨_, hinit, by decide, by decide, by decide, release_safety hinit closingRun⟩

end MaskGateway.Proofs.Budget
