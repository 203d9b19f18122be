import MaskGateway.Proofs.Runtime.BudgetChange

/-!
# `MaskGateway.Proofs.Runtime.BudgetInvariant`: what the ledger keeps over every run

`_validate` checks an image as a whole before it is published, so the capacity part of the
invariant (`Capacity`) holds of every published image by `capacity_of_validate`. Two facts are
not checked there: at most one LIVE generation per datasource, and that a session's generation
slot still holds the generation it was admitted to. These are `Coherent`. `Coherent.change`
proves that each `Change` keeps them; the generation a session names cannot be overwritten,
because a reservation only enters an empty slot and a generation only leaves unreferenced.

A failed publication either restores the old image or marks the ledger failed
(`step_cases`), so the invariant holds of every reachable state that is not failed, whatever
faults the assignments of the image raised on the way.
-/

set_option autoImplicit false

namespace MaskGateway.Proofs.Budget

open MaskGateway.Lib
open MaskGateway.Runtime.Budget

/-! ### Capacity, from the validation -/

/-- What `_validate` establishes of an image. -/
structure Capacity (l : Ledger) (image : Image) : Prop where
  bytes : l.limits.baseBytes + l.limits.headroomBytes + (image.entries.map (·.bytes)).sum
    ≤ l.limits.totalBytes
  sessions : image.count .session ≤ min l.limits.sessions l.limits.workers
  candidates : image.count .candidate ≤ l.limits.candidates
  generations : image.count .generation ≤ l.limits.generations
  auxiliaries : image.count .auxiliary ≤ l.limits.auxiliaries
  perDatasource : ∀ d capacity, l.datasources[d]? = some capacity →
    image.countFor .session d ≤ capacity.sessions ∧
    image.countFor .candidate d ≤ capacity.candidates
  ordinals : ∀ row ∈ image.entries, row.kind = .session ∨ row.kind = .candidate →
    ∃ d < l.datasources.length, row.datasource = some d
  pinned : ∀ row ∈ image.entries, row.outputPinned →
    2 * row.outputFrameBytes + row.outputOverheadBytes ≤ row.parentBytes

/-- A validated output fits its parent bytes. -/
theorem pinned_of_validateOutput {row : ReservationView} (h : validateOutput row = .ok ())
    (hpin : row.outputPinned) :
    2 * row.outputFrameBytes + row.outputOverheadBytes ≤ row.parentBytes := by
  simp only [validateOutput, hpin, if_true, bind_eq_ok, refuseIf_eq_ok, Nat.not_lt] at h
  obtain ⟨-, -, -, -, -, -, -, -, -, -, -, -, -, -, hfit⟩ := h
  exact hfit

/-- A validated row of a per-datasource kind names a datasource of the ledger. -/
theorem ordinal_of_validateRow {l : Ledger} {row : ReservationView}
    (h : l.validateRow row = .ok ()) (hkind : row.kind = .session ∨ row.kind = .candidate) :
    ∃ d < l.datasources.length, row.datasource = some d := by
  simp only [Ledger.validateRow, if_pos hkind, bind_eq_ok] at h
  obtain ⟨-, -, h⟩ := h
  cases hd : row.datasource with
  | none => simp [hd] at h
  | some d =>
      simp only [hd, refuseIf_eq_ok, Nat.not_le] at h
      exact ⟨d, h, rfl⟩

/-- An image that passes `_validate` is within every limit. -/
theorem capacity_of_validate {l : Ledger} {image : Image} (h : l.validate image = .ok ()) :
    Capacity l image := by
  simp only [Ledger.validate, List.forM_eq_forM, bind_eq_ok, refuseIf_eq_ok, forM_eq_ok] at h
  obtain ⟨-, hrows, -, hglobal, hlocal⟩ := h
  simp only [Ledger.overCapacity, Bool.or_eq_true, decide_eq_true_eq, not_or,
    Nat.not_lt] at hglobal
  obtain ⟨⟨⟨⟨hbytes, hsess⟩, hcand⟩, hgen⟩, haux⟩ := hglobal
  refine ⟨hbytes, hsess, hcand, hgen, haux, ?_, ?_, ?_⟩
  · intro d capacity hd
    have hmem : (capacity, d) ∈ l.datasources.zipIdx := by
      rw [List.mem_zipIdx_iff_getElem?]
      exact hd
    have hok := hlocal _ hmem
    simp only [not_or, Nat.not_lt] at hok
    exact hok
  · intro row hrow hkind
    exact ordinal_of_validateRow (hrows row hrow) hkind
  · intro row hrow hpin
    have hok := hrows row hrow
    simp only [Ledger.validateRow, bind_eq_ok] at hok
    obtain ⟨_, hout, _⟩ := hok
    exact pinned_of_validateOutput hout hpin

/-! ### Coherence, from the operations -/

/-- The part of the invariant that no validation checks. -/
structure Coherent (image : Image) : Prop where
  notReserved : ∀ i e row, Holds image i e row → row.kind = .generation →
    row.state ≠ .reserved
  oneLive : ∀ i j e e' row row', Holds image i e row → Holds image j e' row' →
    row.kind = .generation → row'.kind = .generation → row.state = .live → row'.state = .live →
    row.datasource = row'.datasource → i = j
  refers : ∀ i e row, Holds image i e row → row.kind = .session →
    ∃ g grow, row.generationSlot = some g ∧ Holds image g row.generationEpoch grow ∧
      grow.kind = .generation ∧ grow.datasource = row.datasource

/-- A slot that holds a reservation is not the empty slot a reservation enters. -/
theorem ne_of_holds_of_empty {image : Image} {i e index : Nat} {row : ReservationView}
    {slot : Slot} (h : Holds image i e row) (hslot : image.slots[index]? = some slot)
    (hempty : slot.entry = none) : i ≠ index := by
  rintro rfl
  rw [h] at hslot
  cases hslot
  cases hempty

/-- A reservation that enters an empty slot. The new session's generation is in another slot,
because that slot is occupied. -/
theorem Coherent.reserve {image : Image} (h : Coherent image) {index : Nat} {slot : Slot}
    {row : ReservationView} (hslot : image.slots[index]? = some slot) (hempty : slot.entry = none)
    (hrow : Admissible image row) :
    Coherent (image.set index { epoch := slot.epoch + 1, entry := some row }) := by
  have hkeep : ∀ {i e r}, Holds image i e r →
      Holds (image.set index { epoch := slot.epoch + 1, entry := some row }) i e r :=
    fun hr => holds_set_of_ne hr (ne_of_holds_of_empty hr hslot hempty)
  refine ⟨?_, ?_, ?_⟩
  · intro i e r hr hk
    rcases holds_set hr with ⟨-, hnew⟩ | ⟨-, hold⟩
    · cases hnew
      exact absurd hk hrow.kind
    · exact h.notReserved i e r hold hk
  · intro i j e e' r r' hr hr' hk hk' hs hs' hd
    rcases holds_set hr with ⟨-, hnew⟩ | ⟨-, hold⟩
    · cases hnew
      exact absurd hk hrow.kind
    · rcases holds_set hr' with ⟨-, hnew'⟩ | ⟨-, hold'⟩
      · cases hnew'
        exact absurd hk' hrow.kind
      · exact h.oneLive i j e e' r r' hold hold' hk hk' hs hs' hd
  · intro i e r hr hk
    rcases holds_set hr with ⟨-, hnew⟩ | ⟨-, hold⟩
    · cases hnew
      obtain ⟨g, grow, hg, hgrow, hgk, hgd⟩ := hrow.refers hk
      exact ⟨g, grow, hg, hkeep hgrow, hgk, hgd⟩
    · obtain ⟨g, grow, hg, hgrow, hgk, hgd⟩ := h.refers i e r hold hk
      exact ⟨g, grow, hg, hkeep hgrow, hgk, hgd⟩

/-- A rewrite in place. Kind, datasource and epoch stay, so references to the slot stay good. -/
theorem Coherent.update {image : Image} (h : Coherent image) {index epoch : Nat}
    {row row' : ReservationView} (hslot : Holds image index epoch row)
    (hsame : SameReservation row row') : Coherent (image.replace index epoch (some row')) := by
  -- A LIVE generation after the rewrite was a LIVE generation before it.
  have hlive : row'.kind = .generation → row'.state = .live →
      row.kind = .generation ∧ row.state = .live := by
    intro hk hs
    have hkind : row.kind = .generation := hsame.kind ▸ hk
    rcases hsame.live hs with hl | hr
    · exact ⟨hkind, hl⟩
    · exact absurd hr (h.notReserved index epoch row hslot hkind)
  -- Every reservation of the new image has a counterpart in the old one.
  have hback : ∀ {i e r}, Holds (image.replace index epoch (some row')) i e r →
      ∃ r₀, Holds image i e r₀ ∧ SameReservation r₀ r ∧
        (r.kind = .generation → r.state = .live → r₀.state = .live) := by
    intro i e r hr
    rcases holds_set hr with ⟨rfl, hnew⟩ | ⟨-, hold⟩
    · cases hnew
      exact ⟨row, hslot, hsame, fun hk hs => (hlive hk hs).2⟩
    · exact ⟨r, hold, ⟨rfl, rfl, rfl, rfl, Or.inl, id⟩, fun _ hs => hs⟩
  refine ⟨?_, ?_, ?_⟩
  · intro i e r hr hk hs
    obtain ⟨r₀, hr₀, hsm, -⟩ := hback hr
    exact h.notReserved i e r₀ hr₀ (hsm.kind ▸ hk) (hsm.reserved hs)
  · intro i j e e' r r' hr hr' hk hk' hs hs' hd
    obtain ⟨r₀, hr₀, hsm, hl⟩ := hback hr
    obtain ⟨r₀', hr₀', hsm', hl'⟩ := hback hr'
    refine h.oneLive i j e e' r₀ r₀' hr₀ hr₀' (hsm.kind ▸ hk) (hsm'.kind ▸ hk') (hl hk hs)
      (hl' hk' hs') ?_
    rw [← hsm.datasource, ← hsm'.datasource]
    exact hd
  · intro i e r hr hk
    obtain ⟨r₀, hr₀, hsm, -⟩ := hback hr
    obtain ⟨g, grow, hg, hgrow, hgk, hgd⟩ := h.refers i e r₀ hr₀ (hsm.kind ▸ hk)
    rw [hsm.generationSlot, hsm.generationEpoch, hsm.datasource]
    by_cases hgi : g = index
    · subst hgi
      obtain ⟨he, rfl⟩ := holds_unique hgrow hslot
      rw [he]
      exact ⟨g, row', hg, holds_set_self hslot, hsame.kind ▸ hgk, hsame.datasource ▸ hgd⟩
    · exact ⟨g, grow, hg, holds_set_of_ne hgrow hgi, hgk, hgd⟩

/-- Retiring a generation is a rewrite in place. -/
theorem Coherent.retire {image : Image} (h : Coherent image) {index epoch : Nat}
    {gen : ReservationView} (hslot : Holds image index epoch gen) :
    Coherent (image.replace index epoch (some { gen with state := .draining })) :=
  h.update hslot ⟨rfl, rfl, rfl, rfl, by simp, by simp⟩

/-- A candidate becomes the LIVE generation in an image where no other one is LIVE. No session
names a candidate's slot, so no reference moves. -/
theorem Coherent.becomeLive {image : Image} (h : Coherent image) {index epoch : Nat}
    {row : ReservationView} (hslot : Holds image index epoch row) (hkind : row.kind = .candidate)
    (hlive : ∀ i e gen, Holds image i e gen → gen.kind = .generation →
      gen.datasource = row.datasource → gen.state ≠ .live) :
    Coherent (image.replace index epoch
      (some { row with kind := .generation, state := .live })) := by
  refine ⟨?_, ?_, ?_⟩
  · intro i e r hr hk
    rcases holds_set hr with ⟨-, hnew⟩ | ⟨-, hold⟩
    · cases hnew
      simp
    · exact h.notReserved i e r hold hk
  · intro i j e e' r r' hr hr' hk hk' hs hs' hd
    rcases holds_set hr with ⟨hi, hnew⟩ | ⟨-, hold⟩
    · rcases holds_set hr' with ⟨hj, -⟩ | ⟨-, hold'⟩
      · rw [hi, hj]
      · cases hnew
        exact absurd hs' (hlive j e' r' hold' hk' hd.symm)
    · rcases holds_set hr' with ⟨-, hnew'⟩ | ⟨-, hold'⟩
      · cases hnew'
        exact absurd hs (hlive i e r hold hk hd)
      · exact h.oneLive i j e e' r r' hold hold' hk hk' hs hs' hd
  · intro i e r hr hk
    rcases holds_set hr with ⟨-, hnew⟩ | ⟨-, hold⟩
    · cases hnew
      cases hk
    · obtain ⟨g, grow, hg, hgrow, hgk, hgd⟩ := h.refers i e r hold hk
      have hgi : g ≠ index := by
        rintro rfl
        obtain ⟨-, rfl⟩ := holds_unique hgrow hslot
        rw [hkind] at hgk
        cases hgk
      exact ⟨g, grow, hg, holds_set_of_ne hgrow hgi, hgk, hgd⟩

/-- A cleared slot. If it held a generation, no session named it. -/
theorem Coherent.clear {image : Image} (h : Coherent image) {index epoch : Nat}
    {row : ReservationView} (hslot : Holds image index epoch row)
    (hfree : row.kind = .generation → ∀ i e session, Holds image i e session →
      session.kind = .session → session.generationSlot = some index →
      session.generationEpoch ≠ epoch) : Coherent (image.replace index epoch none) := by
  have hback : ∀ {i e r}, Holds (image.replace index epoch none) i e r → Holds image i e r := by
    intro i e r hr
    rcases holds_set hr with ⟨-, hnew⟩ | ⟨-, hold⟩
    · cases hnew
    · exact hold
  refine ⟨?_, ?_, ?_⟩
  · intro i e r hr hk
    exact h.notReserved i e r (hback hr) hk
  · intro i j e e' r r' hr hr' hk hk' hs hs' hd
    exact h.oneLive i j e e' r r' (hback hr) (hback hr') hk hk' hs hs' hd
  · intro i e r hr hk
    obtain ⟨g, grow, hg, hgrow, hgk, hgd⟩ := h.refers i e r (hback hr) hk
    have hgi : g ≠ index := by
      rintro rfl
      obtain ⟨he, rfl⟩ := holds_unique hgrow hslot
      exact hfree hgk i e r (hback hr) hk hg he
    exact ⟨g, grow, hg, holds_set_of_ne hgrow hgi, hgk, hgd⟩

/-- Every change an operation can make keeps the image coherent. -/
theorem Coherent.change {old new : Image} (h : Coherent old) (hc : Change old new) :
    Coherent new := by
  cases hc with
  | reserve index slot row hslot hempty hrow => exact h.reserve hslot hempty hrow
  | update index epoch row row' hslot hsame => exact h.update hslot hsame
  | publish mid index epoch row hmid hslot hkind hlive =>
      rcases hmid with rfl | ⟨i, e, gen, hgen, hgk, rfl⟩
      · exact h.becomeLive hslot hkind hlive
      · -- The retired generation is not the candidate, so the candidate is still in its slot.
        have hne : index ≠ i := by
          rintro rfl
          obtain ⟨-, rfl⟩ := holds_unique hslot hgen
          rw [hkind] at hgk
          cases hgk
        exact (h.retire hgen).becomeLive (holds_set_of_ne hslot hne) hkind hlive
  | release index epoch row hslot hstate hpin hfree => exact h.clear hslot hfree
  | flags closing closed => exact ⟨h.notReserved, h.oneLive, h.refers⟩

/-! ### Steps and runs -/

/-- The invariant of a ledger: nothing is claimed of a failed one. -/
def Sound (l : Ledger) : Prop :=
  l.failure = none → Capacity l l.image ∧ Coherent l.image

/-- One call leaves the ledger as it was, publishes a validated change and answers, or fails
the ledger. The last needs both a failed publication and a failed restoration. -/
theorem step_cases (faults : Faults) (l : Ledger) (op : Op) :
    (l.step faults op).2 = l ∨
    (∃ answer new, l.step faults op = (.ok answer, { l with image := new }) ∧
      l.validate new = .ok () ∧ Change l.image new) ∨
    ((l.step faults op).2.failure ≠ none ∧ faults.write ≠ .none ∧ faults.restore ≠ .none) := by
  have hstep := stepped faults l op
  generalize l.step faults op = result at hstep
  cases hstep with
  | still answer hquiet => exact Or.inl rfl
  | wrote answer new hvalid hwritten hwrite =>
      exact Or.inr (Or.inl ⟨answer, new, rfl, hvalid, hwritten.change⟩)
  | failed answer new image hvalid hwritten himage hwrite hrestore =>
      exact Or.inr (Or.inr ⟨Option.some_ne_none _, hwrite, hrestore⟩)

/-- A call keeps the invariant. -/
theorem Sound.step {l : Ledger} (h : Sound l) (faults : Faults) (op : Op) :
    Sound (l.step faults op).2 := by
  intro hok
  rcases step_cases faults l op with hsame | ⟨answer, new, hnew, hval, hc⟩ | ⟨hfail, -⟩
  · rw [hsame] at hok ⊢
    exact h hok
  · rw [hnew] at hok ⊢
    have hcap := capacity_of_validate hval
    exact ⟨⟨hcap.bytes, hcap.sessions, hcap.candidates, hcap.generations, hcap.auxiliaries,
      hcap.perDatasource, hcap.ordinals, hcap.pinned⟩, (h hok).2.change hc⟩
  · exact absurd hok hfail

/-- A run keeps the invariant. -/
theorem Sound.run {l : Ledger} (h : Sound l) (calls : List (Faults × Op)) :
    Sound (l.run calls) := by
  induction calls generalizing l with
  | nil => exact h
  | cons call calls ih => exact ih (h.step call.1 call.2)

/-- A new ledger has only empty slots. -/
theorem sound_init {owner : Nat} {limits : BudgetLimits} {datasources : List DatasourceCapacity}
    {l : Ledger} (h : Ledger.init owner limits datasources = .ok l) : Sound l := by
  simp only [Ledger.init, ite_else_error_eq_ok, Except.ok.injEq] at h
  obtain ⟨-, rfl⟩ := h
  have hnone : ∀ n : Nat, (List.replicate n ({} : Slot)).filterMap (·.entry) = [] := by
    intro n
    rw [List.filterMap_eq_nil_iff]
    intro slot hslot
    rw [List.eq_of_mem_replicate hslot]
  have hempty : ∀ i e row,
      ¬ Holds { slots := List.replicate limits.entries ({} : Slot) } i e row := by
    intro i e row hr
    have hmem := List.eq_of_mem_replicate (List.mem_of_getElem? hr)
    cases hmem
  intro _
  refine ⟨?_, ⟨fun i e row hr => absurd hr (hempty i e row),
    fun i _ e _ row _ hr => absurd hr (hempty i e row),
    fun i e row hr => absurd hr (hempty i e row)⟩⟩
  refine ⟨?_, ?_, ?_, ?_, ?_, ?_, ?_, ?_⟩ <;>
    simp [Image.count, Image.countFor, Image.entries, hnone, limits.base_fits]

/-- The ledger's invariant over every run. From a new ledger, after any calls with any
arguments and any publication faults, a ledger that is not failed is within every capacity, has
at most one LIVE generation per datasource, and each of its sessions names a slot that holds
its generation under the recorded epoch. A call that raises leaves the image as it was; only a
failed publication whose restoration fails too is excepted, and the shipped assignments never
fail. -/
theorem ledger_sound {owner : Nat} {limits : BudgetLimits}
    {datasources : List DatasourceCapacity} {l₀ : Ledger}
    (h₀ : Ledger.init owner limits datasources = .ok l₀) (calls : List (Faults × Op)) :
    ((l₀.run calls).failure = none →
      Capacity (l₀.run calls) (l₀.run calls).image ∧ Coherent (l₀.run calls).image) ∧
    (∀ faults op e, faults.write = .none ∨ faults.restore = .none →
      ((l₀.run calls).step faults op).1 = .error e →
      ((l₀.run calls).step faults op).2.image = (l₀.run calls).image) := by
  refine ⟨(sound_init h₀).run calls, ?_⟩
  intro faults op e hfaults herr
  rcases step_cases faults (l₀.run calls) op with
    hsame | ⟨answer, new, hnew, -, -⟩ | ⟨-, hwrite, hrestore⟩
  · rw [hsame]
  · rw [hnew] at herr
    cases herr
  · rcases hfaults with hw | hr
    · exact absurd hw hwrite
    · exact absurd hr hrestore

/-- One datasource with two sessions and one candidate. -/
def oneDatasource : DatasourceCapacity := ⟨2, 1, by decide⟩

/-- Limits with room for one generation and two sessions. -/
def smallLimits : BudgetLimits where
  totalBytes := 1000
  baseBytes := 100
  headroomBytes := 50
  entries := 4
  sessions := 2
  workers := 2
  candidates := 1
  generations := 2
  auxiliaries := 1
  bytes_range := by decide
  counts_range := by decide
  base_fits := by decide
  counts_le_entries := by decide

/-- A candidate is published, a session is admitted to it and the generation drains while the
session still names it. The release of the generation then tries to hold it, and the publication
of that image raises after it took effect. -/
def drainingRun : List (Faults × Op) :=
  [({}, .reserveCandidate (.int 0) (.int 40)),
   ({}, .publish (some ⟨7, .int 0, .int 1⟩) none),
   ({}, .reserveSession (some ⟨7, .int 0, .int 1⟩) (.int 100) (.int 200)),
   ({}, .beginDrain (some ⟨7, .int 0, .int 1⟩)),
   ({ write := .after }, .release (some ⟨7, .int 0, .int 1⟩) (some ⟨true, true, true, true, true⟩))]

theorem ledger_sound_draining :
    ∃ l₀, Ledger.init 7 smallLimits [oneDatasource] = .ok l₀ ∧
      (l₀.run drainingRun).image.count .session = 1 ∧
      Coherent (l₀.run drainingRun).image := by
  have hinit : Ledger.init 7 smallLimits [oneDatasource] = .ok
      { limits := smallLimits, datasources := [oneDatasource], owner := 7,
        image := { slots := List.replicate 4 {} } } := rfl
  exact ⟨_, hinit, by decide, ((ledger_sound hinit drainingRun).1 (by decide)).2⟩

end MaskGateway.Proofs.Budget
