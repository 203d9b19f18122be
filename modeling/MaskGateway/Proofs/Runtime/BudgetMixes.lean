import MaskGateway.Proofs.Runtime.BudgetCharges

/-!
# `MaskGateway.Proofs.Runtime.BudgetMixes`: every mix within the limits can be reached

The converse of `Charging.mix_of_short`. A ledger that only ever admitted holds its reservations in
the first slots, each under epoch one (`packed`), so a call on it is a rewriting of a list of
reservations. `Reachable` follows such calls: publish generations one by one, each replacing the
one before, then reserve candidates, sessions of the last generation and auxiliaries. If no call is
ever short of bytes, the run ends with the mix it was built for in the ledger, which is within the
total because the ledger is sound.
-/

set_option autoImplicit false

namespace MaskGateway.Proofs.Budget

open MaskGateway.Lib
open MaskGateway.Runtime.Budget

/-! ### Ledgers that only admitted -/

/-- The image whose first slots hold these reservations under epoch one. -/
def packed (entries : Nat) (rows : List ReservationView) : Image :=
  { slots := rows.map (fun row => { epoch := 1, entry := some row })
      ++ List.replicate (entries - rows.length) {} }

/-- A datasource without a limit of its own. -/
def wideDatasource : DatasourceCapacity := ⟨maxSlots, maxSlots, by decide⟩

/-- The ledger that holds these reservations. -/
def holding (limits : BudgetLimits) (rows : List ReservationView) : Ledger :=
  { limits, datasources := [wideDatasource], owner := 0, image := packed limits.entries rows }

section Packed

variable {limits : BudgetLimits} {rows : List ReservationView}

@[simp] theorem entries_packed (entries : Nat) (rows : List ReservationView) :
    (packed entries rows).entries = rows := by
  have hempty : (List.replicate (entries - rows.length) ({} : Slot)).filterMap (·.entry) = [] := by
    rw [List.filterMap_eq_nil_iff]
    intro slot hslot
    rw [List.eq_of_mem_replicate hslot]
  simp only [Image.entries, packed, List.filterMap_append, hempty, List.append_nil,
    List.filterMap_map]
  exact List.filterMap_some

@[simp] theorem count_packed (entries : Nat) (rows : List ReservationView)
    (kind : ReservationKind) :
    (packed entries rows).count kind = rows.countP (·.kind = kind) := by
  rw [Image.count, entries_packed]

theorem getElem?_packed {entries i : Nat} {row : ReservationView} (h : rows[i]? = some row) :
    (packed entries rows).slots[i]? = some { epoch := 1, entry := some row } := by
  have hlt : i < rows.length := (List.getElem?_eq_some_iff.mp h).1
  rw [packed, List.getElem?_append_left (by simpa using hlt), List.getElem?_map, h]
  rfl

/-- A reservation is rewritten in place. -/
theorem replace_packed {entries i : Nat} (h : i < rows.length) (row : ReservationView) :
    (packed entries rows).replace i 1 (some row) = packed entries (rows.set i row) := by
  simp only [packed, Image.replace, Image.set, List.length_set, List.map_set]
  rw [List.set_append_left _ _ (by simpa using h)]

/-- A reservation enters the first slot behind the others. -/
theorem reserve_packed (h : rows.length < limits.entries) (row : ReservationView) :
    (holding limits rows).reserve row =
      .ok (tokenAt 0 rows.length 1, some (packed limits.entries (rows ++ [row]))) := by
  obtain ⟨k, hk⟩ : ∃ k, limits.entries - rows.length = k + 1 :=
    ⟨limits.entries - rows.length - 1, by omega⟩
  have hslots : (packed limits.entries rows).slots =
      rows.map (fun row => ({ epoch := 1, entry := some row } : Slot))
        ++ ({} : Slot) :: List.replicate k {} := by
    rw [packed, hk, List.replicate_succ]
  have hfind : (packed limits.entries rows).slots.findIdx?
      (fun slot => slot.entry.isNone && slot.epoch < maxNumber) = some rows.length := by
    rw [hslots, List.findIdx?_append, List.findIdx?_eq_none_iff.mpr (by simp)]
    simp [List.findIdx?_cons, maxNumber]
  have hslot : (packed limits.entries rows).slots[rows.length]? = some {} := by
    rw [hslots, List.getElem?_append_right (by simp)]
    simp
  have himage : (packed limits.entries rows).set rows.length { epoch := 1, entry := some row } =
      packed limits.entries (rows ++ [row]) := by
    rw [Image.set, hslots, List.set_append_right _ _ (by simp)]
    simp only [packed, List.length_map, Nat.sub_self, List.set_cons_zero, List.map_append,
      List.map_cons, List.map_nil, List.append_assoc, List.cons_append, List.nil_append,
      List.length_append, List.length_singleton]
    rw [show limits.entries - (rows.length + 1) = k by omega]
  simp only [Ledger.reserve, holding, hfind, hslot, tokenAt]
  rw [show (0 : Nat) + 1 = 1 from rfl, himage]
  rfl

/-- A token names the reservation at its place. -/
theorem entry_packed {i : Nat} {row : ReservationView} (h : rows[i]? = some row) :
    (holding limits rows).entry (some (tokenAt 0 i 1)) = .ok (i, 1, row) := by
  have hslot : (holding limits rows).image.slots[i]? = some { epoch := 1, entry := some row } :=
    getElem?_packed h
  have hlt : i < (holding limits rows).image.slots.length := (List.getElem?_eq_some_iff.mp hslot).1
  have hindex : number (.int i) 0 ((holding limits rows).image.slots.length - 1) = .ok i := by
    rw [number, if_pos ⟨by omega, by omega⟩, Int.toNat_natCast]
  have hepoch : positive (.int (1 : Nat)) = .ok 1 := by decide
  have hlocate : (holding limits rows).locate (some (tokenAt 0 i 1)) false =
      .ok (i, { epoch := 1, entry := some row }) := by
    rw [Ledger.locate]
    simp only [tokenAt, bind_eq_ok]
    refine ⟨(), refuseIf_eq_ok.mpr (not_not_intro rfl), i, hindex, 1, hepoch, ?_⟩
    simp [hslot, refuseIf, bind, Except.bind, pure, Except.pure]
  rw [Ledger.entry, hlocate]
  rfl

/-- A reservation as it enters: no output yet, and of the one datasource if it is of any. -/
structure Plain (row : ReservationView) : Prop where
  epoch : row.outputEpoch = 0
  pinned : row.outputPinned = false
  frame : row.outputFrameBytes = 0
  overhead : row.outputOverheadBytes = 0
  ordinal : row.kind = .session ∨ row.kind = .candidate → row.datasource = some 0

/-- The counts of a datasource are within those of the ledger. -/
theorem countFor_le (image : Image) (kind : ReservationKind) (d : Nat) :
    image.countFor kind d ≤ image.count kind := by
  refine List.countP_mono_left fun row _ h => ?_
  simp only [decide_eq_true_eq] at h ⊢
  exact h.1

/-- An image of plain reservations that is within every limit passes `_validate`. -/
theorem validate_packed {before : List ReservationView} (hplain : ∀ row ∈ rows, Plain row)
    (hwithin : WithinCounts limits (packed limits.entries rows))
    (hbytes : (holding limits before).used (packed limits.entries rows) ≤ limits.totalBytes) :
    (holding limits before).validate (packed limits.entries rows) = .ok () := by
  simp only [Ledger.validate, List.forM_eq_forM, bind_eq_ok, refuseIf_eq_ok, forM_eq_ok,
    entries_packed]
  refine ⟨(), fun row hrow => ?_, (), ?_, fun pair hpair => ?_⟩
  · have h := hplain row hrow
    have hout : validateOutput row = .ok () := by
      simp [validateOutput, h.epoch, h.pinned, h.frame, h.overhead, refuseIf, bind, Except.bind]
    simp only [Ledger.validateRow, hout, bind, Except.bind]
    split
    · rename_i hkind
      rw [h.ordinal hkind]
      simp [holding, refuseIf]
    · rfl
  · simp only [Ledger.overCapacity, Bool.or_eq_true, decide_eq_true_eq, not_or, Nat.not_lt]
    exact ⟨⟨⟨⟨hbytes, hwithin.sessions⟩, hwithin.candidates⟩, hwithin.generations⟩,
      hwithin.auxiliaries⟩
  · simp only [holding, List.zipIdx_cons, List.zipIdx_nil, List.mem_singleton] at hpair
    subst hpair
    have hsessions := countFor_le (packed limits.entries rows) .session 0
    have hcandidates := countFor_le (packed limits.entries rows) .candidate 0
    have hs := (limits.counts_range limits.sessions (by simp)).2
    have hc := (limits.counts_range limits.candidates (by simp)).2
    have hws := hwithin.sessions
    have hwc := hwithin.candidates
    simp only [wideDatasource, not_or, Nat.not_lt]
    omega

/-! ### Runs that only admit -/

/-- No run of callers with these charges is ever short of bytes. -/
def NeverShort (charge : Charge) (limits : BudgetLimits) : Prop :=
  ∀ calls : List (Faults × Op), (∀ call ∈ calls, Charges charge call.2) →
    ∀ op, Charges charge op → ¬ Short ((holding limits []).run calls) op

/-- A run of callers with these charges ends with these reservations. -/
def Reachable (charge : Charge) (limits : BudgetLimits) (rows : List ReservationView) : Prop :=
  ∃ calls : List (Faults × Op), (∀ call ∈ calls, Charges charge call.2) ∧
    (holding limits []).run calls = holding limits rows

variable {charge : Charge}

/-- A new ledger with one wide datasource. -/
theorem init_holding (limits : BudgetLimits) :
    Ledger.init 0 limits [wideDatasource] = .ok (holding limits []) := by
  rw [Ledger.init, if_pos (by decide)]
  simp [holding, packed]

theorem run_append (l : Ledger) (before after : List (Faults × Op)) :
    l.run (before ++ after) = (l.run before).run after := by
  induction before generalizing l with
  | nil => rfl
  | cons call calls ih => exact ih _

/-- One more call, that is not short of bytes. -/
theorem Reachable.step (hnever : NeverShort charge limits) (h : Reachable charge limits rows)
    {op : Op} (hop : Charges charge op) {answer : Answer} {after : List ReservationView}
    (hplan : (holding limits rows).plan op = .ok (answer, some (packed limits.entries after)))
    (hplain : ∀ row ∈ after, Plain row)
    (hwithin : WithinCounts limits (packed limits.entries after)) :
    Reachable charge limits after := by
  obtain ⟨calls, hcalls, hrun⟩ := h
  have hbytes : (holding limits rows).used (packed limits.entries after) ≤ limits.totalBytes := by
    by_contra hover
    refine hnever calls hcalls op hop ?_
    rw [hrun]
    exact ⟨answer, _, hplan, hwithin, Nat.lt_of_not_le hover⟩
  have hvalid := validate_packed hplain hwithin hbytes
  refine ⟨calls ++ [((⟨.none, .none⟩ : Faults), op)], ?_, ?_⟩
  · intro call hcall
    rcases List.mem_append.mp hcall with hmem | hmem
    · exact hcalls call hmem
    · rw [List.mem_singleton.mp hmem]
      exact hop
  · rw [run_append, hrun]
    simp only [Ledger.run, Ledger.step, Ledger.perform, hplan, Ledger.commit, hvalid, Fault.apply,
      if_true]
    rfl

/-- The same reservation admitted again and again. -/
theorem Reachable.grow (hnever : NeverShort charge limits) (h : Reachable charge limits rows)
    {op : Op} (hop : Charges charge op) {row : ReservationView} {k : Nat}
    (hplan : ∀ j < k, ∃ answer, (holding limits (rows ++ List.replicate j row)).plan op =
      .ok (answer, some (packed limits.entries (rows ++ List.replicate j row ++ [row]))))
    (hplain : ∀ r ∈ row :: rows, Plain r)
    (hwithin : WithinCounts limits (packed limits.entries (rows ++ List.replicate k row))) :
    Reachable charge limits (rows ++ List.replicate k row) := by
  induction k with
  | zero => simpa using h
  | succ k ih =>
      rw [List.replicate_succ', ← List.append_assoc] at hwithin ⊢
      have hless : ∀ kind, (rows ++ List.replicate k row).countP (·.kind = kind) ≤
          (rows ++ List.replicate k row ++ [row]).countP (·.kind = kind) := by
        intro kind
        rw [@List.countP_append _ _ (rows ++ List.replicate k row)]
        omega
      have hbefore : WithinCounts limits
          (packed limits.entries (rows ++ List.replicate k row)) := by
        obtain ⟨hs, hc, hg, ha⟩ := hwithin
        simp only [count_packed] at hs hc hg ha
        refine ⟨?_, ?_, ?_, ?_⟩ <;> rw [count_packed]
        · exact (hless _).trans hs
        · exact (hless _).trans hc
        · exact (hless _).trans hg
        · exact (hless _).trans ha
      obtain ⟨answer, hlast⟩ := hplan k (Nat.lt_succ_self k)
      refine (ih (fun j hj => hplan j (by omega)) hbefore).step hnever hop hlast ?_ hwithin
      intro r hr
      rw [List.append_assoc, List.mem_append, ← List.replicate_succ', List.mem_replicate] at hr
      rcases hr with hr | ⟨-, rfl⟩
      · exact hplain r (List.mem_cons_of_mem _ hr)
      · exact hplain r (List.mem_cons_self ..)

/-! ### The reservations of a mix -/

/-- Every charge is a number the ledger takes. -/
def ValidCharge (charge : Charge) : Prop :=
  ∀ v ∈ [charge.worker, charge.parent, charge.candidate, charge.auxiliary], 1 ≤ v ∧ v ≤ maxNumber

/-- A candidate as it is reserved. -/
def candidateRow (charge : Charge) : ReservationView :=
  { kind := .candidate, state := .reserved, datasource := some 0
    sharedBytes := charge.candidate.toNat }

/-- The candidate once it is published. -/
def generationRow (charge : Charge) (state : ReservationState) : ReservationView :=
  { candidateRow charge with kind := .generation, state }

/-- A session of the generation in slot `g`. -/
def sessionRow (charge : Charge) (g : Nat) : ReservationView :=
  { kind := .session, state := .reserved, datasource := some 0, generationSlot := some g
    generationEpoch := 1, workerBytes := charge.worker.toNat, parentBytes := charge.parent.toNat }

/-- An auxiliary. -/
def auxiliaryRow (charge : Charge) : ReservationView :=
  { kind := .auxiliary, state := .reserved, datasource := none
    sharedBytes := charge.auxiliary.toNat }

theorem positive_charge (h : ValidCharge charge) {v : Int}
    (hv : v ∈ [charge.worker, charge.parent, charge.candidate, charge.auxiliary]) :
    positive (.int v) = .ok v.toNat := by
  have := h v hv
  rw [positive, number, if_pos ⟨by omega, by omega⟩]

theorem plan_candidate (h : ValidCharge charge) (hfree : rows.length < limits.entries) :
    (holding limits rows).plan (.reserveCandidate (.int 0) (.int charge.candidate)) =
      .ok (.token (tokenAt 0 rows.length 1),
        some (packed limits.entries (rows ++ [candidateRow charge]))) := by
  have hreserve : (holding limits rows).reserveCandidate (.int 0) (.int charge.candidate) =
      (holding limits rows).reserve (candidateRow charge) := by
    rw [Ledger.reserveCandidate, positive_charge h (by simp)]
    rfl
  rw [Ledger.plan, hreserve, reserve_packed hfree]
  rfl

theorem plan_auxiliary (h : ValidCharge charge) (hfree : rows.length < limits.entries) :
    (holding limits rows).plan (.reserveAuxiliary (.int charge.auxiliary)) =
      .ok (.token (tokenAt 0 rows.length 1),
        some (packed limits.entries (rows ++ [auxiliaryRow charge]))) := by
  have hreserve : (holding limits rows).reserveAuxiliary (.int charge.auxiliary) =
      (holding limits rows).reserve (auxiliaryRow charge) := by
    rw [Ledger.reserveAuxiliary, positive_charge h (by simp)]
    rfl
  rw [Ledger.plan, hreserve, reserve_packed hfree]
  rfl

theorem plan_session (h : ValidCharge charge) {g : Nat}
    (hg : rows[g]? = some (generationRow charge .live)) (hfree : rows.length < limits.entries) :
    (holding limits rows).plan (.reserveSession (some (tokenAt 0 g 1)) (.int charge.worker)
      (.int charge.parent)) = .ok (.token (tokenAt 0 rows.length 1),
        some (packed limits.entries (rows ++ [sessionRow charge g]))) := by
  have hreserve : (holding limits rows).reserveSession (some (tokenAt 0 g 1))
      (.int charge.worker) (.int charge.parent) =
      (holding limits rows).reserve (sessionRow charge g) := by
    rw [Ledger.reserveSession, entry_packed hg, positive_charge h (by simp),
      positive_charge h (by simp)]
    rfl
  rw [Ledger.plan, hreserve, reserve_packed hfree]
  rfl

/-- `publish` turns a candidate into the one LIVE generation. -/
theorem plan_publish {mid : List ReservationView} {i : Nat}
    {replacing : Option (Option BudgetToken)} (hi : rows[i]? = some (candidateRow charge))
    (hmid : (holding limits rows).retired (candidateRow charge) replacing =
      .ok (packed limits.entries mid))
    (hlive : ∀ row ∈ mid, row.kind = .generation → row.state ≠ .live) (hlt : i < mid.length) :
    (holding limits rows).plan (.publish (some (tokenAt 0 i 1)) replacing) =
      .ok (.unit, some (packed limits.entries (mid.set i (generationRow charge .live)))) := by
  have hnone : (packed limits.entries mid).slots.any (Slot.liveGeneration (some 0)) = false := by
    rw [List.any_eq_false]
    intro slot hslot
    rcases List.mem_append.mp hslot with hmem | hmem
    · obtain ⟨row, hrow, rfl⟩ := List.mem_map.mp hmem
      simp only [Slot.liveGeneration, decide_eq_true_eq]
      rintro ⟨hk, -, hs⟩
      exact hlive row hrow hk hs
    · rw [List.eq_of_mem_replicate hmem]
      simp [Slot.liveGeneration]
  have hpublish : (holding limits rows).publish (some (tokenAt 0 i 1)) replacing =
      .ok ((), some ((packed limits.entries mid).replace i 1
        (some (generationRow charge .live)))) := by
    simp only [Ledger.publish, bind_eq_ok]
    refine ⟨(), rfl, _, entry_packed hi, (), refuseIf_eq_ok.mpr (by simp [candidateRow]), _, hmid,
      (), refuseIf_eq_ok.mpr ?_, rfl⟩
    rw [show (candidateRow charge).datasource = some 0 from rfl, hnone]
    exact Bool.false_ne_true
  rw [Ledger.plan, hpublish, replace_packed hlt]
  rfl

/-! ### Every mix -/

theorem plain_candidate : Plain (candidateRow charge) := ⟨rfl, rfl, rfl, rfl, fun _ => rfl⟩

theorem plain_generation (state : ReservationState) : Plain (generationRow charge state) :=
  ⟨rfl, rfl, rfl, rfl, fun _ => rfl⟩

theorem plain_session (g : Nat) : Plain (sessionRow charge g) := ⟨rfl, rfl, rfl, rfl, fun _ => rfl⟩

theorem plain_auxiliary : Plain (auxiliaryRow charge) :=
  ⟨rfl, rfl, rfl, rfl, fun h => by rcases h with h | h <;> cases h⟩

/-- `g` retired generations and the LIVE one. -/
def generations (charge : Charge) (g : Nat) : List ReservationView :=
  List.replicate g (generationRow charge .draining) ++ [generationRow charge .live]

theorem plain_generations {g : Nat} : ∀ row ∈ generations charge g, Plain row := by
  intro row hrow
  rcases List.mem_append.mp hrow with hmem | hmem
  · rw [List.eq_of_mem_replicate hmem]
    exact plain_generation _
  · rw [List.mem_singleton.mp hmem]
    exact plain_generation _

theorem length_generations (g : Nat) : (generations charge g).length = g + 1 := by
  simp [generations]

/-- The generations are of their own kind. -/
theorem countP_generations (g : Nat) (kind : ReservationKind) :
    (generations charge g).countP (·.kind = kind) = if kind = .generation then g + 1 else 0 := by
  cases kind <;> simp [generations, generationRow, List.countP_replicate]

theorem getElem?_generations (g : Nat) (rest : List ReservationView) :
    (generations charge g ++ rest)[g]? = some (generationRow charge .live) := by
  rw [generations, List.append_assoc, List.getElem?_append_right (by simp)]
  simp

/-- Generations are published one by one, each replacing the one before. -/
theorem reachable_generations (hnever : NeverShort charge limits) (hcharge : ValidCharge charge)
    {g : Nat} (hg : g + 1 ≤ limits.generations) (hentries : g + 1 ≤ limits.entries) :
    Reachable charge limits (generations charge g) := by
  have hone : 1 ≤ limits.candidates := (limits.counts_range limits.candidates (by simp)).1
  -- a candidate enters behind what is there
  have hreserve : ∀ {rows : List ReservationView} {k : Nat}, Reachable charge limits rows →
      (∀ row ∈ rows, Plain row) → rows.length = k → rows.countP (·.kind = .generation) = k →
      k ≤ limits.generations → k < limits.entries →
      Reachable charge limits (rows ++ [candidateRow charge]) := by
    intro rows k hrows hplain hlength hcount hk hlt
    have hall := length_eq_counts rows
    have hop : Charges charge (.reserveCandidate (.int 0) (.int charge.candidate)) := rfl
    refine hrows.step hnever hop (plan_candidate hcharge (by omega)) ?_ ?_
    · intro row hrow
      rcases List.mem_append.mp hrow with hmem | hmem
      · exact hplain row hmem
      · rw [List.mem_singleton.mp hmem]
        exact plain_candidate
    · refine ⟨?_, ?_, ?_, ?_⟩ <;>
        simp only [count_packed, List.countP_append, List.countP_singleton, candidateRow] <;>
        simp <;> omega
  induction g with
  | zero =>
      have hempty : Reachable charge limits [] := ⟨[], by simp, by rw [Ledger.run]⟩
      have hcandidate := hreserve hempty (by simp) rfl rfl (Nat.zero_le _)
        (show 0 < limits.entries by omega)
      rw [List.nil_append] at hcandidate
      have hmid : (holding limits [candidateRow charge]).retired (candidateRow charge) none =
          .ok (packed limits.entries [candidateRow charge]) := by
        rw [Ledger.retired, holding]
      have hi : [candidateRow charge][0]? = some (candidateRow charge) := rfl
      have hplan := plan_publish hi hmid (by simp [candidateRow]) (by simp)
      have hop : Charges charge (.publish (some (tokenAt 0 0 1)) none) := trivial
      refine hcandidate.step hnever hop hplan plain_generations ?_
      refine ⟨?_, ?_, ?_, ?_⟩ <;> simp [countP_generations] <;> omega
  | succ g ih =>
      have hcandidate := hreserve (ih (by omega) (by omega)) plain_generations
        (length_generations g) (by simp [countP_generations]) (by omega) (by omega)
      -- the reservations once the LIVE generation is retired
      have hset : (generations charge g ++ [candidateRow charge]).set g
          (generationRow charge .draining) =
          List.replicate (g + 1) (generationRow charge .draining) ++ [candidateRow charge] := by
        rw [generations, List.append_assoc, List.set_append_right _ _ (by simp)]
        simp [List.replicate_succ']
      have hmid : (holding limits (generations charge g ++ [candidateRow charge])).retired
          (candidateRow charge) (some (some (tokenAt 0 g 1))) =
          .ok (packed limits.entries
            (List.replicate (g + 1) (generationRow charge .draining) ++ [candidateRow charge])) := by
        rw [← hset, ← replace_packed
          (by rw [List.length_append, length_generations, List.length_singleton]; omega)]
        simp only [Ledger.retired, bind_eq_ok]
        exact ⟨_, entry_packed (getElem?_generations g _), (),
          refuseIf_eq_ok.mpr (by simp [generationRow, candidateRow]), rfl⟩
      have hi : (generations charge g ++ [candidateRow charge])[g + 1]? =
          some (candidateRow charge) := by simp [generations]
      have hnone : ∀ row ∈ List.replicate (g + 1) (generationRow charge .draining)
          ++ [candidateRow charge], row.kind = .generation → row.state ≠ .live := by
        intro row hrow hk
        rcases List.mem_append.mp hrow with hmem | hmem
        · rw [List.eq_of_mem_replicate hmem]
          simp [generationRow]
        · rw [List.mem_singleton.mp hmem] at hk
          cases hk
      have hplan := plan_publish hi hmid hnone (by simp)
      have hop : Charges charge (.publish (some (tokenAt 0 (g + 1) 1))
        (some (some (tokenAt 0 g 1)))) := trivial
      have hlast : (List.replicate (g + 1) (generationRow charge .draining)
          ++ [candidateRow charge]).set (g + 1) (generationRow charge .live) =
          generations charge (g + 1) := by
        rw [List.set_append_right _ _ (by simp)]
        simp [generations]
      rw [hlast] at hplan
      refine hcandidate.step hnever hop hplan plain_generations ?_
      refine ⟨?_, ?_, ?_, ?_⟩ <;> simp [countP_generations] <;> omega

/-- The auxiliaries of a mix. -/
theorem Reachable.auxiliaries (hnever : NeverShort charge limits) (hcharge : ValidCharge charge)
    (h : Reachable charge limits rows) (hplain : ∀ row ∈ rows, Plain row) {a : Nat}
    (hentries : rows.length + a ≤ limits.entries)
    (hwithin : WithinCounts limits (packed limits.entries (rows ++ List.replicate a (auxiliaryRow charge)))) :
    Reachable charge limits (rows ++ List.replicate a (auxiliaryRow charge)) := by
  have hop : Charges charge (.reserveAuxiliary (.int charge.auxiliary)) := rfl
  refine h.grow hnever hop (fun j hj => ?_) ?_ hwithin
  · refine ⟨_, plan_auxiliary hcharge ?_⟩
    rw [List.length_append, List.length_replicate]
    omega
  · intro row hrow
    rcases List.mem_cons.mp hrow with rfl | hmem
    · exact plain_auxiliary
    · exact hplain row hmem

/-- The candidates and sessions of a mix, behind its generations. -/
theorem reachable_sessions (hnever : NeverShort charge limits) (hcharge : ValidCharge charge)
    {g c s : Nat} (hg : g + 1 ≤ limits.generations) (hc : c ≤ limits.candidates)
    (hs : s ≤ min limits.sessions limits.workers) (hentries : g + 1 + c + s ≤ limits.entries) :
    Reachable charge limits (generations charge g ++ List.replicate c (candidateRow charge)
      ++ List.replicate s (sessionRow charge g)) := by
  have hcandidate : Charges charge (.reserveCandidate (.int 0) (.int charge.candidate)) := rfl
  have hsession : Charges charge (.reserveSession (some (tokenAt 0 g 1)) (.int charge.worker)
      (.int charge.parent)) := ⟨rfl, rfl⟩
  have hplain : ∀ row ∈ candidateRow charge :: generations charge g, Plain row := by
    intro row hrow
    rcases List.mem_cons.mp hrow with rfl | hmem
    · exact plain_candidate
    · exact plain_generations row hmem
  have hcandidates : Reachable charge limits
      (generations charge g ++ List.replicate c (candidateRow charge)) := by
    refine (reachable_generations hnever hcharge hg (by omega)).grow hnever hcandidate
      (fun j hj => ⟨_, plan_candidate hcharge ?_⟩) hplain ?_
    · rw [List.length_append, length_generations, List.length_replicate]
      omega
    · refine ⟨?_, ?_, ?_, ?_⟩ <;>
        simp [countP_generations, candidateRow, List.countP_replicate] <;> omega
  refine hcandidates.grow hnever hsession (fun j hj => ⟨_, plan_session hcharge ?_ ?_⟩) ?_ ?_
  · rw [List.append_assoc]
    exact getElem?_generations g _
  · rw [List.length_append, List.length_append, length_generations, List.length_replicate,
      List.length_replicate]
    omega
  · intro row hrow
    rcases List.mem_cons.mp hrow with rfl | hmem
    · exact plain_session g
    · rcases List.mem_append.mp hmem with hmem | hmem
      · exact plain_generations row hmem
      · rw [List.eq_of_mem_replicate hmem]
        exact plain_candidate
  · refine ⟨?_, ?_, ?_, ?_⟩ <;>
      simp [countP_generations, candidateRow, sessionRow, List.countP_replicate] <;> omega

/-- **Every mix within the limits can be reached.** -/
theorem reachable_mix (hnever : NeverShort charge limits) (hcharge : ValidCharge charge)
    {s n a : Nat} (hmix : Mix limits s n a) :
    ∃ rows, Reachable charge limits rows ∧ rows.countP (·.kind = .session) = s ∧
      rows.countP (·.kind = .candidate) + rows.countP (·.kind = .generation) = n ∧
      rows.countP (·.kind = .auxiliary) = a := by
  have hone : 1 ≤ limits.generations := (limits.counts_range limits.generations (by simp)).1
  obtain ⟨hs, hn, ha, hentries, hserved⟩ := hmix
  cases n with
  | zero =>
      have hzero : s = 0 := by omega
      have hempty : Reachable charge limits [] := ⟨[], by simp, by rw [Ledger.run]⟩
      refine ⟨_, hempty.auxiliaries hnever hcharge (by simp) (a := a) ?_ ?_, ?_⟩
      · simp only [List.length_nil]
        omega
      · refine ⟨?_, ?_, ?_, ?_⟩ <;> simp [auxiliaryRow, List.countP_replicate] <;> omega
      · simp [auxiliaryRow, List.countP_replicate, hzero]
  | succ k =>
      obtain ⟨g, c, hk, hg, hc⟩ : ∃ g c, g + c = k ∧ g + 1 ≤ limits.generations ∧
          c ≤ limits.candidates :=
        ⟨min k (limits.generations - 1), k - min k (limits.generations - 1), by omega, by omega,
          by omega⟩
      have hsessions := reachable_sessions hnever hcharge hg hc hs (by omega)
      refine ⟨_, hsessions.auxiliaries hnever hcharge ?_ (a := a) ?_ ?_, ?_⟩
      · intro row hrow
        simp only [List.mem_append, List.mem_replicate] at hrow
        rcases hrow with (hmem | ⟨-, rfl⟩) | ⟨-, rfl⟩
        · exact plain_generations row hmem
        · exact plain_candidate
        · exact plain_session g
      · simp only [List.length_append, length_generations, List.length_replicate]
        omega
      · refine ⟨?_, ?_, ?_, ?_⟩ <;>
          simp [countP_generations, candidateRow, sessionRow, auxiliaryRow,
            List.countP_replicate] <;> omega
      · simp [countP_generations, candidateRow, sessionRow, auxiliaryRow, List.countP_replicate]
        omega

/-- **If no run is short of bytes, every mix within the limits fits.** -/
theorem mixesFit_of_neverShort (hcharge : ValidCharge charge) (hnever : NeverShort charge limits) :
    MixesFit charge limits := by
  intro s n a hmix
  obtain ⟨rows, ⟨calls, hcalls, hrun⟩, rfl, rfl, rfl⟩ := reachable_mix hnever hcharge hmix
  have hcharging := (charging_init (init_holding limits)).run hcalls
  rw [hrun] at hcharging
  have hbytes := (hcharging.sound rfl).1.bytes
  have hused := used_eq hcharging.charged (l := holding limits rows)
  simp only [count_packed, holding] at hused
  rw [← hused]
  exact_mod_cast hbytes

end Packed

end MaskGateway.Proofs.Budget
