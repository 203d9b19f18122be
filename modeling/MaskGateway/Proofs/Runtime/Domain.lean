import MaskGateway.Proofs.Runtime.BudgetMixes
import MaskGateway.Runtime.Domain

/-!
# `MaskGateway.Proofs.Runtime.Domain`: what a reconciled plan is enough for

A plan that `reconcile` has nothing against is one row of positive bytes per owner with the slots
of the limits, and all rows together are within the total (`Reconciled`). The ledger that is built
with these limits takes no row for the generations: `publish` moves the credits of the candidate.
So what the ledger can come to hold is `mixBytes`, with the candidate's cost for both, while the
plan adds the generation's own.

`enough_iff` says exactly for which plans the reconciliation is enough: those whose mixes fit.
Every plan that charges a generation at least what it charges a candidate is one
(`mixesFit_of_le`); `cheap_generation` is a reconciled plan that is not.
-/

set_option autoImplicit false

namespace MaskGateway.Proofs.Domain

open MaskGateway.Lib
open MaskGateway.Runtime.Budget (BudgetFailure BudgetLimits BudgetToken Ledger Op Faults maxNumber)
open MaskGateway.Runtime.Domain
open MaskGateway.Proofs.Budget

/-! ### The verdict -/

@[simp] theorem whenever_eq_nil {condition : Bool} {reason : DomainReason} :
    whenever condition reason = [] ↔ condition = false := by
  cases condition <;> simp [whenever]

/-- Every reason has its place in the verdict. -/
theorem reasons_eq_nil {result : List DomainReason} :
    DomainReason.all.filter (result.contains ·) = [] ↔ result = [] := by
  constructor
  · intro h
    cases result with
    | nil => rfl
    | cons reason rest =>
        rw [List.filter_eq_nil_iff] at h
        exact absurd (by simp) (h reason (by cases reason <;> decide))
  · rintro rfl
    rfl

/-- What a plan without a reason against it comes to. -/
structure Reconciled (plan : CostPlan) (limits : BudgetLimits) : Prop where
  rows : ∀ owner slots, (owner, slots) ∈ expected limits →
    ∃ cost, plan.ownedBy owner = [cost] ∧ cost.slots = slots
  base : ((plan.ownedBy .base).map (·.bytes)).sum = limits.baseBytes
  headroom : ((plan.ownedBy .headroom).map (·.bytes)).sum = limits.headroomBytes
  workers : limits.sessions ≤ limits.workers
  output : ∀ cost ∈ plan.ownedBy .parent,
    2 * plan.frameBytes + plan.outputOverheadBytes ≤ cost.bytesPerSlot
  total : bytesAt plan .inDomain + bytesAt plan .outOfDomain ≤ limits.totalBytes
  numbers : ∀ cost ∈ plan.costs, 1 ≤ cost.bytesPerSlot ∧ cost.bytesPerSlot ≤ maxNumber
  frame : 1 ≤ plan.frameBytes ∧ plan.frameBytes ≤ maxNumber
  overhead : 1 ≤ plan.outputOverheadBytes ∧ plan.outputOverheadBytes ≤ maxNumber
  frames : 2 * plan.frameBytes + plan.outputOverheadBytes ≤ maxNumber

theorem number_eq_ok {value minimum : Int} {maximum : Nat} {u : Unit} :
    number value minimum maximum = .ok u ↔ minimum ≤ value ∧ value ≤ maximum := by
  rw [number, refuseIf_eq_ok, not_not]

theorem checked_eq_ok {value result : Int} :
    checked value = .ok result ↔ (0 ≤ value ∧ value ≤ maxNumber) ∧ value = result := by
  simp only [checked, bind_eq_ok, number_eq_ok, pure_eq_ok]
  constructor
  · rintro ⟨-, h⟩
    exact h
  · intro h
    exact ⟨(), h⟩

/-- What a validated plan comes to. -/
theorem numbers_of_validatePlan {plan : CostPlan} {u : Unit} (h : validatePlan plan = .ok u) :
    (∀ cost ∈ plan.costs, 1 ≤ cost.bytesPerSlot ∧ cost.bytesPerSlot ≤ maxNumber) ∧
    (1 ≤ plan.frameBytes ∧ plan.frameBytes ≤ maxNumber) ∧
    (1 ≤ plan.outputOverheadBytes ∧ plan.outputOverheadBytes ≤ maxNumber) ∧
    2 * plan.frameBytes + plan.outputOverheadBytes ≤ maxNumber := by
  simp only [validatePlan, List.forM_eq_forM, bind_eq_ok, forM_eq_ok, number_eq_ok,
    checked_eq_ok] at h
  obtain ⟨-, -, -, -, -, -, -, -, -, -, -, hframe, -, hoverhead, -, ⟨⟨-, hframes⟩, -⟩, hcosts⟩ := h
  refine ⟨fun cost hcost => ?_, hframe, hoverhead, hframes⟩
  have hvalid := hcosts cost hcost
  simp only [validateCost, bind_eq_ok, number_eq_ok] at hvalid
  obtain ⟨-, -, -, hbytes, -⟩ := hvalid
  exact hbytes

/-- A verdict without reasons: none was found against the profile, none against the costs. -/
theorem parts_of_reasons {registry : List DomainProfile} {profile : DomainProfile}
    {plan : CostPlan} {limits : BudgetLimits}
    (h : (reconcile registry profile plan limits).reasons = []) :
    validatePlan plan = .ok () ∧ profileReasons registry profile = [] ∧
    costReasons plan limits = [] ∧ limits.sessions ≤ limits.workers ∧
    bytesAt plan .inDomain + bytesAt plan .outOfDomain ≤ limits.totalBytes := by
  unfold reconcile at h
  cases hverdict : reconcileChecked registry profile plan limits with
  | error reason =>
      rw [hverdict] at h
      cases h
  | ok verdict =>
      simp only [hverdict] at h
      simp only [reconcileChecked, bind_eq_ok] at hverdict
      obtain ⟨-, -, _, hplan, hverdict⟩ := hverdict
      split at hverdict
      · -- rows of different quantities: the one reason is the unit
        simp only [pure_eq_ok] at hverdict
        rw [← hverdict] at h
        cases h
      · simp only [bind_eq_ok, pure_eq_ok, totals, topology, checked_eq_ok] at hverdict
        obtain ⟨-, ⟨_, ⟨-, rfl⟩, _, ⟨-, rfl⟩, rfl⟩, _, ⟨-, rfl⟩, _, ⟨_, ⟨-, rfl⟩, _, ⟨-, rfl⟩, rfl⟩, _,
          -, rfl⟩ := hverdict
        rw [reasons_eq_nil] at h
        simp only [List.append_eq_nil_iff, whenever_eq_nil] at h
        obtain ⟨⟨⟨⟨⟨⟨⟨hprofile, hcosts⟩, hshape, -⟩, -⟩, -⟩, -⟩, htotal⟩, -⟩ := h
        simp only [Bool.or_eq_false_iff, decide_eq_false_iff_not, Nat.not_lt] at hshape
        exact ⟨hplan, hprofile, hcosts, hshape.1, by simpa using htotal⟩

/-- **A plan without a reason against it is reconciled.** -/
theorem reconciled_of_reasons {registry : List DomainProfile} {profile : DomainProfile}
    {plan : CostPlan} {limits : BudgetLimits}
    (h : (reconcile registry profile plan limits).reasons = []) : Reconciled plan limits := by
  obtain ⟨hplan, -, hcosts, hworkers, htotal⟩ := parts_of_reasons h
  obtain ⟨hnumbers, hframe, hoverhead, hframes⟩ := numbers_of_validatePlan hplan
  simp only [costReasons, List.append_eq_nil_iff, whenever_eq_nil] at hcosts
  obtain ⟨⟨⟨⟨⟨⟨⟨-, -⟩, -⟩, hrows⟩, hbase⟩, -⟩, -⟩, houtput⟩ := hcosts
  simp only [decide_eq_false_iff_not, not_or, not_not] at hbase
  simp only [List.any_eq_false, decide_eq_true_eq, not_lt] at houtput
  simp only [List.any_eq_false, decide_eq_true_eq, not_or, not_not] at hrows
  refine ⟨fun owner slots hmem => ?_, hbase.1, hbase.2, hworkers, houtput, htotal, hnumbers, hframe,
    hoverhead, hframes⟩
  obtain ⟨hone, hslots⟩ := hrows (owner, slots) hmem
  obtain ⟨cost, hcost⟩ := List.length_eq_one_iff.mp hone
  simp only at hcost hslots
  refine ⟨cost, hcost, ?_⟩
  simpa [hcost] using hslots

/-! ### The costs of the plan -/

/-- What a slot of an owner costs. -/
def perSlot (plan : CostPlan) (owner : CostOwner) : Int :=
  match plan.ownedBy owner with
  | [cost] => cost.bytesPerSlot
  | _ => 0

/-- What callers charge that keep to the plan. -/
def chargeOf (plan : CostPlan) : Charge where
  worker := perSlot plan .worker
  parent := perSlot plan .parent
  candidate := perSlot plan .candidate
  auxiliary := perSlot plan .auxiliary

section Reconciled

variable {plan : CostPlan} {limits : BudgetLimits}

/-- The one row of an owner. -/
theorem Reconciled.row (h : Reconciled plan limits) {owner : CostOwner} {slots : Nat}
    (hmem : (owner, slots) ∈ expected limits) :
    1 ≤ perSlot plan owner ∧ perSlot plan owner ≤ maxNumber ∧
      ((plan.ownedBy owner).map (·.bytes)).sum = perSlot plan owner * slots := by
  obtain ⟨cost, hcost, hslots⟩ := h.rows owner slots hmem
  have hin : cost ∈ plan.costs := by
    have hown : cost ∈ plan.ownedBy owner := by
      rw [hcost]
      exact List.mem_singleton_self cost
    exact (List.mem_filter.mp hown).1
  have hnumber := h.numbers cost hin
  simp only [perSlot, hcost, List.map_cons, List.map_nil, List.sum_cons, List.sum_nil, Cost.bytes,
    hslots, add_zero]
  exact ⟨hnumber.1, hnumber.2, trivial⟩

/-- The rows of all owners are the rows of the plan. -/
theorem sum_owners (costs : List Cost) :
    (CostOwner.all.map fun owner =>
      ((costs.filter (·.owner = owner)).map (·.bytes)).sum).sum = (costs.map (·.bytes)).sum := by
  induction costs with
  | nil => rfl
  | cons cost costs ih =>
      rw [List.map_cons, List.sum_cons, ← ih]
      cases howner : cost.owner <;> simp [CostOwner.all, List.filter_cons, howner] <;> ring

/-- The rows of both locations are the rows of the plan. -/
theorem sum_locations (costs : List Cost) :
    ((costs.filter (·.location = .inDomain)).map (·.bytes)).sum
      + ((costs.filter (·.location = .outOfDomain)).map (·.bytes)).sum
      = (costs.map (·.bytes)).sum := by
  induction costs with
  | nil => rfl
  | cons cost costs ih =>
      rw [List.map_cons, List.sum_cons, ← ih]
      cases hlocation : cost.location <;> simp [hlocation] <;> ring

/-- The rows of a reconciled plan, one for each kind of slot. -/
structure Rows (plan : CostPlan) (limits : BudgetLimits) : Prop where
  worker : 1 ≤ perSlot plan .worker ∧ perSlot plan .worker ≤ maxNumber
  parent : 1 ≤ perSlot plan .parent ∧ perSlot plan .parent ≤ maxNumber
  candidate : 1 ≤ perSlot plan .candidate ∧ perSlot plan .candidate ≤ maxNumber
  generation : 1 ≤ perSlot plan .generation
  auxiliary : 1 ≤ perSlot plan .auxiliary ∧ perSlot plan .auxiliary ≤ maxNumber
  total : limits.baseBytes + limits.headroomBytes + perSlot plan .worker * limits.workers
    + perSlot plan .parent * limits.sessions + perSlot plan .candidate * limits.candidates
    + perSlot plan .generation * limits.generations + perSlot plan .auxiliary * limits.auxiliaries
    ≤ limits.totalBytes

theorem Reconciled.toRows (h : Reconciled plan limits) : Rows plan limits := by
  obtain ⟨hw, hw', hworker⟩ := h.row
    (show (CostOwner.worker, limits.workers) ∈ expected limits by simp [expected])
  obtain ⟨hp, hp', hparent⟩ := h.row
    (show (CostOwner.parent, limits.sessions) ∈ expected limits by simp [expected])
  obtain ⟨hc, hc', hcandidate⟩ := h.row
    (show (CostOwner.candidate, limits.candidates) ∈ expected limits by simp [expected])
  obtain ⟨hg, -, hgeneration⟩ := h.row
    (show (CostOwner.generation, limits.generations) ∈ expected limits by simp [expected])
  obtain ⟨ha, ha', hauxiliary⟩ := h.row
    (show (CostOwner.auxiliary, limits.auxiliaries) ∈ expected limits by simp [expected])
  refine ⟨⟨hw, hw'⟩, ⟨hp, hp'⟩, ⟨hc, hc'⟩, hg, ⟨ha, ha'⟩, ?_⟩
  have htotal := h.total
  rw [bytesAt, bytesAt, sum_locations, ← sum_owners] at htotal
  have hbase := h.base
  have hheadroom := h.headroom
  simp only [CostPlan.ownedBy] at hbase hheadroom hworker hparent hcandidate hgeneration hauxiliary
  simp only [CostOwner.all, List.map_cons, List.map_nil, List.sum_cons, List.sum_nil, hbase,
    hheadroom, hworker, hparent, hcandidate, hgeneration, hauxiliary] at htotal
  linarith

/-- The charges of the plan are numbers the ledger takes. -/
theorem Rows.validCharge (h : Rows plan limits) : ValidCharge (chargeOf plan) := by
  intro v hv
  simp only [chargeOf, List.mem_cons, List.not_mem_nil, or_false] at hv
  rcases hv with rfl | rfl | rfl | rfl
  · exact h.worker
  · exact h.parent
  · exact h.candidate
  · exact h.auxiliary

/-- **A plan that charges a generation at least what it charges a candidate is enough.** -/
theorem mixesFit_of_le (h : Rows plan limits)
    (hle : perSlot plan .candidate ≤ perSlot plan .generation) :
    MixesFit (chargeOf plan) limits := by
  intro s n a hmix
  have hs : (s : Int) ≤ limits.sessions := by exact_mod_cast hmix.sessions.trans (Nat.min_le_left ..)
  have hs' : (s : Int) ≤ limits.workers := by exact_mod_cast hmix.sessions.trans (Nat.min_le_right ..)
  have hn : (n : Int) ≤ limits.candidates + limits.generations := by exact_mod_cast hmix.credits
  have ha : (a : Int) ≤ limits.auxiliaries := by exact_mod_cast hmix.auxiliaries
  have hworker := mul_le_mul_of_nonneg_left hs' (show 0 ≤ perSlot plan .worker by linarith [h.worker.1])
  have hparent := mul_le_mul_of_nonneg_left hs (show 0 ≤ perSlot plan .parent by linarith [h.parent.1])
  have hcredit := mul_le_mul_of_nonneg_left hn
    (show 0 ≤ perSlot plan .candidate by linarith [h.candidate.1])
  have hgeneration := mul_le_mul_of_nonneg_right hle
    (show (0 : Int) ≤ limits.generations from Int.natCast_nonneg _)
  have hauxiliary := mul_le_mul_of_nonneg_left ha
    (show 0 ≤ perSlot plan .auxiliary by linarith [h.auxiliary.1])
  have htotal := h.total
  simp only [mixBytes, chargeOf]
  rw [mul_add] at hcredit
  linarith

end Reconciled

/-! ### Enough for the ledger -/

/-- The reconciliation is enough: no call of a caller that keeps to the plan is refused for lack of
total bytes, and an output pin of the plan's frame and overhead is refused for lack of capacity only
by a session that has used up its pins. -/
structure Enough (plan : CostPlan) (limits : BudgetLimits) : Prop where
  bytes : ∀ owner datasources l₀, Ledger.init owner limits datasources = .ok l₀ →
    ∀ calls : List (Faults × Op), (∀ call ∈ calls, Charges (chargeOf plan) call.2) →
    ∀ op, Charges (chargeOf plan) op → ¬ Short (l₀.run calls) op
  pin : ∀ owner datasources l₀, Ledger.init owner limits datasources = .ok l₀ →
    ∀ calls : List (Faults × Op), (∀ call ∈ calls, Charges (chargeOf plan) call.2) →
    ∀ session, (l₀.run calls).beginOutput session (.int plan.frameBytes)
        (.int plan.outputOverheadBytes) = .error .capacity →
      ∃ index epoch row, (l₀.run calls).entry session = .ok (index, epoch, row) ∧
        row.outputEpoch = maxNumber

/-- `_number` refuses as invalid. -/
theorem number_error {value : Runtime.Budget.Arg} {minimum maximum : Nat} {e : BudgetFailure}
    (h : Runtime.Budget.number value minimum maximum = .error e) : e = .invalid := by
  unfold Runtime.Budget.number at h
  split at h
  · split at h <;> cases h
    rfl
  · cases h
    rfl

/-- A token that names nothing is not refused for lack of capacity. -/
theorem entry_ne_capacity {l : Ledger} {token : Option BudgetToken} :
    l.entry token ≠ .error .capacity := by
  intro h
  rcases bind_eq_error.mp h with hlocate | ⟨⟨index, slot⟩, -, hslot⟩
  · cases token with
    | none => cases hlocate
    | some token =>
        rcases bind_eq_error.mp hlocate with howner | ⟨-, -, hlocate⟩
        · cases (refuseIf_eq_error.mp howner).2
        rcases bind_eq_error.mp hlocate with hindex | ⟨i, -, hlocate⟩
        · cases number_error hindex
        rcases bind_eq_error.mp hlocate with hepoch | ⟨epoch, -, hlocate⟩
        · cases number_error hepoch
        split at hlocate
        · cases hlocate
        · rcases bind_eq_error.mp hlocate with hstate | ⟨-, -, hlocate⟩
          · cases (refuseIf_eq_error.mp hstate).2
          · cases hlocate
  · simp only at hslot
    split at hslot <;> cases hslot

/-- A call on a ledger that is not usable is not refused for lack of capacity. -/
theorem usable_ne_capacity {l : Ledger} {admission : Bool} :
    l.usable admission ≠ .error .capacity := by
  unfold Ledger.usable
  split_ifs <;> simp

/-- A number of the plan passes `_number` as itself. -/
theorem positive_plan {value : Int} (h : 1 ≤ value ∧ value ≤ maxNumber) :
    Runtime.Budget.positive (.int value) = .ok value.toNat := by
  rw [Runtime.Budget.positive, Runtime.Budget.number, if_pos ⟨h.1, h.2⟩]

/-- A pin of the plan's bytes fits a session that carries the plan's charge. -/
theorem pin_fits {plan : CostPlan} {limits : BudgetLimits} (hreconciled : Reconciled plan limits)
    {l : Ledger} (hcharged : AllCharged (chargeOf plan) l.image) {session : Option BudgetToken}
    (h : l.beginOutput session (.int plan.frameBytes) (.int plan.outputOverheadBytes) =
      .error .capacity) :
    ∃ index epoch row, l.entry session = .ok (index, epoch, row) ∧ row.outputEpoch = maxNumber := by
  have hframe := hreconciled.frame
  have hoverhead := hreconciled.overhead
  have hframes := hreconciled.frames
  obtain ⟨cost, hcost, -⟩ := hreconciled.rows .parent limits.sessions (by simp [expected])
  have hminimum := hreconciled.output cost (by simp [hcost])
  have hparent : perSlot plan .parent = cost.bytesPerSlot := by simp [perSlot, hcost]
  have hsum : ((2 * plan.frameBytes.toNat + plan.outputOverheadBytes.toNat : Nat) : Int) =
      2 * plan.frameBytes + plan.outputOverheadBytes := by omega
  rw [Ledger.beginOutput, positive_plan hframe, positive_plan hoverhead] at h
  rcases bind_eq_error.mp h with husable | ⟨-, -, h⟩
  · exact absurd husable usable_ne_capacity
  rcases bind_eq_error.mp h with hbad | ⟨f, hf, h⟩
  · cases hbad
  rcases bind_eq_error.mp h with hbad | ⟨o, ho, h⟩
  · cases hbad
  cases hf
  cases ho
  rcases bind_eq_error.mp h with hbad | ⟨-, -, h⟩
  · rw [← Nat.cast_ofNat, ← Nat.cast_mul, ← Nat.cast_add, hsum, positive_plan ⟨by omega, hframes⟩]
      at hbad
    cases hbad
  rcases bind_eq_error.mp h with hbad | ⟨⟨index, epoch, row⟩, hentry, h⟩
  · exact absurd hbad entry_ne_capacity
  refine ⟨index, epoch, row, hentry, ?_⟩
  rcases bind_eq_error.mp h with hbad | ⟨_, hstate, h⟩
  · cases (refuseIf_eq_error.mp hbad).2
  rcases bind_eq_error.mp h with hbad | ⟨-, -, h⟩
  · -- the parent's charge is the plan's, which covers two frames and the overhead
    have hkind : row.kind = .session := by
      have := refuseIf_eq_ok.mp hstate
      simp only [not_or, not_not] at this
      exact this.1
    have hcharge := (hcharged index epoch row (entry_ok hentry).2).parent hkind
    have hcharge' : (row.parentBytes : Int) = cost.bytesPerSlot := hcharge.trans hparent
    rcases (refuseIf_eq_error.mp hbad).1 with hless | hepoch
    · omega
    · exact hepoch
  · exact absurd h pure_ne_error

/-- **The reconciliation is enough exactly when every mix within the limits fits.** -/
theorem enough_iff {registry : List DomainProfile} {profile : DomainProfile} {plan : CostPlan}
    {limits : BudgetLimits} (h : (reconcile registry profile plan limits).reasons = []) :
    Enough plan limits ↔ MixesFit (chargeOf plan) limits := by
  have hreconciled := reconciled_of_reasons h
  have hrows := hreconciled.toRows
  constructor
  · intro henough
    exact mixesFit_of_neverShort hrows.validCharge
      fun calls hcalls op hop => henough.bytes 0 _ _ (init_holding limits) calls hcalls op hop
  · intro hfit
    refine ⟨fun owner datasources l₀ h₀ calls hcalls op hop hshort => ?_,
      fun owner datasources l₀ h₀ calls hcalls session herror => ?_⟩
    · have hcharging := (charging_init h₀).run hcalls
      obtain ⟨s, n, a, hmix, hover⟩ := hcharging.mix_of_short hop hshort
      exact absurd (hfit s n a hmix) (not_le.mpr hover)
    · exact pin_fits hreconciled ((charging_init h₀).run hcalls).charged herror


/-! ### A generation cheaper than its candidate -/

/-- A profile that proves everything. -/
def provenProfile : DomainProfile where
  object := 2
  name := "proven"
  evidence := "measured"
  memberKind := .asVirtual
  memberQuantity := .virtualAddressSpace
  memberBytes := some 128
  aggregateKind := .strictProven
  aggregateQuantity := .virtualAddressSpace
  aggregateBytes := some 10000
  observedPeakBytes := some 9999
  vectors := List.replicate 10 .domainProven
  maxProcesses := some 16
  maxTasks := some 64
  membersAttachedAtCreation := true
  supervisorAttachedAtCreation := true
  limitsBeforeWork := true
  ownerLossCleanupProven := true

/-- One row per owner, with the two costs that the ledger takes for one. -/
def planWith (candidate generation : Int) : CostPlan where
  quantity := .virtualAddressSpace
  costs :=
    [⟨1, .base, .inDomain, .virtualAddressSpace, 200, 1, none⟩,
     ⟨2, .headroom, .inDomain, .virtualAddressSpace, 100, 1, none⟩,
     ⟨3, .worker, .inDomain, .virtualAddressSpace, 256, 2, none⟩,
     ⟨4, .parent, .inDomain, .virtualAddressSpace, 256, 2, none⟩,
     ⟨5, .candidate, .inDomain, .virtualAddressSpace, candidate, 1, none⟩,
     ⟨6, .generation, .inDomain, .virtualAddressSpace, generation, 2, none⟩,
     ⟨7, .auxiliary, .inDomain, .virtualAddressSpace, 64, 1, none⟩]
  supervisorCostId := 1
  supervisorThreads := 2
  workerThreads := 1
  auxiliaryThreads := 1
  fixedAuxiliaries := 0
  fixedAuxiliaryThreads := 1
  fixedAuxiliaryCostId := none
  frameBytes := 80
  outputOverheadBytes := 40

/-- Limits whose total is the one of `planWith 60 50`. -/
def tightLimits : BudgetLimits where
  totalBytes := 1548
  baseBytes := 200
  headroomBytes := 100
  entries := 8
  sessions := 2
  workers := 2
  candidates := 1
  generations := 2
  auxiliaries := 1
  bytes_range := by decide
  counts_range := by decide
  base_fits := by decide
  counts_le_entries := by decide

/-- Two generations one after the other, a candidate for the next, two sessions. -/
def fullRun : List (Faults × Op) :=
  [({}, .reserveCandidate (.int 0) (.int 60)),
   ({}, .publish (some (tokenAt 0 0 1)) none),
   ({}, .reserveCandidate (.int 0) (.int 60)),
   ({}, .publish (some (tokenAt 0 1 1)) (some (some (tokenAt 0 0 1)))),
   ({}, .reserveCandidate (.int 0) (.int 60)),
   ({}, .reserveSession (some (tokenAt 0 1 1)) (.int 256) (.int 256)),
   ({}, .reserveSession (some (tokenAt 0 1 1)) (.int 256) (.int 256))]

/-- The plan is reconciled with the limits, to the byte. Within every count, the auxiliary of a full
ledger is refused for lack of total bytes: two generations hold sixty each where the plan has
fifty. -/
theorem cheap_generation :
    (reconcile [provenProfile] provenProfile (planWith 60 50) tightLimits).reasons = [] ∧
    ((holding tightLimits []).run fullRun).step {} (.reserveAuxiliary (.int 64)) =
      (.error .capacity, (holding tightLimits []).run fullRun) ∧
    ¬ Enough (planWith 60 50) tightLimits := by
  refine ⟨by decide +kernel, by rfl, fun henough => ?_⟩
  refine henough.bytes 0 _ _ (init_holding tightLimits) fullRun ?_ (.reserveAuxiliary (.int 64)) rfl
    ?_
  · simp [fullRun, Charges, chargeOf, perSlot, planWith, CostPlan.ownedBy]
  · refine ⟨_, _, rfl, ⟨?_, ?_, ?_, ?_⟩, ?_⟩ <;> decide

/-- A candidate cheaper than its generation, in the same limits. -/
theorem enough_iff_cheap_candidate : Enough (planWith 48 50) tightLimits := by
  have hreasons :
      (reconcile [provenProfile] provenProfile (planWith 48 50) tightLimits).reasons = [] := by
    decide +kernel
  exact (enough_iff hreasons).mpr
    (mixesFit_of_le (reconciled_of_reasons hreasons).toRows (by decide))

/-! ### The shipped registry -/

/-- With the shipped registry no verdict is without reasons: its two profiles are not ready, and no
other is known. -/
theorem shipped_not_ready {profile : DomainProfile}
    (h : profile ∈ shipped ∨ known shipped profile = false) (plan : CostPlan)
    (limits : BudgetLimits) : (reconcile shipped profile plan limits).reasons ≠ [] := by
  intro hreasons
  have hprofile := (parts_of_reasons hreasons).2.1
  rcases h with hmem | hknown
  · rcases List.mem_cons.mp hmem with rfl | hmem
    · exact absurd hprofile (by decide)
    · rw [List.mem_singleton.mp hmem] at hprofile
      exact absurd hprofile (by decide)
  · simp [profileReasons, hknown, whenever] at hprofile

end MaskGateway.Proofs.Domain
