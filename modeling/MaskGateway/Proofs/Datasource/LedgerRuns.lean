import MaskGateway.Proofs.Datasource.Supervisor

/-!
# `MaskGateway.Proofs.Datasource.LedgerRuns`: what the ledger promises

`children_accounted` is the principal theorem. In every state of every run the slots and the records add up
to the capacity, and every claim has its call (`Sound`); over every event a record leaves only by the
holder of its claim, with nothing left of its child (`Keeps`); and a supervisor that refuses gets no
record any more (`Stays`). A verification that returns had a child that ended in time when no child
ended late while its verification was in `process.wait` (`inTime`). `late_child` is a run without that
condition.
-/

set_option autoImplicit false

namespace MaskGateway.Proofs.Datasource.Ledger

open Lib MaskGateway.Datasource.Verify
open MaskGateway.Proofs.Datasource.Child

/-- What holds in every state. -/
structure Sound (accepts : List UInt8 → Bool) (capacity : Nat) (m : Machine) : Prop where
  slots : m.slots + m.records.length = capacity
  nodup : m.records.Nodup
  /-- a call that reaps a record has claimed it, with the token of its verification when in flight -/
  reaping : ∀ c holding r deadline pc, m.calls c = .reaping holding r deadline pc →
    r ∈ m.records ∧ (m.record r).claimer = some ⟨c, holding.isOwn⟩ ∧
      (m.record r).inFlight = holding.isOwn
  /-- no record has two of them -/
  alone : ∀ c c' holding holding' r deadline deadline' pc pc',
    m.calls c = .reaping holding r deadline pc → m.calls c' = .reaping holding' r deadline' pc' →
      c = c'
  /-- the call that took a claim still has the record in its hands -/
  claim : ∀ r token, (m.record r).claimer = some token →
    holds (m.calls token.call) = some (r, token.own)
  closed : ∀ s, m.closed s = true → m.closing s = true ∧ ∀ r ∈ m.records, (m.record r).owner ≠ s
  /-- what was released was released once, and is gone -/
  released : m.released.Nodup ∧ ∀ r ∈ m.released, r ∉ m.records ∧ Gone (m.resources r)
  verified : ∀ c r, m.calls c = .finished (.verified r) →
    r ∈ m.released ∧ Approved accepts (m.resources r)

/-- What holds over every event. -/
structure Keeps (m : Machine) (e : Datasource.Verify.Event) (m' : Machine) : Prop where
  /-- only the holder of the claim removes a record, with its slot -/
  leaves : ∀ r ∈ m.records, r ∉ m'.records → ∃ c answer holding raised, e = .step c answer ∧
    m.calls c = .settling holding r true raised ∧
      (m.record r).claimer = some ⟨c, holding.isOwn⟩ ∧ Gone (m.resources r) ∧
        m'.slots = m.slots + 1 ∧ m'.released = r :: m.released
  /-- a record that is admitted is a new one, in flight, and its supervisor does not refuse -/
  admits : ∀ r ∈ m'.records, r ∉ m.records → ∃ c answer, e = .step c answer ∧ r = m.count ∧
    m.closing (m'.record r).owner = false ∧ (m'.record r).inFlight = true ∧
      (m'.record r).claimer = some ⟨c, true⟩
  owner : ∀ r ∈ m.records, (m'.record r).owner = (m.record r).owner
  /-- the token of a verification is given with its record only -/
  own : ∀ r c, (m'.record r).claimer = some ⟨c, true⟩ →
    (m.record r).claimer = some ⟨c, true⟩ ∨ r ∉ m.records
  closing : ∀ s, m.closing s = true → m'.closing s = true
  closed : ∀ s, m.closed s = true → m'.closed s = true

/-- A supervisor that refuses gets no record any more, and one that is closed stays so. -/
structure Stays (m m' : Machine) : Prop where
  closing : ∀ s, m.closing s = true → m'.closing s = true ∧
    ∀ r ∈ m'.records, (m'.record r).owner = s → r ∈ m.records ∧ (m.record r).owner = s
  closed : ∀ s, m.closed s = true → m'.closed s = true

section
variable {accepts : List UInt8 → Bool} {capacity : Nat} {m m' : Machine}
  {e : Datasource.Verify.Event}

/-- The invariant says it of the state. -/
theorem Inv.sound (h : Inv accepts capacity m) : Sound accepts capacity m where
  slots := h.slots
  nodup := h.nodup
  reaping c holding r deadline pc hpc := h.hold c r _ (by rw [hpc]; rfl)
  alone c c' holding holding' r deadline deadline' pc pc' hpc hpc' :=
    by
    have hhold : holds (m.calls c) = some (r, holding.isOwn) := by rw [hpc]; rfl
    exact (h.alone hhold (by rw [hpc']; rfl)).symm
  claim := h.claim
  closed := h.closed
  released := ⟨h.once, fun r hr => ⟨((h.released r).mp hr).2, h.gone r hr⟩⟩
  verified c r hpc := by
    have hknows := h.knows c
    rw [hpc] at hknows
    exact hknows

/-- An event that touches no record and lets no supervisor go. -/
theorem keeps_still (hrecords : m'.records = m.records) (hrecord : m'.record = m.record)
    (hclosing : ∀ s, m.closing s = true → m'.closing s = true)
    (hclosed : ∀ s, m.closed s = true → m'.closed s = true) : Keeps m e m' where
  leaves r hr hnot := absurd (hrecords ▸ hr) hnot
  admits r hr hnot := absurd (hrecords ▸ hr) hnot
  owner r _ := by rw [hrecord]
  own r c hown := .inl (hrecord ▸ hown)
  closing := hclosing
  closed := hclosed

/-- The holder of a claim settles its record. -/
theorem keeps_settle (hinv : Inv accepts capacity m) {c : CallId} {answer : Answer}
    {holding : Holding} {r : RecordId} {reaped raised : Bool} {pc : Pc}
    (hfrom : m.calls c = .settling holding r reaped raised) :
    Keeps m (.step c answer) ((m.settle r ⟨c, holding.isOwn⟩ reaped).goto c pc) := by
  have hknows := hinv.knows c
  rw [hfrom] at hknows
  obtain ⟨hmem, hclaim, -⟩ := hinv.hold c r holding.isOwn (by rw [hfrom]; rfl)
  have howner : ∀ r', (Function.update m.record r
      { m.record r with inFlight := false, claimer := none } r').owner = (m.record r').owner := by
    intro r'
    by_cases hr : r' = r
    · subst hr
      rw [Function.update_self]
    · rw [Function.update_of_ne hr]
  have hown : ∀ r' c', (Function.update m.record r
      { m.record r with inFlight := false, claimer := none } r').claimer = some ⟨c', true⟩ →
        (m.record r').claimer = some ⟨c', true⟩ := by
    intro r' c' ht
    by_cases hr : r' = r
    · subst hr
      rw [Function.update_self] at ht
      exact nomatch ht
    · rw [Function.update_of_ne hr] at ht
      exact ht
  rw [Machine.settle, if_neg (not_not.mpr hclaim)]
  dsimp only
  cases reaped with
  | false =>
      rw [if_pos (.inl rfl)]
      exact
        { leaves := fun r' hr' hnot => absurd hr' hnot
          admits := fun r' hr' hnot => absurd hr' hnot
          owner := fun r' _ => howner r'
          own := fun r' c' ht => .inl (hown r' c' ht)
          closing := fun _ hs => hs
          closed := fun _ hs => hs }
  | true =>
      rw [if_neg (by
        rw [not_or]
        exact ⟨by decide, not_not.mpr hmem⟩)]
      exact
        { leaves := fun r' hr' hnot => by
            have heq : r' = r := by
              by_contra hne
              exact hnot ((List.mem_erase_of_ne hne).mpr hr')
            subst heq
            exact ⟨c, answer, holding, raised, rfl, hfrom, hclaim, hknows.1 rfl, rfl, rfl⟩
          admits := fun r' hr' hnot => absurd (List.mem_of_mem_erase hr') hnot
          owner := fun r' _ => howner r'
          own := fun r' c' ht => .inl (hown r' c' ht)
          closing := fun _ hs => hs
          closed := fun _ hs => hs }

/-- A verification takes a slot and adopts its record. -/
theorem keeps_enter (hinv : Inv accepts capacity m) {c : CallId} {answer : Answer}
    {s : SupervisorId} {timeout : Nat} : Keeps m (.step c answer) (m.enter c s timeout) := by
  rw [Machine.enter]
  split
  next => exact keeps_still rfl rfl (fun _ hs => hs) (fun _ hs => hs)
  next hopen =>
    rw [not_or, Bool.not_eq_true] at hopen
    have hold : ∀ r ∈ m.records, r ≠ m.count := by
      rintro r hr rfl
      exact absurd (hinv.count _ hr) (Nat.lt_irrefl _)
    exact
      { leaves := fun r hr hnot => absurd (List.mem_append_left _ hr) hnot
        admits := fun r hr hnot => by
          rcases List.mem_append.mp hr with hr | hr
          · exact absurd hr hnot
          · obtain rfl := List.mem_singleton.mp hr
            have hself : Function.update m.record m.count ⟨s, true, some ⟨c, true⟩⟩ m.count =
              ⟨s, true, some ⟨c, true⟩⟩ := Function.update_self ..
            refine ⟨c, answer, rfl, rfl, ?_, ?_, ?_⟩
            · exact (congrArg m.closing (congrArg ChildRecord.owner hself)).trans hopen.1
            · exact congrArg ChildRecord.inFlight hself
            · exact congrArg ChildRecord.claimer hself
        owner := fun r hr => congrArg ChildRecord.owner (Function.update_of_ne (hold r hr) ..)
        own := fun r c' ht => by
          by_cases hr : r = m.count
          · exact .inr fun hmem => hold r hmem hr
          · change (Function.update m.record m.count _ r).claimer = _ at ht
            rw [Function.update_of_ne hr] at ht
            exact .inl ht
        closing := fun _ hs => hs
        closed := fun _ hs => hs }

/-- Every event keeps the promises. -/
theorem keeps_of_change (hinv : Inv accepts capacity m) (h : Change accepts m e m') :
    Keeps m e m' := by
  cases h with
  | refuse e c s pc _ _ _ =>
      refine keeps_still rfl rfl (fun s' hs => ?_) (fun _ hs => hs)
      show Function.update m.closing s true s' = true
      by_cases hs' : s' = s
      · subst hs'
        exact Function.update_self ..
      · rw [Function.update_of_ne hs']
        exact hs
  | claim c answer frame r hfrom hmem hflight hfree =>
      have hother : ∀ r', r' ≠ r → Function.update m.record r
          { m.record r with claimer := some ⟨c, false⟩ } r' = m.record r' :=
        fun r' hr' => Function.update_of_ne hr' ..
      have hself : Function.update m.record r
          { m.record r with claimer := some ⟨c, false⟩ } r =
            { m.record r with claimer := some ⟨c, false⟩ } := Function.update_self ..
      exact
        { leaves := fun r' hr' hnot => absurd hr' hnot
          admits := fun r' hr' hnot => absurd hr' hnot
          owner := fun r' _ => by
            show (Function.update m.record r _ r').owner = _
            by_cases hr : r' = r
            · subst hr
              rw [hself]
            · rw [hother r' hr]
          own := fun r' c' ht => by
            change (Function.update m.record r _ r').claimer = _ at ht
            by_cases hr : r' = r
            · subst hr
              rw [hself] at ht
              exact absurd (congrArg Token.own (Option.some.inj ht)) Bool.false_ne_true
            · rw [hother r' hr] at ht
              exact .inl ht
          closing := fun _ hs => hs
          closed := fun _ hs => hs }
  | settle c answer holding r reaped raised hfrom => exact keeps_settle hinv hfrom
  | enter c answer s timeout _ => exact keeps_enter hinv
  | confirm c answer s remaining result _ hremaining _ =>
      refine keeps_still rfl rfl (fun _ hs => hs) (fun s' hs => ?_)
      show Function.update m.closed s (!remaining) s' = true
      by_cases hs' : s' = s
      · -- a supervisor that was closed owns no record
        subst hs'
        rw [Function.update_self, ← hremaining, Bool.not_eq_true', List.any_eq_false]
        intro r hr
        simpa using (hinv.closed s' hs).2 r hr
      · rw [Function.update_of_ne hs']
        exact hs
  | _ => exact keeps_still rfl rfl (fun _ hs => hs) (fun _ hs => hs)

/-- Nothing changes without an event. -/
theorem Stays.refl (m : Machine) : Stays m m where
  closing _ hs := ⟨hs, fun _ hr howner => ⟨hr, howner⟩⟩
  closed _ hs := hs

/-- Two stretches of a run are one. -/
theorem Stays.trans {m₁ m₂ m₃ : Machine} (h : Stays m₁ m₂) (h' : Stays m₂ m₃) : Stays m₁ m₃ where
  closing s hs := by
    obtain ⟨hs₂, hback⟩ := h.closing s hs
    obtain ⟨hs₃, hback'⟩ := h'.closing s hs₂
    refine ⟨hs₃, fun r hr howner => ?_⟩
    obtain ⟨hr₂, howner₂⟩ := hback' r hr howner
    exact hback r hr₂ howner₂
  closed s hs := h'.closed s (h.closed s hs)

/-- What holds over an event. -/
theorem Keeps.stays (h : Keeps m e m') : Stays m m' where
  closing s hs := by
    refine ⟨h.closing s hs, fun r hr howner => ?_⟩
    have hmem : r ∈ m.records := by
      by_contra hnew
      obtain ⟨c, answer, -, -, hopen, -⟩ := h.admits r hr hnew
      rw [howner, hs] at hopen
      exact nomatch hopen
    exact ⟨hmem, (h.owner r hmem).symm.trans howner⟩
  closed := h.closed

/-- The invariants hold at the start. -/
theorem inv_init (accepts : List UInt8 → Bool) (capacity : Nat) :
    Inv accepts capacity { slots := capacity } ∧ Shut { slots := capacity } where
  left :=
    { slots := rfl
      nodup := .nil
      count := fun _ hr => nomatch hr
      claim := fun _ _ ht => nomatch ht
      hold := fun _ _ _ hr => nomatch hr
      flight := fun _ hr => nomatch hr
      closed := fun _ hs => nomatch hs
      once := .nil
      released := fun r => ⟨fun hr => (nomatch hr), fun hr => absurd hr.1 (Nat.not_lt_zero r)⟩
      fresh := fun _ _ => ⟨rfl, rfl⟩
      valid := fun _ => ⟨fun _ hp => (nomatch hp), fun _ => ⟨rfl, rfl⟩⟩
      gone := fun _ hr => nomatch hr
      knows := fun _ => trivial }
  right _ _ hs := nomatch hs

/-- Every event keeps the invariants. -/
theorem inv_step (h : Inv accepts capacity m ∧ Shut m)
    (hstep : Machine.step accepts m e = some m') : Inv accepts capacity m' ∧ Shut m' :=
  ⟨inv_of_change h.1 h.2 (change_of_step hstep), shut_of_change h.2 (change_of_step hstep)⟩

/-- In every run slots and records add up to the capacity, every record is with one call at most, a
record leaves with its slot when its holder finds nothing left of its child, and a supervisor that
refuses gets no more. A verification that returns had a child with exit code zero, no error, and an
accepted output; and the child had ended in time, when no child ended after its deadline while its
verification was in `process.wait`. -/
theorem children_accounted (accepts : List UInt8 → Bool) (capacity : Nat)
    {events : List Datasource.Verify.Event} {m : Machine}
    (hrun : run (Machine.step accepts) { slots := capacity } events = some m) :
    Sound accepts capacity m ∧
      (∀ e m', Machine.step accepts m e = some m' → Keeps m e m') ∧
      (∀ later m', run (Machine.step accepts) m later = some m' → Stays m m') ∧
      (run (guarded (Machine.step accepts) inTime) { slots := capacity } events = some m →
        ∀ c r, m.calls c = .finished (.verified r) → ∃ deadline time,
          (m.resources r).deadline = some deadline ∧ exitOf (m.resources r) = some (0, time) ∧
            time ≤ deadline) := by
  have hinv := run_invariant (fun hinv hstep => inv_step hinv hstep) hrun
    (inv_init accepts capacity)
  refine ⟨hinv.1.sound, ?_, ?_, ?_⟩
  · exact fun e m' hstep => keeps_of_change hinv.1 (change_of_step hstep)
  · intro later m' hlater
    exact run_relates (fun hinv hstep => inv_step hinv hstep) Stays.refl Stays.trans
      (fun hinv hstep => (keeps_of_change hinv.1 (change_of_step hstep)).stays) hlater hinv
  · intro hmeets c r hverified
    have htime : OnTime m := by
      have hboth := run_invariant (P := fun m => (Inv accepts capacity m ∧ Shut m) ∧ OnTime m)
        (fun hboth hstep => by
          obtain ⟨hmeets, hstep⟩ := guarded_eq_some.mp hstep
          exact ⟨inv_step hboth.1 hstep,
            onTime_of_change hboth.2 hboth.1.1 hmeets (change_of_step hstep)⟩) hmeets
        ⟨inv_init accepts capacity, fun _ _ _ ht => (nomatch ht), fun _ _ ht => nomatch ht⟩
      exact hboth.2
    obtain ⟨-, happroved⟩ := hinv.1.sound.verified c r hverified
    obtain ⟨deadline, hdeadline⟩ := Option.isSome_iff_exists.mp happroved.completed.1
    obtain ⟨time, hexit⟩ := happroved.code
    have htimely := htime.timely c r (by rw [hverified]; rfl)
    exact ⟨deadline, time, hdeadline, hexit, htimely deadline 0 time hdeadline hexit⟩

end

/-- A call that returns. -/
def ok : Answer := ⟨true, .returned⟩

/-- One verification with one millisecond to go, up to `process.wait`, with both pumps at their end. -/
def verification : List Datasource.Verify.Event :=
  [.start 0 (.verify 0 100 1), .step 0 ok, .step 0 ok, .step 0 ok, .step 0 ok,
    .spawn 0 (some (some ⟨true, some false, some false, none⟩)) .returned,
    .step 0 ok, .step 0 ok, .step 0 ok, .step 0 ok, .step 0 ok, .step 0 ok, .step 0 ok, .step 0 ok,
    .pump 0 0 .enter, .pump 0 0 .close, .pump 0 0 .leave, .pump 0 0 .finish, .pump 0 0 .die,
    .pump 0 1 .enter, .pump 0 1 .close, .pump 0 1 (.output []), .pump 0 1 .leave,
    .pump 0 1 .finish, .pump 0 1 .die]

/-- `process.wait` returns, and the verification reaps its child. -/
def conclusion : List Datasource.Verify.Event := List.replicate 15 (.step 0 ok)

/-- The first call has verified the first record. -/
def served (m : Machine) : Bool :=
  match m.calls 0 with
  | .finished (.verified 0) => true
  | _ => false

/-- The first call returns. -/
theorem verified_of_served {m : Machine} (h : served m = true) : m.calls 0 = .finished (.verified 0) := by
  rw [served] at h
  split at h
  next hpc => exact hpc
  next => exact nomatch h

/-- A verification whose child ends in time. -/
theorem children_accounted_served : ∃ m : Machine, m.calls 0 = .finished (.verified 0) ∧
    Sound (fun _ => true) 1 m ∧ ∃ deadline time, (m.resources 0).deadline = some deadline ∧
      exitOf (m.resources 0) = some (0, time) ∧ time ≤ deadline := by
  have hserved : (run (guarded (Machine.step fun _ => true) inTime) { slots := 1 }
      (verification ++ .exits 0 0 :: conclusion)).any served = true := by decide
  obtain ⟨m, hmeets, hm⟩ := (Option.any_eq_true _ _).mp hserved
  obtain ⟨hsound, -, -, htime⟩ := children_accounted (fun _ => true) 1 (run_of_guarded hmeets)
  have hverified := verified_of_served hm
  exact ⟨m, hverified, hsound, htime hmeets 0 0 hverified⟩

/-- A child that ends after the deadline, while `process.wait` returns: the verification returns. -/
theorem late_child : ¬ ∀ (accepts : List UInt8 → Bool) (capacity : Nat)
    (events : List Datasource.Verify.Event) (m : Machine),
    run (Machine.step accepts) { slots := capacity } events = some m →
      ∀ c r, m.calls c = .finished (.verified r) → Timely (m.resources r) := by
  intro hclaim
  have hserved : (run (Machine.step fun _ => true) { slots := 1 }
      (verification ++ .tick :: .tick :: .exits 0 0 :: conclusion)).any (fun m => served m &&
        (m.resources 0).deadline == some 1 && exitOf (m.resources 0) == some (0, 2)) = true := by
    decide
  obtain ⟨m, hrun, hm⟩ := (Option.any_eq_true _ _).mp hserved
  simp only [Bool.and_eq_true, beq_iff_eq] at hm
  obtain ⟨⟨hverified, hdeadline⟩, hexit⟩ := hm
  have hlate := hclaim _ 1 _ m hrun 0 0 (verified_of_served hverified) 1 0 2 hdeadline hexit
  exact absurd hlate (by decide)

end MaskGateway.Proofs.Datasource.Ledger
