import MaskGateway.Proofs.Datasource.Documents
import MaskGateway.Proofs.Datasource.Steps

/-!
# `MaskGateway.Proofs.Datasource.Planning`: what a recovery may write

`open` and `recover_master_key_rotation` decide what to write from three files that anyone may have
changed. `planRecovery_cases` and `determineRotation_cases` say once what a plan can be and what the
files held then. From them: the anchor is written at most once, only to take it from the old state
of an authenticated journal to the new state that the store already has
(`recovery_guards_anchor`); so its revision never goes down. A store that no given key
authenticates makes both calls raise before anything is written.
-/

set_option autoImplicit false

namespace MaskGateway.Proofs.Datasource

open MaskGateway.Datasource MaskGateway.Lib

variable {v : Validators} {crypto : Crypto}

/-! ### The plan of `open` -/

/-- Both roles of a journal are the same when it is no rotation. -/
theorem roles_of_not_rotation {journal : Journal} {key : Key}
    (hrotation : journal.isRotation = false)
    (h : ¬ ((journalRoles crypto journal key).1 = false ∧
      (journalRoles crypto journal key).2 = false)) :
    (journalRoles crypto journal key).1 = true ∧ (journalRoles crypto journal key).2 = true := by
  have htags : journal.oldAuthTag = journal.newAuthTag := by
    simpa [Journal.isRotation] using hrotation
  simp only [journalRoles, htags] at h ⊢
  cases hrole : crypto.tag key journal.payload == journal.newAuthTag with
  | true => exact ⟨rfl, rfl⟩
  | false => exact absurd ⟨hrole, hrole⟩ h

/-- `_parse_journal` lets a document through under a key that has one of its roles. -/
theorem parseJournal_ok {data : Content} {key : Key} {journal : Journal} {roles : Bool × Bool} :
    parseJournal crypto data key = .ok (journal, roles) ↔
      parseJournalDocument data = .ok journal ∧ roles = journalRoles crypto journal key ∧
        ¬ ((journalRoles crypto journal key).1 = false ∧
          (journalRoles crypto journal key).2 = false) := by
  simp only [parseJournal, bind_eq_ok, pure_eq_ok, refuseIf_eq_ok]
  constructor
  · rintro ⟨journal', hparse, -, hroles, heq⟩
    cases heq
    exact ⟨hparse, rfl, hroles⟩
  · rintro ⟨hparse, rfl, hroles⟩
    exact ⟨journal, hparse, (), hroles, rfl⟩

/-- A store that a key authenticates is one that parses under it. -/
theorem authenticatedOrNone_some {data : Content} {key : Key} {catalog : ParsedCatalog v} :
    authenticatedOrNone v crypto data key = .ok (some catalog) ↔
      parseCatalog v crypto data key = .ok catalog := by
  rw [authenticatedOrNone]
  cases parseCatalog v crypto data key with
  | ok parsed => simp
  | error error => by_cases h : error.kind = .key <;> simp [h]

/-- The two plans that one key can make of the journal of a rotation. -/
theorem planRotation_cases {store : Option Content} {anchorState : Option State} {key : Key}
    {journal : Journal} {asOld asNew : Bool} {plan : RecoveryPlan}
    (h : planRotationWithSingleKey v crypto store anchorState key journal asOld asNew = .ok plan) :
    ∃ data catalog oldState, store = some data ∧ parseCatalog v crypto data key = .ok catalog ∧
      journal.oldState = some oldState ∧
      ((asOld = true ∧ catalog.state = oldState ∧ anchorState = some oldState ∧
          plan = ⟨none, false⟩) ∨
        (asNew = true ∧ catalog.state = journal.newState ∧
          anchorState = some journal.newState ∧ plan = ⟨none, true⟩)) := by
  simp only [planRotationWithSingleKey, bind_eq_ok] at h
  obtain ⟨parsed, hparsed, h⟩ := h
  cases parsed with
  | none => simp at h
  | some catalog =>
      cases hold : journal.oldState with
      | none => simp [hold] at h
      | some oldState =>
          simp only [hold] at h
          have hstore : ∃ data, store = some data ∧ parseCatalog v crypto data key = .ok catalog := by
            cases store with
            | none => cases hparsed
            | some data =>
                exact ⟨data, rfl, authenticatedOrNone_some.mp hparsed⟩
          obtain ⟨data, hdata, hparse⟩ := hstore
          refine ⟨data, catalog, oldState, hdata, hparse, rfl, ?_⟩
          split at h
          · rename_i hcase
            rw [pure_eq_ok] at h
            exact Or.inl ⟨hcase.1, hcase.2.1, hcase.2.2, h.symm⟩
          · split at h
            · rename_i hcase
              rw [pure_eq_ok] at h
              exact Or.inr ⟨hcase.1, hcase.2.1, hcase.2.2, h.symm⟩
            · simp at h

/-- The three rows of the table of `_plan_recovery`. -/
theorem allowedTransition_cases {journal : Journal} {storeState anchorState : Option State}
    {advance : Option Anchor}
    (h : allowedTransition journal storeState anchorState = some advance) :
    (storeState = journal.oldState ∧ anchorState = journal.oldState ∧ advance = none) ∨
    (storeState = some journal.newState ∧ anchorState = journal.oldState ∧
      advance = some (Anchor.ofState journal.newState)) ∨
    (storeState = some journal.newState ∧ anchorState = some journal.newState ∧
      advance = none) := by
  rw [allowedTransition] at h
  split at h
  · rename_i hrow
    cases h
    exact Or.inl ⟨hrow.1, hrow.2, rfl⟩
  · split at h
    · rename_i hrow
      cases h
      exact Or.inr (Or.inl ⟨hrow.1, hrow.2, rfl⟩)
    · split at h
      · rename_i hrow
        cases h
        exact Or.inr (Or.inr ⟨hrow.1, hrow.2, rfl⟩)
      · cases h

/-- **What a plan of `open` can be**, and what the files held. -/
theorem planRecovery_cases {disk : Disk} {key : Key} {plan : RecoveryPlan}
    (h : planRecovery v crypto disk key = .ok (some plan)) :
    ∃ data journal anchorState, disk.journal = some data ∧
      parseJournalDocument data = .ok journal ∧
      optionalAnchorState disk.anchor = .ok anchorState ∧
      ((journal.isRotation = true ∧
          planRotationWithSingleKey v crypto disk.store anchorState key journal
            (journalRoles crypto journal key).1 (journalRoles crypto journal key).2 = .ok plan) ∨
        (journal.isRotation = false ∧ (journalRoles crypto journal key).1 = true ∧
          (journalRoles crypto journal key).2 = true ∧ plan.purgeBackups = false ∧
          ∃ storeState, optionalStoreState v crypto disk.store key = .ok storeState ∧
            allowedTransition journal storeState anchorState = some plan.advanceAnchor)) := by
  rw [planRecovery] at h
  cases hjournal : disk.journal with
  | none =>
      rw [hjournal] at h
      cases h
  | some data =>
      rw [hjournal] at h
      simp only [bind_eq_ok] at h
      obtain ⟨⟨journal, roles⟩, hparse, anchorState, hanchor, h⟩ := h
      obtain ⟨hdocument, rfl, hroles⟩ := parseJournal_ok.mp hparse
      refine ⟨data, journal, anchorState, rfl, hdocument, hanchor, ?_⟩
      cases hrotation : journal.isRotation with
      | true =>
          simp only [hrotation, if_true, bind_eq_ok, pure_eq_ok, Option.some.injEq] at h
          obtain ⟨plan', hplan, rfl⟩ := h
          exact Or.inl ⟨rfl, hplan⟩
      | false =>
          simp only [hrotation, Bool.false_eq_true, if_false, bind_eq_ok] at h
          obtain ⟨storeState, hstore, h⟩ := h
          obtain ⟨hold, hnew⟩ := roles_of_not_rotation hrotation hroles
          cases hallowed : allowedTransition journal storeState anchorState with
          | none => simp [hallowed] at h
          | some advance =>
              simp only [hallowed, pure_eq_ok, Option.some.injEq] at h
              subst h
              exact Or.inr ⟨rfl, hold, hnew, rfl, storeState, hstore, hallowed⟩

/-! ### The plan of `recover_master_key_rotation` -/

/-- The state of the journal that the store represents, under the key of that state. -/
theorem confirmedBy_cases {oldState newState : State} {byOld byNew : Option (ParsedCatalog v)}
    {oldKey newKey : Key} {role : KeyRole} {confirmed : ParsedCatalog v} {key : Key}
    (h : confirmedBy v oldState newState byOld byNew oldKey newKey = .ok (role, confirmed, key)) :
    (role = .old ∧ key = oldKey ∧ byOld = some confirmed ∧ confirmed.state = oldState) ∨
    (role = .new ∧ key = newKey ∧ byNew = some confirmed ∧ confirmed.state = newState) := by
  rw [confirmedBy] at h
  split at h
  · rename_i parsed hfilter
    cases h
    rw [Option.filter_eq_some_iff, beq_iff_eq] at hfilter
    exact Or.inl ⟨rfl, rfl, hfilter.1, hfilter.2⟩
  · split at h
    · rename_i parsed hfilter
      cases h
      rw [Option.filter_eq_some_iff, beq_iff_eq] at hfilter
      exact Or.inr ⟨rfl, rfl, hfilter.1, hfilter.2⟩
    · cases h

/-- What was found on a disk without a journal. -/
structure FoundSettled (v : Validators) (crypto : Crypto) (disk : Disk) (oldKey newKey : Key)
    (found : RotationDetermination v) (data : Content) (anchor : Anchor) : Prop where
  absent : disk.journal = none
  plan : found.plan = none
  key : found.confirmedKey = oldKey ∨ found.confirmedKey = newKey
  parse : parseCatalog v crypto data found.confirmedKey = .ok found.confirmed
  agrees : found.confirmed.state = anchor.state

/-- What was found on a disk with the journal of a rotation. -/
structure FoundPending (v : Validators) (crypto : Crypto) (disk : Disk) (oldKey newKey : Key)
    (found : RotationDetermination v) (data journalData : Content) (anchor : Anchor)
    (journal : Journal) (oldState : State) : Prop where
  present : disk.journal = some journalData
  document : parseJournalDocument journalData = .ok journal
  asOld : (journalRoles crypto journal oldKey).1 = true
  asNew : (journalRoles crypto journal newKey).2 = true
  before : journal.oldState = some oldState
  parse : parseCatalog v crypto data found.confirmedKey = .ok found.confirmed
  cases : (found.confirmedKey = oldKey ∧ found.status.confirmedKey = .old ∧
      found.confirmed.state = oldState ∧ anchor.state = oldState ∧
      found.plan = some ⟨none, false⟩) ∨
    (found.confirmedKey = newKey ∧ found.status.confirmedKey = .new ∧
      found.confirmed.state = journal.newState ∧
      ((anchor.state = oldState ∧
          found.plan = some ⟨some (Anchor.ofState journal.newState), true⟩) ∨
        (anchor.state = journal.newState ∧ found.plan = some ⟨none, true⟩)))

/-- **What `_determine_rotation` can find.** -/
theorem determineRotation_cases {disk : Disk} {oldKey newKey : Key}
    {found : RotationDetermination v}
    (h : determineRotation v crypto disk oldKey newKey = .ok found) :
    ∃ data anchorData anchor, disk.store = some data ∧ disk.anchor = some anchorData ∧
      parseAnchor anchorData = .ok anchor ∧
      (FoundSettled v crypto disk oldKey newKey found data anchor ∨
        ∃ journalData journal oldState,
          FoundPending v crypto disk oldKey newKey found data journalData anchor journal
            oldState) := by
  rw [determineRotation] at h
  cases hstore : disk.store with
  | none => simp [hstore] at h
  | some data =>
    cases hanchorData : disk.anchor with
    | none => simp [hstore, hanchorData] at h
    | some anchorData =>
      simp only [hstore, hanchorData, bind_eq_ok] at h
      obtain ⟨anchor, hanchor, byOld, hbyOld, byNew, hbyNew, -, -, h⟩ := h
      refine ⟨data, anchorData, anchor, rfl, rfl, hanchor, ?_⟩
      cases hjournal : disk.journal with
      | none =>
          left
          simp only [hjournal, determineWithoutJournal, bind_eq_ok, refuseIf_eq_ok, not_not,
            pure_eq_ok] at h
          obtain ⟨⟨role, confirmed, key⟩, hkey, -, hstate, -, -, rfl⟩ := h
          cases byOld with
          | some parsed =>
              cases hkey
              exact ⟨hjournal, rfl, Or.inl rfl, authenticatedOrNone_some.mp hbyOld, hstate⟩
          | none =>
              cases byNew with
              | some parsed =>
                  cases hkey
                  exact ⟨hjournal, rfl, Or.inr rfl, authenticatedOrNone_some.mp hbyNew, hstate⟩
              | none => cases hkey
      | some journalData =>
          right
          simp only [hjournal, bind_eq_ok, refuseIf_eq_ok, not_not] at h
          obtain ⟨journal, hdocument, -, -, -, -, -, hroles, h⟩ := h
          cases holdState : journal.oldState with
          | none => simp [holdState] at h
          | some oldState =>
              simp only [holdState, bind_eq_ok, pure_eq_ok] at h
              obtain ⟨⟨role, confirmed, key⟩, hconfirmed, advance, htransition, -, -, rfl⟩ := h
              have hparse : parseCatalog v crypto data key = .ok confirmed := by
                rcases confirmedBy_cases hconfirmed with ⟨-, rfl, rfl, -⟩ | ⟨-, rfl, rfl, -⟩
                · exact authenticatedOrNone_some.mp hbyOld
                · exact authenticatedOrNone_some.mp hbyNew
              refine ⟨journalData, journal, oldState, hjournal, hdocument, hroles.1, hroles.2,
                holdState, hparse, ?_⟩
              rcases confirmedBy_cases hconfirmed with ⟨rfl, rfl, -, hst⟩ | ⟨rfl, rfl, -, hst⟩
              · rw [rotationTransition, ite_else_error_eq_ok] at htransition
                obtain ⟨ha, hadv⟩ := htransition
                cases hadv
                exact Or.inl ⟨rfl, rfl, hst, ha, rfl⟩
              · rw [rotationTransition] at htransition
                split at htransition
                · rename_i ha
                  cases htransition
                  exact Or.inr ⟨rfl, rfl, hst, Or.inl ⟨ha, rfl⟩⟩
                · rw [ite_else_error_eq_ok] at htransition
                  obtain ⟨ha, hadv⟩ := htransition
                  cases hadv
                  exact Or.inr ⟨rfl, rfl, hst, Or.inr ⟨ha, rfl⟩⟩

/-! ### What the two calls write -/

/-- The plan that `open` runs. -/
def openPlan (v : Validators) (crypto : Crypto) (disk : Disk) (key : Key) : Option RecoveryPlan :=
  match planRecovery v crypto disk key with
  | .ok plan => plan
  | .error _ => none

/-- The plan that `recover_master_key_rotation` runs. -/
def recoverPlan (v : Validators) (crypto : Crypto) (disk : Disk) (oldKey newKey : Key) :
    Option RecoveryPlan :=
  if oldKey = newKey then none
  else
    match determineRotation v crypto disk oldKey newKey with
    | .ok found => found.plan
    | .error _ => none

/-- The steps of a plan, if there is one. -/
def planSteps (plan : Option RecoveryPlan) : List Step :=
  plan.elim [] RecoveryPlan.steps

theorem applyRecovery_eq (plan : Option RecoveryPlan) (faults : Faults) (disk : Disk) :
    applyRecovery plan faults disk = runSteps (planSteps plan) faults.outcomes false disk := by
  cases plan <;> rfl

/-- All that `open` does to the three files is to run its plan. -/
theorem openStore_core (disk : Disk) (key : Key) (faults : Faults) :
    core (openStore v crypto disk key faults).1 =
      core (runSteps (planSteps (openPlan v crypto disk key)) faults.outcomes false disk).1 := by
  rw [← applyRecovery_eq, openStore, openPlan]
  cases planRecovery v crypto disk key with
  | error error => rfl
  | ok plan =>
      simp only
      rcases applyRecovery plan faults disk with ⟨disk', _ | _ | _⟩
      · simp only
        cases readPair v crypto disk' key <;> rfl
      · rfl
      · rfl

/-- All that `recover_master_key_rotation` does to the three files is to run its plan. -/
theorem recover_core (disk : Disk) (oldKey newKey : Key) (faults : Faults) :
    core (recoverMasterKeyRotation v crypto disk oldKey newKey faults).1 =
      core (runSteps (planSteps (recoverPlan v crypto disk oldKey newKey)) faults.outcomes false
        disk).1 := by
  rw [← applyRecovery_eq, recoverMasterKeyRotation, rotationRecovery, recoverPlan]
  by_cases hkeys : oldKey = newKey
  · rw [if_pos hkeys, if_pos hkeys]
    rfl
  rw [if_neg hkeys, if_neg hkeys]
  cases determineRotation v crypto disk oldKey newKey with
  | error error => rfl
  | ok found =>
      cases hplan : found.plan with
      | none => simp [hplan, applyRecovery]
      | some plan =>
          simp only [hplan, Bool.true_eq_false, reduceCtorEq, or_self, if_false]
          rcases applyRecovery (some plan) faults disk with ⟨disk', _ | _ | _⟩
          · simp only
            cases readPair v crypto disk' found.confirmedKey with
            | error error => rfl
            | ok confirmed =>
                simp only
                split <;> rfl
          · rfl
          · rfl

/-- Whether a step writes the anchor. -/
def isAnchorWrite : Step → Bool
  | .writeAnchor _ => true
  | _ => false

/-- The files warrant that `written` replaces the anchor: the journal is authenticated by the key
of each of its roles, the anchor is at its old state (or absent, before the first transaction),
the store is at its new state, and `written` is the anchor of that state. -/
def Advances (v : Validators) (crypto : Crypto) (disk : Disk) (oldKey newKey : Key)
    (written : Content) : Prop :=
  ∃ journalData journal storeData catalog,
    disk.journal = some journalData ∧ parseJournalDocument journalData = .ok journal ∧
    (journalRoles crypto journal oldKey).1 = true ∧
    (journalRoles crypto journal newKey).2 = true ∧
    optionalAnchorState disk.anchor = .ok journal.oldState ∧
    disk.store = some storeData ∧ parseCatalog v crypto storeData newKey = .ok catalog ∧
    catalog.state = journal.newState ∧
    written = anchorContent (Anchor.ofState journal.newState)

/-- What a call may do to store and anchor: the steps it runs write the anchor at most once, and
only when the files warrant it. -/
structure AnchorGuarded (v : Validators) (crypto : Crypto) (disk disk' : Disk) (steps : List Step)
    (oldKey newKey : Key) : Prop where
  ran : ∃ outcomes, core disk' = core (runSteps steps outcomes false disk).1
  once : steps.countP isAnchorWrite ≤ 1
  warranted : ∀ written, Step.writeAnchor written ∈ steps →
    Advances v crypto disk oldKey newKey written
  store : disk'.store = disk.store
  anchor : disk'.anchor = disk.anchor ∨
    ∃ written, disk'.anchor = some written ∧ Advances v crypto disk oldKey newKey written
  monotone : ∀ before after, disk.anchor.map parseAnchor = some (.ok before) →
    disk'.anchor.map parseAnchor = some (.ok after) → before.revision ≤ after.revision

/-- A warranted anchor is one revision ahead of the one it replaces. -/
theorem advances_revision {disk : Disk} {oldKey newKey : Key} {written : Content}
    (h : Advances v crypto disk oldKey newKey written) {before after : Anchor}
    (hbefore : disk.anchor.map parseAnchor = some (.ok before))
    (hafter : parseAnchor written = .ok after) : before.revision ≤ after.revision := by
  obtain ⟨_, journal, _, _, -, hdocument, -, -, hanchor, -, -, -, rfl⟩ := h
  have hformed := wellFormed_of_parse hdocument
  have hone : 1 ≤ (Anchor.ofState journal.newState).revision := by
    show 1 ≤ journal.newRevision
    have := hformed.next
    omega
  rw [parseAnchor_anchorContent hone hformed.newDigest] at hafter
  cases hafter
  -- the anchor that was there is the old state of the journal
  obtain ⟨data, hdata, hparse⟩ := Option.map_eq_some_iff.mp hbefore
  rw [hdata, optionalAnchorState, hparse, map_eq_ok] at hanchor
  obtain ⟨_, ⟨⟩, hold⟩ := hanchor
  have hnext : before.revision + 1 = journal.newState.1 := oldState_revision hformed hold.symm
  show before.revision ≤ journal.newState.1
  omega

/-- A plan whose anchor the files warrant keeps store and anchor guarded. -/
theorem anchorGuarded_of_plan {plan : Option RecoveryPlan} {disk disk' : Disk}
    {oldKey newKey : Key} {faults : Faults}
    (hadvance : ∀ p a, plan = some p → p.advanceAnchor = some a →
      Advances v crypto disk oldKey newKey (anchorContent a))
    (hrun : core disk' = core (runSteps (planSteps plan) faults.outcomes false disk).1) :
    AnchorGuarded v crypto disk disk' (planSteps plan) oldKey newKey := by
  have hleaves := runSteps_leaves (planSteps plan) faults.outcomes false disk
  have hfiles : disk'.store = disk.store ∧ (disk'.anchor = disk.anchor ∨
      ∃ written, disk'.anchor = some written ∧ Advances v crypto disk oldKey newKey written) := by
    rw [show disk'.store = _ from store_of_core hrun,
      show disk'.anchor = _ from anchor_of_core hrun]
    cases plan with
    | none => exact ⟨rfl, Or.inl rfl⟩
    | some p =>
        rcases recovery_leaves hleaves with hsame | ⟨a, ha, hwritten⟩ | hall
        · exact ⟨store_of_core hsame, Or.inl (anchor_of_core hsame)⟩
        · exact ⟨store_of_core hwritten,
            Or.inr ⟨_, anchor_of_core hwritten, hadvance p a rfl ha⟩⟩
        · have hcore := core_applyAll_recovery p disk
          rw [← show _ = applyAll p.steps disk from hall] at hcore
          refine ⟨store_of_core hcore, ?_⟩
          cases ha : p.advanceAnchor with
          | none =>
              rw [ha] at hcore
              exact Or.inl (anchor_of_core hcore)
          | some a =>
              rw [ha] at hcore
              exact Or.inr ⟨_, anchor_of_core hcore, hadvance p a rfl ha⟩
  have hwrites : ∀ {p : RecoveryPlan} {written : Content}, Step.writeAnchor written ∈ p.steps →
      ∃ a, p.advanceAnchor = some a ∧ written = anchorContent a := by
    rintro ⟨advance, purge⟩ written hmem
    cases advance with
    | none => cases purge <;> simp [RecoveryPlan.steps] at hmem
    | some a =>
        refine ⟨a, rfl, ?_⟩
        cases purge <;> simpa [RecoveryPlan.steps] using hmem
  refine ⟨⟨_, hrun⟩, ?_, ?_, hfiles.1, hfiles.2, ?_⟩
  · cases plan with
    | none => exact Nat.zero_le 1
    | some p =>
        obtain ⟨advance, purge⟩ := p
        cases advance <;> cases purge <;> exact Nat.le_of_ble_eq_true rfl
  · intro written hmem
    cases plan with
    | none => cases hmem
    | some p =>
        obtain ⟨a, ha, rfl⟩ := hwrites hmem
        exact hadvance p a rfl ha
  · intro before after hbefore hafter
    rcases hfiles.2 with hsame | ⟨written, hwritten, hadvances⟩
    · rw [hsame, hbefore] at hafter
      cases hafter
      exact Nat.le_refl _
    · rw [hwritten] at hafter
      exact advances_revision hadvances hbefore (Option.some.inj hafter)

/-- The anchor that `open` writes is warranted. -/
theorem openPlan_advances {disk : Disk} {key : Key} {plan : RecoveryPlan} {anchor : Anchor}
    (hplan : openPlan v crypto disk key = some plan) (hanchor : plan.advanceAnchor = some anchor) :
    Advances v crypto disk key key (anchorContent anchor) := by
  have hok : planRecovery v crypto disk key = .ok (some plan) := by
    rw [openPlan] at hplan
    split at hplan
    · rename_i plan' heq
      rw [heq, hplan]
    · cases hplan
  obtain ⟨data, journal, anchorState, hjournal, hdocument, hstate, hrotation | hnormal⟩ :=
    planRecovery_cases hok
  · -- with one key of a rotation the anchor is never advanced
    obtain ⟨_, _, _, -, -, -, ⟨-, -, -, rfl⟩ | ⟨-, -, -, rfl⟩⟩ := planRotation_cases hrotation.2
    · cases hanchor
    · cases hanchor
  · obtain ⟨-, hold, hnew, -, storeState, hstore, hallowed⟩ := hnormal
    rw [hanchor] at hallowed
    rcases allowedTransition_cases hallowed with ⟨-, -, ⟨⟩⟩ | ⟨rfl, rfl, hadvance⟩ | ⟨-, -, ⟨⟩⟩
    cases hadvance
    cases hdata : disk.store with
    | none =>
        rw [hdata] at hstore
        cases hstore
    | some storeData =>
        rw [hdata, optionalStoreState, map_eq_ok] at hstore
        obtain ⟨catalog, hparse, hcatalog⟩ := hstore
        exact ⟨data, journal, storeData, catalog, hjournal, hdocument, hold, hnew, hstate, hdata,
          hparse, Option.some.inj hcatalog, rfl⟩

/-- The anchor that `recover_master_key_rotation` writes is warranted. -/
theorem recoverPlan_advances {disk : Disk} {oldKey newKey : Key} {plan : RecoveryPlan}
    {anchor : Anchor} (hplan : recoverPlan v crypto disk oldKey newKey = some plan)
    (hanchor : plan.advanceAnchor = some anchor) :
    Advances v crypto disk oldKey newKey (anchorContent anchor) := by
  have hok : ∃ found, determineRotation v crypto disk oldKey newKey = .ok found ∧
      found.plan = some plan := by
    rw [recoverPlan] at hplan
    split at hplan
    · cases hplan
    · split at hplan
      · rename_i found heq
        exact ⟨found, heq, hplan⟩
      · cases hplan
  obtain ⟨found, hfound, hplan⟩ := hok
  obtain ⟨data, anchorData, anchor', hdata, hanchorData, hparseAnchor, hcases⟩ :=
    determineRotation_cases hfound
  rcases hcases with hsettled | ⟨journalData, journal, oldState, hpending⟩
  · rw [hsettled.plan] at hplan
    cases hplan
  · rcases hpending.cases with ⟨-, -, -, -, hnone⟩ | ⟨hkey, -, hstate, hadvance | hnone⟩
    · rw [hplan] at hnone
      cases hnone
      cases hanchor
    · obtain ⟨hold, hsome⟩ := hadvance
      rw [hplan] at hsome
      cases hsome
      cases hanchor
      have hparse := hpending.parse
      rw [hkey] at hparse
      refine ⟨journalData, journal, data, found.confirmed, hpending.present, hpending.document,
        hpending.asOld, hpending.asNew, ?_, hdata, hparse, hstate, rfl⟩
      rw [hanchorData, optionalAnchorState, hparseAnchor, hpending.before, ← hold]
      rfl
    · rw [hplan] at hnone
      cases hnone.2
      cases hanchor

/-! ### A store that the keys do not authenticate -/

/-- `open` raises and writes nothing when its key does not authenticate the store. -/
theorem openStore_wrong_key {disk : Disk} {key : Key} {data : Content} (faults : Faults)
    (hstore : disk.store = some data)
    (hwrong : ∀ catalog, parseCatalog v crypto data key ≠ .ok catalog) :
    ∃ error, openStore v crypto disk key faults = (disk, .raised error) := by
  rw [openStore]
  cases hplan : planRecovery v crypto disk key with
  | error error => exact ⟨error, rfl⟩
  | ok plan =>
      cases plan with
      | none =>
          -- no journal: the pair is read, and the store does not parse
          have hread : ∃ error, readPair v crypto disk key = .error error := by
            cases hpair : readPair v crypto disk key with
            | error error => exact ⟨error, rfl⟩
            | ok parsed =>
                rw [readPair, hstore] at hpair
                cases hanchor : disk.anchor with
                | none =>
                    rw [hanchor] at hpair
                    cases hpair
                | some anchorData =>
                    simp only [hanchor, bind_eq_ok] at hpair
                    obtain ⟨catalog, hparse, -⟩ := hpair
                    exact absurd hparse (hwrong catalog)
          obtain ⟨error, herror⟩ := hread
          exact ⟨error, by simp [applyRecovery, herror]⟩
      | some plan =>
          obtain ⟨_, _, _, -, -, -, hrotation | hnormal⟩ := planRecovery_cases hplan
          · obtain ⟨data', catalog, _, hdata, hparse, -⟩ := planRotation_cases hrotation.2
            rw [hstore] at hdata
            cases hdata
            exact absurd hparse (hwrong catalog)
          · obtain ⟨-, -, -, -, storeState, hstate, -⟩ := hnormal
            rw [hstore, optionalStoreState, map_eq_ok] at hstate
            obtain ⟨catalog, hparse, -⟩ := hstate
            exact absurd hparse (hwrong catalog)

/-- The store is authenticated by the key of the state that it represents: by either key when no
transaction is pending, else by the key of the state of the journal that it has. -/
def StoreAuthenticated (v : Validators) (crypto : Crypto) (disk : Disk) (data : Content)
    (oldKey newKey : Key) : Prop :=
  match disk.journal with
  | none =>
      ∃ catalog, parseCatalog v crypto data oldKey = .ok catalog ∨
        parseCatalog v crypto data newKey = .ok catalog
  | some journalData =>
      ∃ journal catalog, parseJournalDocument journalData = .ok journal ∧
        ((parseCatalog v crypto data oldKey = .ok catalog ∧
            journal.oldState = some catalog.state) ∨
          (parseCatalog v crypto data newKey = .ok catalog ∧
            catalog.state = journal.newState))

/-- `recover_master_key_rotation` raises and writes nothing when the key of the state that the store
represents does not authenticate it. -/
theorem recover_wrong_key {disk : Disk} {oldKey newKey : Key} {data : Content} (faults : Faults)
    (hstore : disk.store = some data)
    (hwrong : ¬ StoreAuthenticated v crypto disk data oldKey newKey) :
    ∃ error, recoverMasterKeyRotation v crypto disk oldKey newKey faults =
      (disk, .raised error) := by
  rw [recoverMasterKeyRotation, rotationRecovery]
  by_cases hkeys : oldKey = newKey
  · exact ⟨_, if_pos hkeys⟩
  rw [if_neg hkeys]
  cases hfound : determineRotation v crypto disk oldKey newKey with
  | error error => exact ⟨error, rfl⟩
  | ok found =>
      exfalso
      apply hwrong
      obtain ⟨data', _, _, hdata, -, -, hcases⟩ := determineRotation_cases hfound
      rw [hstore] at hdata
      cases hdata
      rw [StoreAuthenticated]
      rcases hcases with hsettled | ⟨journalData, journal, oldState, hpending⟩
      · rw [hsettled.absent]
        refine ⟨found.confirmed, ?_⟩
        have hparse := hsettled.parse
        rcases hsettled.key with hkey | hkey
        · rw [hkey] at hparse
          exact Or.inl hparse
        · rw [hkey] at hparse
          exact Or.inr hparse
      · rw [hpending.present]
        refine ⟨journal, found.confirmed, hpending.document, ?_⟩
        have hparse := hpending.parse
        rcases hpending.cases with ⟨hkey, -, hstate, -⟩ | ⟨hkey, -, hstate, -⟩
        · rw [hkey] at hparse
          exact Or.inl ⟨hparse, by rw [hpending.before, hstate]⟩
        · rw [hkey] at hparse
          exact Or.inr ⟨hparse, hstate⟩

/-- **The anchor only moves forward, and only under the keys that authenticate the files.** On any
disk, under any faults: `open` and `recover_master_key_rotation` keep the anchor guarded, and a
store that exists without being authenticated makes them raise and leave the disk as it was. -/
theorem recovery_guards_anchor (disk : Disk) (faults : Faults) :
    (∀ key, AnchorGuarded v crypto disk (openStore v crypto disk key faults).1
        (planSteps (openPlan v crypto disk key)) key key ∧
      ∀ data, disk.store = some data →
        (∀ catalog, parseCatalog v crypto data key ≠ .ok catalog) →
        ∃ error, openStore v crypto disk key faults = (disk, .raised error)) ∧
    (∀ oldKey newKey, AnchorGuarded v crypto disk
        (recoverMasterKeyRotation v crypto disk oldKey newKey faults).1
        (planSteps (recoverPlan v crypto disk oldKey newKey)) oldKey newKey ∧
      ∀ data, disk.store = some data →
        ¬ StoreAuthenticated v crypto disk data oldKey newKey →
        ∃ error, recoverMasterKeyRotation v crypto disk oldKey newKey faults =
          (disk, .raised error)) := by
  constructor
  · intro key
    refine ⟨anchorGuarded_of_plan (fun _ _ hplan ha => openPlan_advances hplan ha)
      (openStore_core disk key faults), ?_⟩
    intro data hstore hwrong
    exact openStore_wrong_key faults hstore hwrong
  · intro oldKey newKey
    refine ⟨anchorGuarded_of_plan (fun _ _ hplan ha => recoverPlan_advances hplan ha)
      (recover_core disk oldKey newKey faults), ?_⟩
    intro data hstore hwrong
    exact recover_wrong_key faults hstore hwrong

end MaskGateway.Proofs.Datasource
