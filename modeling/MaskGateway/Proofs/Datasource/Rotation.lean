import MaskGateway.Proofs.Datasource.Secrets

/-!
# `MaskGateway.Proofs.Datasource.Rotation`: a rotation of the master key ends one way or the other

While a rotation runs, and until it is recovered, the disk is in one of four phases (`Phase`): settled,
or with the journal of the rotation and the old pair, the new store with the old anchor, or the new
pair. Which key is confirmed depends on the store alone, so each phase has a role, and everything
that may run afterwards keeps it: `recover_master_key_rotation` with both keys (`recover_phase`) and
`open` with either key (`open_phase`), interrupted or not.

`rotation_recovers` is the result: from any point at which the rotation stopped, and after any such
attempts.
-/

set_option autoImplicit false

namespace MaskGateway.Proofs.Datasource

open MaskGateway.Datasource MaskGateway.Lib

variable {v : Validators} {crypto : Crypto} {oldKey newKey : Key} {old new : ParsedCatalog v}
  {data : Content} {journal : Journal} {disk disk' : Disk} {role : KeyRole}

/-! ### Phases -/

/-- A rotation from one key and catalog to another, and its journal. -/
structure Rotating (crypto : Crypto) (oldKey newKey : Key) (old new : ParsedCatalog v)
    (data : Content) (journal : Journal) : Prop where
  /-- The two keys never make the same tag. -/
  tags : ∀ payload, crypto.tag oldKey payload ≠ crypto.tag newKey payload
  document : parseJournalDocument data = .ok journal
  asOld : (journalRoles crypto journal oldKey).1 = true
  asNew : (journalRoles crypto journal newKey).2 = true
  rotation : journal.isRotation = true
  oldState : journal.oldState = some old.state
  newState : journal.newState = new.state
  sealedOld : Sealed crypto oldKey old
  sealedNew : Sealed crypto newKey new

/-- The key of a role. -/
def roleKey (oldKey newKey : Key) : KeyRole → Key
  | .old => oldKey
  | .new => newKey

/-- The catalog of a role. -/
def roleCatalog (old new : ParsedCatalog v) : KeyRole → ParsedCatalog v
  | .old => old
  | .new => new

/-- The rotation is over, one way or the other; under the new key no backup is left. -/
structure Done (crypto : Crypto) (oldKey newKey : Key) (old new : ParsedCatalog v) (disk : Disk)
    (role : KeyRole) : Prop where
  settled : Settled crypto (roleKey oldKey newKey role) disk (some (roleCatalog old new role))
  backups : role = .new → disk.backups = []

/-- The disks between the start of a rotation and its end. -/
inductive Phase (crypto : Crypto) (oldKey newKey : Key) (old new : ParsedCatalog v)
    (data : Content) (disk : Disk) : KeyRole → Prop
  | done {role : KeyRole} (h : Done crypto oldKey newKey old new disk role) :
      Phase crypto oldKey newKey old new data disk role
  | oldPair (hjournal : disk.journal = some data) (hstore : StoreIs crypto oldKey disk (some old))
      (hanchor : AnchorIs disk (some old)) : Phase crypto oldKey newKey old new data disk .old
  | newStore (hjournal : disk.journal = some data) (hstore : StoreIs crypto newKey disk (some new))
      (hanchor : AnchorIs disk (some old)) : Phase crypto oldKey newKey old new data disk .new
  | newPair (hjournal : disk.journal = some data) (hstore : StoreIs crypto newKey disk (some new))
      (hanchor : AnchorIs disk (some new)) : Phase crypto oldKey newKey old new data disk .new

/-- The store of a phase is at the catalog of its role. -/
theorem Phase.store (h : Phase crypto oldKey newKey old new data disk role) :
    StoreIs crypto (roleKey oldKey newKey role) disk (some (roleCatalog old new role)) := by
  cases h with
  | done h => exact h.settled.store
  | oldPair _ hstore _ => exact hstore
  | newStore _ hstore _ => exact hstore
  | newPair _ hstore _ => exact hstore

theorem Done.cleanup (h : Done crypto oldKey newKey old new disk role) (faults : Faults) :
    Done crypto oldKey newKey old new (cleanupManaged faults disk) role := by
  refine ⟨h.settled.congr (core_cleanupManaged faults disk), ?_⟩
  intro hrole
  rw [cleanupManaged, h.backups hrole]
  rfl

theorem Rotating.wellFormed (h : Rotating crypto oldKey newKey old new data journal) :
    WellFormed journal :=
  wellFormed_of_parse h.document

/-- The states before and after differ. -/
theorem Rotating.states_ne (h : Rotating crypto oldKey newKey old new data journal) :
    old.state ≠ new.state := by
  have hne := oldState_ne_newState h.wellFormed
  rw [h.oldState, h.newState] at hne
  exact fun heq => hne (congrArg some heq)

/-- The anchor that the recovery writes is that of the new catalog. -/
theorem Rotating.anchor (h : Rotating crypto oldKey newKey old new data journal)
    (hanchor : disk.anchor = some (anchorContent (Anchor.ofState new.state))) :
    AnchorIs disk (some new) := by
  have hone : 1 ≤ (Anchor.ofState new.state).revision := by
    rw [← h.newState]
    show 1 ≤ journal.newRevision
    have := h.wellFormed.next
    omega
  have hhex : fixedHex (Anchor.ofState new.state).digest = true := by
    rw [← h.newState]
    exact h.wellFormed.newDigest
  exact ⟨_, _, hanchor, parseAnchor_anchorContent hone hhex, rfl⟩

/-! ### Running the plans of the phases -/

/-- Dropping the intent over the old pair. -/
theorem leaves_oldPair (hjournal : disk.journal = some data)
    (hstore : StoreIs crypto oldKey disk (some old)) (hanchor : AnchorIs disk (some old)) :
    Done crypto oldKey newKey old new (applyAll (RecoveryPlan.steps ⟨none, false⟩) disk) .old ∧
      ∀ disk', Leaves (RecoveryPlan.steps ⟨none, false⟩) disk disk' →
        Phase crypto oldKey newKey old new data disk' .old := by
  have hcore := core_applyAll_recovery ⟨none, false⟩ disk
  have hdone : Done crypto oldKey newKey old new
      (applyAll (RecoveryPlan.steps ⟨none, false⟩) disk) .old :=
    ⟨⟨journal_of_core hcore, hstore.congr (store_of_core hcore),
      hanchor.congr (anchor_of_core hcore)⟩, fun hrole => (nomatch hrole)⟩
  refine ⟨hdone, ?_⟩
  intro disk' hleaves
  rcases recovery_leaves hleaves with hsame | ⟨_, ⟨⟩, -⟩ | rfl
  · exact .oldPair ((journal_of_core hsame).trans hjournal) (hstore.congr (store_of_core hsame))
      (hanchor.congr (anchor_of_core hsame))
  · exact .done hdone

/-- Finishing over the new pair. -/
theorem leaves_newPair (hjournal : disk.journal = some data)
    (hstore : StoreIs crypto newKey disk (some new)) (hanchor : AnchorIs disk (some new)) :
    Done crypto oldKey newKey old new (applyAll (RecoveryPlan.steps ⟨none, true⟩) disk) .new ∧
      ∀ disk', Leaves (RecoveryPlan.steps ⟨none, true⟩) disk disk' →
        Phase crypto oldKey newKey old new data disk' .new := by
  have hcore := core_applyAll_recovery ⟨none, true⟩ disk
  have hdone : Done crypto oldKey newKey old new
      (applyAll (RecoveryPlan.steps ⟨none, true⟩) disk) .new :=
    ⟨⟨journal_of_core hcore, hstore.congr (store_of_core hcore),
      hanchor.congr (anchor_of_core hcore)⟩, fun _ => backups_applyAll_recovery rfl disk⟩
  refine ⟨hdone, ?_⟩
  intro disk' hleaves
  rcases recovery_leaves hleaves with hsame | ⟨_, ⟨⟩, -⟩ | rfl
  · exact .newPair ((journal_of_core hsame).trans hjournal) (hstore.congr (store_of_core hsame))
      (hanchor.congr (anchor_of_core hsame))
  · exact .done hdone

/-- Bringing the anchor up to the new store, then finishing. -/
theorem leaves_newStore (hrotating : Rotating crypto oldKey newKey old new data journal)
    (hjournal : disk.journal = some data) (hstore : StoreIs crypto newKey disk (some new))
    (hanchor : AnchorIs disk (some old)) :
    Done crypto oldKey newKey old new
        (applyAll (RecoveryPlan.steps ⟨some (Anchor.ofState new.state), true⟩) disk) .new ∧
      ∀ disk', Leaves (RecoveryPlan.steps ⟨some (Anchor.ofState new.state), true⟩) disk disk' →
        Phase crypto oldKey newKey old new data disk' .new := by
  have hcore := core_applyAll_recovery ⟨some (Anchor.ofState new.state), true⟩ disk
  have hdone : Done crypto oldKey newKey old new
      (applyAll (RecoveryPlan.steps ⟨some (Anchor.ofState new.state), true⟩) disk) .new :=
    ⟨⟨journal_of_core hcore, hstore.congr (store_of_core hcore),
      hrotating.anchor (anchor_of_core hcore)⟩, fun _ => backups_applyAll_recovery rfl disk⟩
  refine ⟨hdone, ?_⟩
  intro disk' hleaves
  rcases recovery_leaves hleaves with hsame | ⟨anchor, hadvance, hwritten⟩ | rfl
  · exact .newStore ((journal_of_core hsame).trans hjournal) (hstore.congr (store_of_core hsame))
      (hanchor.congr (anchor_of_core hsame))
  · cases hadvance
    exact .newPair ((journal_of_core hwritten).trans hjournal)
      (hstore.congr (store_of_core hwritten)) (hrotating.anchor (anchor_of_core hwritten))
  · exact .done hdone

/-! ### What `_determine_rotation` finds -/

/-- The other key does not authenticate a store. -/
theorem authenticatedOrNone_other {storeData : Content} {key other : Key}
    {catalog : ParsedCatalog v}
    (htags : ∀ payload, crypto.tag key payload ≠ crypto.tag other payload)
    (h : parseCatalog v crypto storeData key = .ok catalog) :
    authenticatedOrNone v crypto storeData other = .ok none := by
  rw [authenticatedOrNone, parseCatalog_other_key htags h]
  rfl

/-- A store that one of the keys authenticates is not authenticated by the other. -/
theorem authenticated_by_one {storeData : Content}
    (hrotating : Rotating crypto oldKey newKey old new data journal)
    (hparse : parseCatalog v crypto storeData (roleKey oldKey newKey role) =
      .ok (roleCatalog old new role)) :
    ∃ byOld byNew, authenticatedOrNone v crypto storeData oldKey = .ok byOld ∧
      authenticatedOrNone v crypto storeData newKey = .ok byNew ∧
      ¬ (byOld.isSome = true ∧ byNew.isSome = true) ∧
      authenticatedBy v byOld byNew oldKey newKey =
        .ok (role, roleCatalog old new role, roleKey oldKey newKey role) ∧
      confirmedBy v old.state new.state byOld byNew oldKey newKey =
        .ok (role, roleCatalog old new role, roleKey oldKey newKey role) := by
  cases role with
  | old =>
      refine ⟨some old, none, authenticatedOrNone_some.mpr hparse,
        authenticatedOrNone_other hrotating.tags hparse, by simp, rfl, ?_⟩
      rw [confirmedBy, Option.filter_some, beq_self_eq_true]
      rfl
  | new =>
      refine ⟨none, some new, authenticatedOrNone_other
        (fun payload => (hrotating.tags payload).symm) hparse,
        authenticatedOrNone_some.mpr hparse, by simp, rfl, ?_⟩
      rw [confirmedBy, Option.filter_none, Option.filter_some, beq_self_eq_true]
      rfl

/-- The confirmed key opens the secrets of the confirmed catalog. -/
theorem Rotating.secrets (h : Rotating crypto oldKey newKey old new data journal)
    (role : KeyRole) :
    verifySecrets crypto (roleCatalog old new role) (roleKey oldKey newKey role) = .ok () := by
  cases role with
  | old => exact verifySecrets_ok.mpr h.sealedOld
  | new => exact verifySecrets_ok.mpr h.sealedNew

/-- What is found on a disk where the rotation is over. -/
theorem determine_done (hrotating : Rotating crypto oldKey newKey old new data journal)
    (h : Done crypto oldKey newKey old new disk role) :
    determineRotation v crypto disk oldKey newKey =
      .ok ⟨⟨role, (roleCatalog old new role).revision, false⟩, roleCatalog old new role,
        roleKey oldKey newKey role, none⟩ := by
  obtain ⟨storeData, hstoreData, hparse⟩ := h.settled.store
  obtain ⟨anchorData, anchor, hanchorData, hparseAnchor, hstate⟩ := h.settled.anchor
  obtain ⟨byOld, byNew, hbyOld, hbyNew, hone, hby, -⟩ := authenticated_by_one hrotating hparse
  rw [determineRotation, hstoreData, hanchorData, h.settled.journal]
  simp only [determineWithoutJournal, bind_eq_ok, pure_eq_ok]
  exact ⟨anchor, hparseAnchor, byOld, hbyOld, byNew, hbyNew, (), refuseIf_ok hone, _, hby, (),
    refuseIf_ok (not_not_intro hstate), (), hrotating.secrets role, rfl⟩

/-- What is found on a disk with the journal. -/
theorem determine_pending {anchorData : Content} {anchor : Anchor} {advance : Option Anchor}
    (hrotating : Rotating crypto oldKey newKey old new data journal)
    (hjournal : disk.journal = some data)
    (hstore : StoreIs crypto (roleKey oldKey newKey role) disk (some (roleCatalog old new role)))
    (hanchorData : disk.anchor = some anchorData) (hparseAnchor : parseAnchor anchorData = .ok anchor)
    (hadvance : rotationTransition old.state new.state role anchor.state = .ok advance) :
    determineRotation v crypto disk oldKey newKey =
      .ok ⟨⟨role, (roleCatalog old new role).revision, true⟩, roleCatalog old new role,
        roleKey oldKey newKey role, some ⟨advance, role == .new⟩⟩ := by
  obtain ⟨storeData, hstoreData, hparse⟩ := hstore
  obtain ⟨byOld, byNew, hbyOld, hbyNew, hone, -, hconfirmed⟩ :=
    authenticated_by_one hrotating hparse
  have hrotation := hrotating.rotation
  rw [determineRotation, hstoreData, hanchorData, hjournal]
  simp only [bind_eq_ok]
  refine ⟨anchor, hparseAnchor, byOld, hbyOld, byNew, hbyNew, (), refuseIf_ok hone, journal,
    hrotating.document, (), refuseIf_ok (by simp [hrotation]), (),
    refuseIf_ok (by simp [hrotation]), (),
    refuseIf_ok (not_not_intro ⟨hrotating.asOld, hrotating.asNew⟩), ?_⟩
  rw [hrotating.oldState, hrotating.newState]
  simp only [bind_eq_ok, pure_eq_ok]
  exact ⟨_, hconfirmed, advance, hadvance, (), hrotating.secrets role, rfl⟩

/-- **In every phase the role is found**, with the plan that ends the rotation. -/
theorem determine_phase (hrotating : Rotating crypto oldKey newKey old new data journal)
    (h : Phase crypto oldKey newKey old new data disk role) :
    ∃ pending plan,
      determineRotation v crypto disk oldKey newKey =
        .ok ⟨⟨role, (roleCatalog old new role).revision, pending⟩, roleCatalog old new role,
          roleKey oldKey newKey role, plan⟩ ∧
      ((plan = none ∧ pending = false ∧ Done crypto oldKey newKey old new disk role) ∨
        ∃ steps, plan = some steps ∧
          Done crypto oldKey newKey old new (applyAll steps.steps disk) role ∧
          ∀ disk', Leaves steps.steps disk disk' →
            Phase crypto oldKey newKey old new data disk' role) := by
  have hne := hrotating.states_ne
  cases h with
  | done hdone =>
      exact ⟨false, none, determine_done hrotating hdone, Or.inl ⟨rfl, rfl, hdone⟩⟩
  | oldPair hjournal hstore hanchor =>
      obtain ⟨anchorData, anchor, hanchorData, hparseAnchor, hstate⟩ := id hanchor
      have hadvance : rotationTransition old.state new.state .old anchor.state = .ok none := by
        rw [rotationTransition, ← hstate, if_pos rfl]
      exact ⟨true, some ⟨none, false⟩,
        determine_pending hrotating hjournal hstore hanchorData hparseAnchor hadvance,
        Or.inr ⟨_, rfl, leaves_oldPair hjournal hstore hanchor⟩⟩
  | newStore hjournal hstore hanchor =>
      obtain ⟨anchorData, anchor, hanchorData, hparseAnchor, hstate⟩ := id hanchor
      have hadvance : rotationTransition old.state new.state .new anchor.state =
          .ok (some (Anchor.ofState new.state)) := by
        rw [rotationTransition, ← hstate, if_pos rfl]
      exact ⟨true, some ⟨some (Anchor.ofState new.state), true⟩,
        determine_pending hrotating hjournal hstore hanchorData hparseAnchor hadvance,
        Or.inr ⟨_, rfl, leaves_newStore hrotating hjournal hstore hanchor⟩⟩
  | newPair hjournal hstore hanchor =>
      obtain ⟨anchorData, anchor, hanchorData, hparseAnchor, hstate⟩ := id hanchor
      have hadvance : rotationTransition old.state new.state .new anchor.state = .ok none := by
        rw [rotationTransition, ← hstate, if_neg hne.symm, if_pos rfl]
      exact ⟨true, some ⟨none, true⟩,
        determine_pending hrotating hjournal hstore hanchorData hparseAnchor hadvance,
        Or.inr ⟨_, rfl, leaves_newPair hjournal hstore hanchor⟩⟩

/-! ### Recovering with both keys -/

/-- Keys that never make the same tag are distinct. -/
theorem Rotating.keys_ne (h : Rotating crypto oldKey newKey old new data journal) :
    oldKey ≠ newKey := by
  rintro rfl
  exact h.tags .null rfl

/-- `inspect_master_key_rotation` reports the role and writes nothing. -/
theorem inspect_phase (hrotating : Rotating crypto oldKey newKey old new data journal)
    (h : Phase crypto oldKey newKey old new data disk role) :
    ∃ pending, inspectMasterKeyRotation v crypto disk oldKey newKey =
      (disk, .returned ⟨role, (roleCatalog old new role).revision, pending⟩) := by
  obtain ⟨pending, plan, hfound, -⟩ := determine_phase hrotating h
  refine ⟨pending, ?_⟩
  rw [inspectMasterKeyRotation, rotationRecovery, if_neg hrotating.keys_ne, hfound]
  simp

/-- **Recovery keeps the phase**, and when it returns, the rotation is over and the role reported. -/
theorem recover_phase (hrotating : Rotating crypto oldKey newKey old new data journal)
    (faults : Faults) (h : Phase crypto oldKey newKey old new data disk role) :
    Phase crypto oldKey newKey old new data
        (recoverMasterKeyRotation v crypto disk oldKey newKey faults).1 role ∧
      ∀ status, (recoverMasterKeyRotation v crypto disk oldKey newKey faults).2 = .returned status →
        status = ⟨role, (roleCatalog old new role).revision, false⟩ ∧
        Done crypto oldKey newKey old new
          (recoverMasterKeyRotation v crypto disk oldKey newKey faults).1 role := by
  obtain ⟨pending, plan, hfound, ⟨rfl, rfl, hdone⟩ | ⟨steps, rfl, hdone, hleaves⟩⟩ :=
    determine_phase hrotating h
  · rw [recoverMasterKeyRotation, rotationRecovery, if_neg hrotating.keys_ne, hfound]
    simp only [or_true, if_true]
    refine ⟨h, ?_⟩
    intro status hstatus
    cases hstatus
    exact ⟨rfl, hdone⟩
  · rw [recoverMasterKeyRotation, rotationRecovery, if_neg hrotating.keys_ne, hfound]
    simp only [Bool.true_eq_false, reduceCtorEq, or_self, if_false, applyRecovery]
    have hrunLeaves := runSteps_leaves steps.steps faults.outcomes false disk
    rcases hrun : runSteps steps.steps faults.outcomes false disk with
      ⟨disk₁, _ | ⟨attempted, error⟩ | _⟩
    · rw [runSteps_finished _ hrun]
      simp only [hdone.settled.reads, ne_eq, not_true_eq_false, if_false]
      refine ⟨.done (hdone.cleanup faults), ?_⟩
      intro status hstatus
      cases hstatus
      exact ⟨rfl, hdone.cleanup faults⟩
    · rw [hrun] at hrunLeaves
      exact ⟨hleaves disk₁ hrunLeaves, fun _ hstatus => (by cases hstatus)⟩
    · rw [hrun] at hrunLeaves
      exact ⟨hleaves disk₁ hrunLeaves, fun _ hstatus => (by cases hstatus)⟩

/-- Without faults recovery returns. -/
theorem recover_no_faults (hrotating : Rotating crypto oldKey newKey old new data journal)
    (h : Phase crypto oldKey newKey old new data disk role) :
    ∃ disk', recoverMasterKeyRotation v crypto disk oldKey newKey {} =
      (disk', .returned ⟨role, (roleCatalog old new role).revision, false⟩) := by
  obtain ⟨pending, plan, hfound, ⟨rfl, rfl, -⟩ | ⟨steps, rfl, hdone, -⟩⟩ :=
    determine_phase hrotating h
  · refine ⟨disk, ?_⟩
    rw [recoverMasterKeyRotation, rotationRecovery, if_neg hrotating.keys_ne, hfound]
    simp
  · refine ⟨cleanupManaged {} (applyAll steps.steps disk), ?_⟩
    rw [recoverMasterKeyRotation, rotationRecovery, if_neg hrotating.keys_ne, hfound]
    simp only [Bool.true_eq_false, reduceCtorEq, or_self, if_false, applyRecovery]
    rw [runSteps_no_faults]
    simp only [hdone.settled.reads, ne_eq, not_true_eq_false, if_false]

/-! ### Opening with one key -/

/-- The key that the store is not under gets an error, and nothing changes. -/
theorem open_other_key (hrotating : Rotating crypto oldKey newKey old new data journal)
    (faults : Faults) (h : Phase crypto oldKey newKey old new data disk role) {other : Key}
    (hother : other = oldKey ∨ other = newKey) (hne : other ≠ roleKey oldKey newKey role) :
    ∃ error, openStore v crypto disk other faults = (disk, .raised error) := by
  obtain ⟨storeData, hstoreData, hparse⟩ := h.store
  have htags : ∀ payload, crypto.tag (roleKey oldKey newKey role) payload ≠
      crypto.tag other payload := by
    intro payload
    cases role with
    | old =>
        rcases hother with rfl | rfl
        · exact absurd rfl hne
        · exact hrotating.tags payload
    | new =>
        rcases hother with rfl | rfl
        · exact (hrotating.tags payload).symm
        · exact absurd rfl hne
  apply openStore_wrong_key faults hstoreData
  intro catalog hcatalog
  rw [parseCatalog_other_key htags hparse] at hcatalog
  cases hcatalog

/-- The plan of `open` under the journal of a rotation, for a key that has a role in it. -/
theorem planRecovery_rotation {key : Key} {anchorState : Option State} {plan : RecoveryPlan}
    (hrotating : Rotating crypto oldKey newKey old new data journal)
    (hjournal : disk.journal = some data)
    (hroles : ¬ ((journalRoles crypto journal key).1 = false ∧
      (journalRoles crypto journal key).2 = false))
    (hanchor : optionalAnchorState disk.anchor = .ok anchorState)
    (hplan : planRotationWithSingleKey v crypto disk.store anchorState key journal
      (journalRoles crypto journal key).1 (journalRoles crypto journal key).2 = .ok plan) :
    planRecovery v crypto disk key = .ok (some plan) := by
  rw [planRecovery, hjournal]
  simp only [bind_eq_ok]
  refine ⟨(journal, journalRoles crypto journal key),
    parseJournal_ok.mpr ⟨hrotating.document, rfl, hroles⟩, anchorState, hanchor, ?_⟩
  rw [if_pos hrotating.rotation, bind_eq_ok]
  exact ⟨plan, hplan, rfl⟩

/-- Where a plan that ends the rotation leaves `open`. -/
theorem open_of_plan {plan : RecoveryPlan} (faults : Faults)
    (hplan : planRecovery v crypto disk (roleKey oldKey newKey role) = .ok (some plan))
    (hdone : Done crypto oldKey newKey old new (applyAll plan.steps disk) role)
    (hleaves : ∀ disk', Leaves plan.steps disk disk' →
      Phase crypto oldKey newKey old new data disk' role) :
    Phase crypto oldKey newKey old new data
      (openStore v crypto disk (roleKey oldKey newKey role) faults).1 role := by
  rcases openStore_result faults hplan with ⟨hrun, -⟩ | ⟨catalog, -, hopen⟩
  · exact hleaves _ hrun
  · rw [hopen]
    exact .done (hdone.cleanup faults)

/-- **Opening with the key that the store is under keeps the phase.** -/
theorem open_role_key (hrotating : Rotating crypto oldKey newKey old new data journal)
    (faults : Faults) (h : Phase crypto oldKey newKey old new data disk role) :
    Phase crypto oldKey newKey old new data
      (openStore v crypto disk (roleKey oldKey newKey role) faults).1 role := by
  cases h with
  | done hdone =>
      rcases openStore_result faults hdone.settled.plan with ⟨hrun, -⟩ | ⟨catalog, -, hopen⟩
      · have hsame : (openStore v crypto disk (roleKey oldKey newKey role) faults).1 = disk := hrun
        rw [hsame]
        exact .done hdone
      · rw [hopen]
        exact .done (hdone.cleanup faults)
  | oldPair hjournal hstore hanchor =>
      obtain ⟨storeData, hstoreData, hparse⟩ := id hstore
      have hroles : ¬ ((journalRoles crypto journal oldKey).1 = false ∧
          (journalRoles crypto journal oldKey).2 = false) := by
        simp [hrotating.asOld]
      have hparsed : authenticatedStore v crypto disk.store oldKey = .ok (some old) := by
        rw [hstoreData]
        exact authenticatedOrNone_some.mpr hparse
      have hsingle : planRotationWithSingleKey v crypto disk.store (some old.state) oldKey journal
          (journalRoles crypto journal oldKey).1 (journalRoles crypto journal oldKey).2 =
          .ok ⟨none, false⟩ := by
        rw [planRotationWithSingleKey, bind_eq_ok]
        refine ⟨some old, hparsed, ?_⟩
        simp only [hrotating.oldState]
        rw [if_pos ⟨hrotating.asOld, trivial, trivial⟩]
        rfl
      obtain ⟨hdone, hleaves⟩ := leaves_oldPair hjournal hstore hanchor
      exact open_of_plan faults
        (planRecovery_rotation hrotating hjournal hroles hanchor.state hsingle) hdone hleaves
  | newStore hjournal hstore hanchor =>
      -- the anchor does not confirm the new store, so both keys are asked for
      have herror : ∃ error, planRecovery v crypto disk newKey = .error error := by
        cases hplan : planRecovery v crypto disk newKey with
        | error error => exact ⟨error, rfl⟩
        | ok plan =>
            exfalso
            cases plan with
            | none =>
                rw [planRecovery_none hplan] at hjournal
                cases hjournal
            | some plan =>
                obtain ⟨_, journal', anchorState, hpresent, hdocument, hstate, hcases⟩ :=
                  planRecovery_cases hplan
                rw [hjournal] at hpresent
                cases hpresent
                rw [hrotating.document] at hdocument
                cases hdocument
                rw [hanchor.state] at hstate
                cases hstate
                rcases hcases with ⟨-, hsingle⟩ | ⟨hnot, -⟩
                · obtain ⟨storeData, catalog, oldState, hstoreData, hparse, hold, hrow⟩ :=
                    planRotation_cases hsingle
                  obtain ⟨storeData', hstoreData', hparse'⟩ := hstore
                  rw [hstoreData'] at hstoreData
                  cases hstoreData
                  rw [hparse'] at hparse
                  cases hparse
                  rw [hrotating.oldState] at hold
                  cases hold
                  rcases hrow with ⟨-, hsame, -, -⟩ | ⟨-, -, hsame, -⟩
                  · exact hrotating.states_ne hsame.symm
                  · rw [hrotating.newState] at hsame
                    exact hrotating.states_ne (Option.some.inj hsame)
                · rw [hrotating.rotation] at hnot
                  cases hnot
      obtain ⟨error, herror⟩ := herror
      have hopen : openStore v crypto disk newKey faults = (disk, .raised error) := by
        rw [openStore, herror]
      show Phase crypto oldKey newKey old new data (openStore v crypto disk newKey faults).1 .new
      rw [hopen]
      exact .newStore hjournal hstore hanchor
  | newPair hjournal hstore hanchor =>
      obtain ⟨storeData, hstoreData, hparse⟩ := id hstore
      have hroles : ¬ ((journalRoles crypto journal newKey).1 = false ∧
          (journalRoles crypto journal newKey).2 = false) := by
        simp [hrotating.asNew]
      have hparsed : authenticatedStore v crypto disk.store newKey = .ok (some new) := by
        rw [hstoreData]
        exact authenticatedOrNone_some.mpr hparse
      have hsingle : planRotationWithSingleKey v crypto disk.store (some new.state) newKey journal
          (journalRoles crypto journal newKey).1 (journalRoles crypto journal newKey).2 =
          .ok ⟨none, true⟩ := by
        rw [planRotationWithSingleKey, bind_eq_ok]
        refine ⟨some new, hparsed, ?_⟩
        simp only [hrotating.oldState, hrotating.newState]
        rw [if_neg, if_pos ⟨hrotating.asNew, trivial, trivial⟩]
        · rfl
        · exact fun hrow => hrotating.states_ne hrow.2.1.symm
      obtain ⟨hdone, hleaves⟩ := leaves_newPair hjournal hstore hanchor
      exact open_of_plan faults
        (planRecovery_rotation hrotating hjournal hroles hanchor.state hsingle) hdone hleaves

/-! ### The rotation itself -/

/-- What may be tried on a disk where a rotation stopped. -/
inductive Attempt where
  | recover (faults : Faults)
  | openOld (faults : Faults)
  | openNew (faults : Faults)

/-- The disk after an attempt. -/
def Attempt.run (v : Validators) (crypto : Crypto) (oldKey newKey : Key) (disk : Disk) :
    Attempt → Disk
  | .recover faults => (recoverMasterKeyRotation v crypto disk oldKey newKey faults).1
  | .openOld faults => (openStore v crypto disk oldKey faults).1
  | .openNew faults => (openStore v crypto disk newKey faults).1

/-- Opening with either key keeps the phase. -/
theorem open_phase (hrotating : Rotating crypto oldKey newKey old new data journal)
    (faults : Faults) {key : Key} (hkey : key = oldKey ∨ key = newKey)
    (h : Phase crypto oldKey newKey old new data disk role) :
    Phase crypto oldKey newKey old new data (openStore v crypto disk key faults).1 role := by
  by_cases hrole : key = roleKey oldKey newKey role
  · rw [hrole]
    exact open_role_key hrotating faults h
  · obtain ⟨error, hopen⟩ := open_other_key hrotating faults h hkey hrole
    rw [hopen]
    exact h

/-- Attempts keep the phase. -/
theorem attempts_phase (hrotating : Rotating crypto oldKey newKey old new data journal)
    (attempts : List Attempt) :
    ∀ {disk : Disk}, Phase crypto oldKey newKey old new data disk role →
      Phase crypto oldKey newKey old new data
        (attempts.foldl (Attempt.run v crypto oldKey newKey) disk) role := by
  induction attempts with
  | nil => exact fun h => h
  | cons attempt rest ih =>
      intro disk h
      refine ih ?_
      cases attempt with
      | recover faults => exact (recover_phase hrotating faults h).1
      | openOld faults => exact open_phase hrotating faults (Or.inl rfl) h
      | openNew faults => exact open_phase hrotating faults (Or.inr rfl) h

/-- A rotation whose object agrees with the disk and whose secrets open computes its change. -/
theorem rotateMasterKey_change {store : CatalogStore v} {newMasterKey : KeyArg}
    (hsealed : Sealed crypto store.masterKey (inMemory store))
    (hkey : validateMasterKey newMasterKey = .ok newKey) (nonce : Name → Nonce) :
    ∃ change, (Operation.rotateMasterKey newMasterKey nonce).change crypto store = .ok change ∧
      change.key store = newKey := by
  have hreseal : ∃ records, store.records.mapM (store.resealRecord crypto newKey nonce) =
      .ok records := by
    rw [exists_mapM_eq_ok]
    intro current hcurrent
    obtain ⟨plaintext, hopen⟩ := hsealed current hcurrent
    -- a secret that opens is not empty, so it can be sealed again
    have hne : plaintext ≠ [] := by
      rintro rfl
      rw [openSecret] at hopen
      split at hopen <;> cases hopen
    have hread : store.readUpstreamSecret crypto current = .ok plaintext := by
      rw [CatalogStore.readUpstreamSecret, hopen]
    have hseal : ∃ envelope, sealSecret crypto (nonce current.1.id) plaintext newKey current.1.id
        (current.1.revision + 1) = .ok envelope := ⟨_, if_neg hne⟩
    obtain ⟨envelope, hseal⟩ := hseal
    simp only [CatalogStore.resealRecord, bind_eq_ok, pure_eq_ok]
    exact ⟨_, plaintext, hread, envelope, hseal, rfl⟩
  obtain ⟨records, hrecords⟩ := hreseal
  have hnewKey : (validateMasterKey newMasterKey).mapError
      (fun _ => (⟨.masterKey, "nova master key invalida"⟩ : StoreError)) = .ok newKey := by
    rw [hkey]
    rfl
  simp only [Operation.change, CatalogStore.rotateMasterKey, bind_eq_ok, pure_eq_ok]
  exact ⟨_, ⟨newKey, hnewKey, records, hrecords, rfl⟩, rfl⟩

/-- The journal of a rotation to a new key. -/
def rotationJournal (crypto : Crypto) (store : CatalogStore v) (change : Change v)
    (newKey : Key) : Journal :=
  newJournal crypto store.revision (some store.digest) (store.revision + 1)
    (change.target crypto store).digest store.masterKey newKey

/-- The change of a rotation, with its journal, is a rotation between two sealed catalogs. -/
theorem rotating_of_change {store : CatalogStore v} {change : Change v}
    (hagrees : Agrees crypto disk store)
    (hsealed : Sealed crypto store.masterKey (inMemory store))
    (htags : ∀ payload, crypto.tag store.masterKey payload ≠ crypto.tag newKey payload)
    (hkey : change.key store = newKey)
    (htarget : Sealed crypto (change.key store) (change.target crypto store)) :
    Rotating crypto store.masterKey newKey (inMemory store) (change.target crypto store)
      (journalContent (rotationJournal crypto store change newKey))
      (rotationJournal crypto store change newKey) := by
  have hcatalog := hagrees.catalogOk
  have hrevision : 1 ≤ store.revision := hcatalog.revision
  refine ⟨htags, parseJournalDocument_journalContent (newJournal_wellFormed ?_ ?_
    (crypto.digest_hex _)), newJournal_asOld, newJournal_asNew, ?_, newJournal_oldState hrevision,
    rfl, hsealed, ?_⟩
  · constructor
    · intro hzero
      omega
    · intro hnone
      cases hnone
  · intro digest hdigest
    cases hdigest
    exact hcatalog.digest
  · rw [Journal.isRotation, bne_iff_ne]
    exact htags _
  · rw [← hkey]
    exact htarget

/-- The cleanup of old backups keeps the phase. -/
theorem Phase.cleanup (h : Phase crypto oldKey newKey old new data disk role) (faults : Faults) :
    Phase crypto oldKey newKey old new data (cleanupManaged faults disk) role := by
  have hcore := core_cleanupManaged faults disk
  have hs := store_of_core hcore
  have ha := anchor_of_core hcore
  cases h with
  | done h => exact .done (h.cleanup faults)
  | oldPair hjournal hstore hanchor => exact .oldPair hjournal (hstore.congr hs) (hanchor.congr ha)
  | newStore hjournal hstore hanchor =>
      exact .newStore hjournal (hstore.congr hs) (hanchor.congr ha)
  | newPair hjournal hstore hanchor => exact .newPair hjournal (hstore.congr hs) (hanchor.congr ha)

/-- **What the transaction of a rotation leaves**: the old role with the old store, or the new role
with the new one. -/
theorem rotation_leaves {newData : Content} {backup : Option (Content × Nat)}
    (hrotating : Rotating crypto oldKey newKey old new (journalContent journal) journal)
    (hsettled : Settled crypto oldKey disk (some old))
    (hparse : parseCatalog v crypto newData newKey = .ok new)
    (h : Leaves (persistSteps journal newData (Anchor.ofState new.state) backup true) disk disk') :
    (Phase crypto oldKey newKey old new (journalContent journal) disk' .old ∧
        disk'.store = disk.store) ∨
      (Phase crypto oldKey newKey old new (journalContent journal) disk' .new ∧
        disk'.store = some newData) := by
  rcases persist_leaves h with hcore | hcore | hcore | hcore | rfl
  · exact Or.inl ⟨.done ⟨hsettled.congr hcore, fun hrole => (nomatch hrole)⟩, store_of_core hcore⟩
  · exact Or.inl ⟨.oldPair (journal_of_core hcore) (hsettled.store.congr (store_of_core hcore))
      (hsettled.anchor.congr (anchor_of_core hcore)), store_of_core hcore⟩
  · exact Or.inr ⟨.newStore (journal_of_core hcore) ⟨_, store_of_core hcore, hparse⟩
      (hsettled.anchor.congr (anchor_of_core hcore)), store_of_core hcore⟩
  · exact Or.inr ⟨.newPair (journal_of_core hcore) ⟨_, store_of_core hcore, hparse⟩
      (hrotating.anchor (anchor_of_core hcore)), store_of_core hcore⟩
  · have hcore : core (applyAll (persistSteps journal newData (Anchor.ofState new.state) backup true)
        disk) = _ := core_applyAll_persist disk
    exact Or.inr ⟨.done ⟨⟨journal_of_core hcore, ⟨_, store_of_core hcore, hparse⟩,
      hrotating.anchor (anchor_of_core hcore)⟩, fun _ => backups_applyAll_persist disk⟩,
      store_of_core hcore⟩

/-- What the steps of a rotation leave, read against the store that was there before. -/
theorem commit_rotation_leaves {store : CatalogStore v} {change : Change v} {oldData : Content}
    (hrotating : Rotating crypto store.masterKey newKey (inMemory store)
      (change.target crypto store) (journalContent (rotationJournal crypto store change newKey))
      (rotationJournal crypto store change newKey))
    (hsettled : Settled crypto store.masterKey disk (some (inMemory store)))
    (hok : ChangeOk store change) (hkey : change.key store = newKey)
    (h : Leaves (change.steps crypto store oldData) disk disk') :
    ∃ role, Phase crypto store.masterKey newKey (inMemory store) (change.target crypto store)
      (journalContent (rotationJournal crypto store change newKey)) disk' role ∧
      (role = .new ↔ disk'.store ≠ disk.store) := by
  have hparse : parseCatalog v crypto _ _ = .ok (change.target crypto store) := parse_target hok
  rw [hkey] at hparse
  -- the old key does not authenticate what is written, so it differs from the old store
  have hreplaced : some (serializeDocument crypto (store.revision + 1) change.records newKey) ≠
      disk.store := by
    obtain ⟨oldData, holdData, holdParse⟩ := hsettled.store
    rw [holdData]
    intro hsame
    cases hsame
    rw [parseCatalog_other_key (fun payload => (hrotating.tags payload).symm) hparse] at holdParse
    cases holdParse
  have hpurge : (newKey != store.masterKey) = true := by
    rw [bne_iff_ne]
    exact hrotating.keys_ne.symm
  rw [Change.steps, hkey, hpurge] at h
  rcases leaves_quiet rfl h with hcore | h
  · refine ⟨.old, .done ⟨hsettled.congr hcore, fun hrole => (nomatch hrole)⟩, ?_⟩
    exact ⟨fun hrole => (nomatch hrole), fun hne => absurd (store_of_core hcore) hne⟩
  · rcases rotation_leaves hrotating hsettled hparse h with ⟨hphase, hsame⟩ | ⟨hphase, hnew⟩
    · exact ⟨.old, hphase, fun hrole => (nomatch hrole), fun hne => absurd hsame hne⟩
    · refine ⟨.new, hphase, fun _ => ?_, fun _ => rfl⟩
      rw [hnew]
      exact hreplaced

/-- **Where a rotation can stop.** Whatever happens to it, the disk is in a phase, and its role is the
new one exactly when the store was replaced. -/
theorem rotate_phase {store : CatalogStore v} {newMasterKey : KeyArg} (nonce : Name → Nonce)
    (faults : Faults) (hagrees : Agrees crypto disk store)
    (hsealed : Sealed crypto store.masterKey (inMemory store))
    (htags : ∀ payload, crypto.tag store.masterKey payload ≠ crypto.tag newKey payload)
    (hkey : validateMasterKey newMasterKey = .ok newKey) :
    ∃ new data journal role,
      Rotating crypto store.masterKey newKey (inMemory store) new data journal ∧
      Phase crypto store.masterKey newKey (inMemory store) new data
        (Operation.run crypto (.rotateMasterKey newMasterKey nonce) disk store faults).1 role ∧
      (role = .new ↔
        (Operation.run crypto (.rotateMasterKey newMasterKey nonce) disk store faults).1.store ≠
          disk.store) := by
  obtain ⟨change, hchange, hchangeKey⟩ := rotateMasterKey_change hsealed hkey nonce
  have hok : ∀ change', (Operation.rotateMasterKey newMasterKey nonce).change crypto store =
      .ok change' → ChangeOk store change' := fun change' => change_ok trivial hagrees.distinct
  have hrotating := rotating_of_change hagrees hsealed htags hchangeKey
    (sealed_change hsealed hchange)
  have hsettled := settled_of_reads hagrees.settled hagrees.reads
  have hresult := run_result disk faults hok
  generalize Operation.run crypto (.rotateMasterKey newMasterKey nonce) disk store faults = result
    at hresult
  refine ⟨change.target crypto store, journalContent (rotationJournal crypto store change newKey),
    rotationJournal crypto store change newKey, ?_⟩
  cases hresult with
  | refused error hrefused =>
      exact ⟨.old, hrotating, .done ⟨hsettled, fun hrole => (nomatch hrole)⟩,
        fun hrole => (nomatch hrole), fun hne => absurd rfl hne⟩
  | returned change' oldData hopen hchange' hstore =>
      rw [hchange] at hchange'
      cases hchange'
      obtain ⟨role, hphase, hiff⟩ := commit_rotation_leaves hrotating hsettled (hok change hchange)
        hchangeKey (leaves_applyAll (change.steps crypto store oldData) disk)
      exact ⟨role, hrotating, hphase.cleanup faults, hiff⟩
  | raised change' oldData disk' error hopen hchange' hrun hpair =>
      rw [hchange] at hchange'
      cases hchange'
      obtain ⟨role, hphase, hiff⟩ := commit_rotation_leaves hrotating hsettled (hok change hchange)
        hchangeKey hrun
      exact ⟨role, hrotating, hphase, hiff⟩
  | stopped change' oldData disk' hopen hchange' hrun =>
      rw [hchange] at hchange'
      cases hchange'
      obtain ⟨role, hphase, hiff⟩ := commit_rotation_leaves hrotating hsettled (hok change hchange)
        hchangeKey hrun
      exact ⟨role, hrotating, hphase, hiff⟩

/-! ### The result -/

/-- A disk from which the rotation is recovered with this role at this revision. -/
structure Recovers (v : Validators) (crypto : Crypto) (oldKey newKey : Key) (disk : Disk)
    (role : KeyRole) (revision : Nat) : Prop where
  /-- Recovering with both keys succeeds. -/
  succeeds : ∃ disk', recoverMasterKeyRotation v crypto disk oldKey newKey {} =
    (disk', .returned ⟨role, revision, false⟩)
  /-- Inspecting reports the same key and revision and writes nothing. -/
  inspected : ∃ pending, inspectMasterKeyRotation v crypto disk oldKey newKey =
    (disk, .returned ⟨role, revision, pending⟩)
  /-- A recovery that returns reports this key and revision, and leaves no journal, and no backup
  under the new key. -/
  reports : ∀ faults disk' status,
    recoverMasterKeyRotation v crypto disk oldKey newKey faults = (disk', .returned status) →
    status = ⟨role, revision, false⟩ ∧ disk'.journal = none ∧ (role = .new → disk'.backups = [])
  /-- After it the confirmed key opens the catalog, at that revision. -/
  opens : ∀ faults disk' status,
    recoverMasterKeyRotation v crypto disk oldKey newKey faults = (disk', .returned status) →
    ∃ disk'' store, openStore v crypto disk' (roleKey oldKey newKey role) {} =
      (disk'', .returned store) ∧ store.revision = revision
  /-- The other key does not. -/
  refuses : ∀ faults disk' status key faults',
    recoverMasterKeyRotation v crypto disk oldKey newKey faults = (disk', .returned status) →
    (key = oldKey ∨ key = newKey) → key ≠ roleKey oldKey newKey role →
    ∃ error, openStore v crypto disk' key faults' = (disk', .raised error)

/-- Every phase recovers. -/
theorem recovers_of_phase (hrotating : Rotating crypto oldKey newKey old new data journal)
    (h : Phase crypto oldKey newKey old new data disk role) :
    Recovers v crypto oldKey newKey disk role (roleCatalog old new role).revision := by
  have hreturned : ∀ faults disk' status,
      recoverMasterKeyRotation v crypto disk oldKey newKey faults = (disk', .returned status) →
      status = ⟨role, (roleCatalog old new role).revision, false⟩ ∧
        Done crypto oldKey newKey old new disk' role := by
    intro faults disk' status hrecover
    have hphase := (recover_phase hrotating faults h).2
    rw [hrecover] at hphase
    exact hphase status rfl
  refine ⟨recover_no_faults hrotating h, inspect_phase hrotating h, ?_, ?_, ?_⟩
  · intro faults disk' status hrecover
    obtain ⟨hstatus, hdone⟩ := hreturned faults disk' status hrecover
    exact ⟨hstatus, hdone.settled.journal, hdone.backups⟩
  · intro faults disk' status hrecover
    obtain ⟨-, hdone⟩ := hreturned faults disk' status hrecover
    exact ⟨_, _, openStore_no_faults hdone.settled.plan hdone.settled.reads, rfl⟩
  · intro faults disk' status key faults' hrecover hkey hne
    obtain ⟨-, hdone⟩ := hreturned faults disk' status hrecover
    exact open_other_key hrotating faults' (.done hdone) hkey hne

/-- **Crash safety of the rotation of the master key.** Take an object that agrees with its disk and
whose secrets open under its key, and let `rotate_master_key` to a key with other tags stop or raise
anywhere, or return. Then one key is confirmed, the new one exactly when the store was replaced; and
after any number of recoveries and openings, interrupted or not, the disk recovers to that key. -/
theorem rotation_recovers {store : CatalogStore v} {newMasterKey : KeyArg} (nonce : Name → Nonce)
    (faults : Faults) (hagrees : Agrees crypto disk store)
    (hsealed : Sealed crypto store.masterKey (inMemory store))
    (htags : ∀ payload, crypto.tag store.masterKey payload ≠ crypto.tag newKey payload)
    (hkey : validateMasterKey newMasterKey = .ok newKey) :
    ∃ role revision,
      (role = KeyRole.new ↔
        (Operation.run crypto (.rotateMasterKey newMasterKey nonce) disk store faults).1.store ≠
          disk.store) ∧
      ∀ attempts : List Attempt, Recovers v crypto store.masterKey newKey
        (attempts.foldl (Attempt.run v crypto store.masterKey newKey)
          (Operation.run crypto (.rotateMasterKey newMasterKey nonce) disk store faults).1)
        role revision := by
  obtain ⟨new, data, journal, role, hrotating, hphase, hiff⟩ :=
    rotate_phase nonce faults hagrees hsealed htags hkey
  refine ⟨role, (roleCatalog (inMemory store) new role).revision, hiff, ?_⟩
  intro attempts
  exact recovers_of_phase hrotating (attempts_phase hrotating attempts hphase)

/-- A rotation of the first catalog from the key of zeros to the key of ones, stopped between store
and anchor: the journal is pending, and the disk recovers to the new key. -/
theorem rotation_recovers_firstStore :
    ∃ role revision,
      (role = KeyRole.new ↔
        (Operation.run emptyCrypto
          (.rotateMasterKey (.bytes (List.replicate 32 1)) fun _ => ⟨List.replicate 12 0, rfl⟩)
          firstDisk firstStore
          { outcomes := [.done, .done, .done, .stopped .after] }).1.store ≠ firstDisk.store) ∧
      Recovers noRecords emptyCrypto (constantKey 0) (constantKey 1)
        (Operation.run emptyCrypto
          (.rotateMasterKey (.bytes (List.replicate 32 1)) fun _ => ⟨List.replicate 12 0, rfl⟩)
          firstDisk firstStore { outcomes := [.done, .done, .done, .stopped .after] }).1
        role revision := by
  have hagrees : Agrees emptyCrypto firstDisk firstStore :=
    (@agrees_initializeStore _ _ emptyDisk _ (constantKey 0) {} _ rfl).1
  have hsealed : Sealed emptyCrypto firstStore.masterKey (inMemory firstStore) :=
    fun _ hrecord => (nomatch hrecord)
  have htags : ∀ payload,
      emptyCrypto.tag firstStore.masterKey payload ≠ emptyCrypto.tag (constantKey 1) payload := by
    intro payload
    show emptyTag (constantKey 0) payload ≠ emptyTag (constantKey 1) payload
    unfold emptyTag
    simp only
    split <;> decide
  have hkey : validateMasterKey (.bytes (List.replicate 32 1)) = .ok (constantKey 1) := rfl
  obtain ⟨role, revision, hiff, hrecovers⟩ := rotation_recovers
    (fun _ => ⟨List.replicate 12 0, rfl⟩) { outcomes := [.done, .done, .done, .stopped .after] }
    hagrees hsealed htags hkey
  exact ⟨role, revision, hiff, hrecovers []⟩

end MaskGateway.Proofs.Datasource
