import MaskGateway.Proofs.Datasource.Outcomes

/-!
# `MaskGateway.Proofs.Datasource.CrashSafety`: a transaction is atomic across crashes

Under one key a disk is `Settled` on a catalog (or on none), or a transaction between two catalogs
is `Pending` on it. A transaction takes a settled disk to one of these (`transaction_leaves`), and
so does `open`, interrupted or not (`open_settled`, `open_pending`).

`World` is a disk with the process that uses it and what an observer notes: the catalogs before and
after the last transaction, and the revision of the last call that returned. `reached_inv` carries
the invariant over whole runs of initializing, opening, operating and crashing, and
`reopen_after_crash` is what it gives.
-/

set_option autoImplicit false

namespace MaskGateway.Proofs.Datasource

open MaskGateway.Datasource MaskGateway.Lib

variable {v : Validators} {crypto : Crypto} {key : Key}

/-! ### What a file holds -/

/-- The store holds the catalog, or is absent for none. -/
def StoreIs (crypto : Crypto) (key : Key) (disk : Disk) : Option (ParsedCatalog v) → Prop
  | none => disk.store = none
  | some catalog => ∃ data, disk.store = some data ∧ parseCatalog v crypto data key = .ok catalog

/-- The anchor is that of the catalog, or is absent for none. -/
def AnchorIs (disk : Disk) : Option (ParsedCatalog v) → Prop
  | none => disk.anchor = none
  | some catalog => ∃ data anchor, disk.anchor = some data ∧ parseAnchor data = .ok anchor ∧
      catalog.state = anchor.state

theorem StoreIs.state {disk : Disk} {catalog : Option (ParsedCatalog v)}
    (h : StoreIs crypto key disk catalog) :
    optionalStoreState v crypto disk.store key = .ok (catalog.map ParsedCatalog.state) := by
  cases catalog with
  | none =>
      rw [show disk.store = none from h]
      rfl
  | some catalog =>
      obtain ⟨data, hdata, hparse⟩ := h
      rw [hdata, optionalStoreState, hparse]
      rfl

theorem AnchorIs.state {disk : Disk} {catalog : Option (ParsedCatalog v)}
    (h : AnchorIs disk catalog) :
    optionalAnchorState disk.anchor = .ok (catalog.map ParsedCatalog.state) := by
  cases catalog with
  | none =>
      rw [show disk.anchor = none from h]
      rfl
  | some catalog =>
      obtain ⟨data, anchor, hdata, hparse, hstate⟩ := h
      rw [hdata, optionalAnchorState, hparse, Option.map_some, hstate]
      rfl

theorem StoreIs.congr {disk disk' : Disk} {catalog : Option (ParsedCatalog v)}
    (hstore : disk'.store = disk.store) (h : StoreIs crypto key disk catalog) :
    StoreIs crypto key disk' catalog := by
  cases catalog with
  | none => exact hstore.trans h
  | some catalog =>
      obtain ⟨data, hdata, hparse⟩ := h
      exact ⟨data, hstore.trans hdata, hparse⟩

theorem AnchorIs.congr {disk disk' : Disk} {catalog : Option (ParsedCatalog v)}
    (hanchor : disk'.anchor = disk.anchor) (h : AnchorIs disk catalog) :
    AnchorIs disk' catalog := by
  cases catalog with
  | none => exact hanchor.trans h
  | some catalog =>
      obtain ⟨data, anchor, hdata, hparse, hstate⟩ := h
      exact ⟨data, anchor, hanchor.trans hdata, hparse, hstate⟩

/-! ### The two kinds of disks -/

/-- No transaction is pending, and both files are at the catalog. -/
structure Settled (crypto : Crypto) (key : Key) (disk : Disk)
    (catalog : Option (ParsedCatalog v)) : Prop where
  journal : disk.journal = none
  store : StoreIs crypto key disk catalog
  anchor : AnchorIs disk catalog

/-- The journal of a transaction under the key between two catalogs. -/
structure JournalOf (crypto : Crypto) (key : Key) (data : Content) (journal : Journal)
    (old : Option (ParsedCatalog v)) (new : ParsedCatalog v) : Prop where
  document : parseJournalDocument data = .ok journal
  asOld : (journalRoles crypto journal key).1 = true
  single : journal.isRotation = false
  oldState : journal.oldState = old.map ParsedCatalog.state
  newState : journal.newState = new.state

/-- A transaction is pending: its journal is on disk, and the files are at one of the three points
that it passes through. -/
structure Pending (crypto : Crypto) (key : Key) (disk : Disk) (old : Option (ParsedCatalog v))
    (new : ParsedCatalog v) : Prop where
  journal : ∃ data journal, disk.journal = some data ∧
    JournalOf crypto key data journal old new
  files : (StoreIs crypto key disk old ∧ AnchorIs disk old) ∨
    (StoreIs crypto key disk (some new) ∧ AnchorIs disk old) ∨
    (StoreIs crypto key disk (some new) ∧ AnchorIs disk (some new))

theorem Settled.congr {disk disk' : Disk} {catalog : Option (ParsedCatalog v)}
    (hcore : core disk' = core disk) (h : Settled crypto key disk catalog) :
    Settled crypto key disk' catalog :=
  ⟨(journal_of_core hcore).trans h.journal, h.store.congr (store_of_core hcore),
    h.anchor.congr (anchor_of_core hcore)⟩

theorem Pending.congr {disk disk' : Disk} {old : Option (ParsedCatalog v)}
    {new : ParsedCatalog v} (hcore : core disk' = core disk)
    (h : Pending crypto key disk old new) : Pending crypto key disk' old new := by
  have hstore : disk'.store = disk.store := store_of_core hcore
  have hanchor : disk'.anchor = disk.anchor := anchor_of_core hcore
  obtain ⟨data, journal, hdata, hjournal⟩ := h.journal
  refine ⟨⟨data, journal, (journal_of_core hcore).trans hdata, hjournal⟩, ?_⟩
  rcases h.files with ⟨hs, ha⟩ | ⟨hs, ha⟩ | ⟨hs, ha⟩
  · exact Or.inl ⟨hs.congr hstore, ha.congr hanchor⟩
  · exact Or.inr (Or.inl ⟨hs.congr hstore, ha.congr hanchor⟩)
  · exact Or.inr (Or.inr ⟨hs.congr hstore, ha.congr hanchor⟩)

/-- **What a transaction under one key leaves**: the old files, a pending transaction, or the new
catalog settled. -/
theorem transaction_leaves {disk disk' : Disk} {journal : Journal} {data : Content}
    {anchor : Anchor} {backup : Option (Content × Nat)} {purge : Bool}
    {old : Option (ParsedCatalog v)} {new : ParsedCatalog v}
    (hjournal : JournalOf crypto key (journalContent journal) journal old new)
    (hstore : StoreIs crypto key disk old) (hanchor : AnchorIs disk old)
    (hdata : parseCatalog v crypto data key = .ok new)
    (hwritten : parseAnchor (anchorContent anchor) = .ok anchor) (hstate : new.state = anchor.state)
    (h : Leaves (persistSteps journal data anchor backup purge) disk disk') :
    core disk' = core disk ∨ Pending crypto key disk' old new ∨
      Settled crypto key disk' (some new) := by
  have hjournalIs : ∀ {s a}, core disk' = (some (journalContent journal), s, a) →
      ∃ data journal, disk'.journal = some data ∧ JournalOf crypto key data journal old new :=
    fun hcore => ⟨_, journal, journal_of_core hcore, hjournal⟩
  have hnewStore : ∀ {j a}, core disk' = (j, some data, a) →
      StoreIs crypto key disk' (some new) :=
    fun hcore => ⟨data, store_of_core hcore, hdata⟩
  have hnewAnchor : ∀ {j s}, core disk' = (j, s, some (anchorContent anchor)) →
      AnchorIs disk' (some new) :=
    fun hcore => ⟨_, anchor, anchor_of_core hcore, hwritten, hstate⟩
  rcases persist_leaves h with hsame | hcore | hcore | hcore | rfl
  · exact Or.inl hsame
  · exact Or.inr (Or.inl ⟨hjournalIs hcore, Or.inl
      ⟨hstore.congr (store_of_core hcore),
        hanchor.congr (anchor_of_core hcore)⟩⟩)
  · exact Or.inr (Or.inl ⟨hjournalIs hcore, Or.inr (Or.inl
      ⟨hnewStore hcore, hanchor.congr (anchor_of_core hcore)⟩)⟩)
  · exact Or.inr (Or.inl ⟨hjournalIs hcore, Or.inr (Or.inr
      ⟨hnewStore hcore, hnewAnchor hcore⟩)⟩)
  · have hcore : core (applyAll (persistSteps journal data anchor backup purge) disk) = _ :=
      core_applyAll_persist disk
    exact Or.inr (Or.inr ⟨journal_of_core hcore, hnewStore hcore, hnewAnchor hcore⟩)

/-! ### Opening such a disk -/

/-- How `open` ends under a plan: interrupted in it or refused after it, or with the catalog that the
files hold then. -/
theorem openStore_result {disk : Disk} {plan : Option RecoveryPlan} (faults : Faults)
    (hplan : planRecovery v crypto disk key = .ok plan) :
    (Leaves (planSteps plan) disk (openStore v crypto disk key faults).1 ∧
      ∀ store, (openStore v crypto disk key faults).2 ≠ .returned store) ∨
    ∃ catalog, readPair v crypto (applyAll (planSteps plan) disk) key = .ok catalog ∧
      openStore v crypto disk key faults =
        (cleanupManaged faults (applyAll (planSteps plan) disk),
          .returned (CatalogStore.ofParsed key catalog)) := by
  have hleaves := runSteps_leaves (planSteps plan) faults.outcomes false disk
  rw [openStore, hplan]
  simp only
  rw [applyRecovery_eq]
  rcases hrun : runSteps (planSteps plan) faults.outcomes false disk with
    ⟨disk₁, _ | ⟨attempted, error⟩ | _⟩
  · rw [hrun] at hleaves
    simp only
    cases hread : readPair v crypto disk₁ key with
    | error error => exact Or.inl ⟨hleaves, fun _ h => (by cases h)⟩
    | ok catalog =>
        right
        rw [runSteps_finished _ hrun] at hread ⊢
        exact ⟨catalog, hread, rfl⟩
  · rw [hrun] at hleaves
    exact Or.inl ⟨hleaves, fun _ h => (by cases h)⟩
  · rw [hrun] at hleaves
    exact Or.inl ⟨hleaves, fun _ h => (by cases h)⟩

/-- Without faults `open` returns what the files hold after the plan. -/
theorem openStore_no_faults {disk : Disk} {plan : Option RecoveryPlan} {catalog : ParsedCatalog v}
    (hplan : planRecovery v crypto disk key = .ok plan)
    (hread : readPair v crypto (applyAll (planSteps plan) disk) key = .ok catalog) :
    openStore v crypto disk key {} =
      (cleanupManaged {} (applyAll (planSteps plan) disk),
        .returned (CatalogStore.ofParsed key catalog)) := by
  rw [openStore, hplan]
  simp only
  rw [applyRecovery_eq, runSteps_no_faults]
  simp only
  rw [hread]

/-- Reading a settled pair. -/
theorem Settled.reads {disk : Disk} {catalog : ParsedCatalog v}
    (h : Settled crypto key disk (some catalog)) : readPair v crypto disk key = .ok catalog := by
  obtain ⟨data, hdata, hparse⟩ := h.store
  obtain ⟨anchorData, anchor, hanchorData, hanchor, hstate⟩ := h.anchor
  exact readPair_ok.mpr ⟨data, anchorData, anchor, hdata, hanchorData, hparse, hanchor, hstate⟩

/-- A pair that reads, without a journal, is settled. -/
theorem settled_of_reads {disk : Disk} {catalog : ParsedCatalog v} (hjournal : disk.journal = none)
    (h : readPair v crypto disk key = .ok catalog) : Settled crypto key disk (some catalog) := by
  obtain ⟨data, anchorData, anchor, hdata, hanchorData, hparse, hanchor, hstate⟩ := readPair_ok.mp h
  exact ⟨hjournal, ⟨data, hdata, hparse⟩, ⟨anchorData, anchor, hanchorData, hanchor, hstate⟩⟩

/-- The plan on a settled disk is to do nothing. -/
theorem Settled.plan {disk : Disk} {catalog : Option (ParsedCatalog v)}
    (h : Settled crypto key disk catalog) : planRecovery v crypto disk key = .ok none := by
  rw [planRecovery, h.journal]

/-- The plan on a pending disk, and the catalog that it settles on. -/
theorem Pending.plan {disk : Disk} {old : Option (ParsedCatalog v)} {new : ParsedCatalog v}
    (h : Pending crypto key disk old new) :
    ∃ plan result, planRecovery v crypto disk key = .ok (some plan) ∧
      (result = old ∨ result = some new) ∧
      Settled crypto key (applyAll plan.steps disk) result ∧
      StoreIs crypto key disk result ∧
      ∀ disk', Leaves plan.steps disk disk' →
        Pending crypto key disk' old new ∨ Settled crypto key disk' result := by
  obtain ⟨data, journal, hdata, hjournal⟩ := h.journal
  have hformed := wellFormed_of_parse hjournal.document
  have hne := oldState_ne_newState hformed
  have hroles : parseJournal crypto data key = .ok (journal, journalRoles crypto journal key) :=
    parseJournal_ok.mpr ⟨hjournal.document, rfl, fun hnone => by
      rw [hjournal.asOld] at hnone
      cases hnone.1⟩
  -- the plan is what the table has for the states of the two files
  have hplan : ∀ {storeState anchorState : Option State} {advance : Option Anchor},
      optionalStoreState v crypto disk.store key = .ok storeState →
      optionalAnchorState disk.anchor = .ok anchorState →
      allowedTransition journal storeState anchorState = some advance →
      planRecovery v crypto disk key = .ok (some ⟨advance, false⟩) := by
    intro storeState anchorState advance hstore hanchor hallowed
    rw [planRecovery, hdata]
    simp [hroles, hanchor, hstore, hjournal.single, hallowed, Bind.bind, Except.bind, pure,
      Except.pure]
  have hold := hjournal.oldState
  have hnew := hjournal.newState
  rcases h.files with ⟨hs, ha⟩ | ⟨hs, ha⟩ | ⟨hs, ha⟩
  · -- old and old: the intent is dropped
    have hallowed : allowedTransition journal (old.map ParsedCatalog.state)
        (old.map ParsedCatalog.state) = some none := by
      rw [allowedTransition, hold, if_pos ⟨rfl, rfl⟩]
    have hcore := core_applyAll_recovery ⟨none, false⟩ disk
    have hsettled : Settled crypto key (applyAll (RecoveryPlan.steps ⟨none, false⟩) disk) old :=
      ⟨journal_of_core hcore, hs.congr (store_of_core hcore), ha.congr (anchor_of_core hcore)⟩
    refine ⟨⟨none, false⟩, old, hplan hs.state ha.state hallowed, Or.inl rfl, hsettled, hs, ?_⟩
    intro disk' hleaves
    rcases recovery_leaves hleaves with hsame | ⟨_, ⟨⟩, -⟩ | rfl
    · exact Or.inl (h.congr hsame)
    · exact Or.inr hsettled
  · -- new and old: the anchor is brought up
    have hallowed : allowedTransition journal (some new.state) (old.map ParsedCatalog.state) =
        some (some (Anchor.ofState journal.newState)) := by
      rw [allowedTransition, ← hnew, ← hold, if_neg, if_pos ⟨rfl, rfl⟩]
      exact fun heq => hne heq.1.symm
    have hone : 1 ≤ (Anchor.ofState journal.newState).revision := by
      show 1 ≤ journal.newRevision
      have := hformed.next
      omega
    have hwritten := parseAnchor_anchorContent hone hformed.newDigest
    have hcore := core_applyAll_recovery ⟨some (Anchor.ofState journal.newState), false⟩ disk
    have hsettled : Settled crypto key
        (applyAll (RecoveryPlan.steps ⟨some (Anchor.ofState journal.newState), false⟩) disk)
        (some new) :=
      ⟨journal_of_core hcore, hs.congr (store_of_core hcore),
        ⟨_, _, anchor_of_core hcore, hwritten, hnew.symm⟩⟩
    refine ⟨_, some new, hplan hs.state ha.state hallowed, Or.inr rfl, hsettled, hs, ?_⟩
    intro disk' hleaves
    rcases recovery_leaves hleaves with hsame | ⟨anchor, hanchor, hcore'⟩ | rfl
    · exact Or.inl (h.congr hsame)
    · cases hanchor
      left
      exact ⟨⟨data, journal, (journal_of_core hcore').trans hdata, hjournal⟩,
        Or.inr (Or.inr ⟨hs.congr (store_of_core hcore'),
          ⟨_, _, anchor_of_core hcore', hwritten, hnew.symm⟩⟩)⟩
    · exact Or.inr hsettled
  · -- new and new: only the journal is left
    have hallowed : allowedTransition journal (some new.state) (some new.state) = some none := by
      rw [allowedTransition, ← hnew, if_neg, if_neg, if_pos ⟨rfl, rfl⟩]
      · exact fun heq => hne heq.2.symm
      · exact fun heq => hne heq.1.symm
    have hcore := core_applyAll_recovery ⟨none, false⟩ disk
    have hsettled : Settled crypto key (applyAll (RecoveryPlan.steps ⟨none, false⟩) disk)
        (some new) :=
      ⟨journal_of_core hcore, hs.congr (store_of_core hcore), ha.congr (anchor_of_core hcore)⟩
    refine ⟨⟨none, false⟩, some new, hplan hs.state ha.state hallowed, Or.inr rfl, hsettled, hs,
      ?_⟩
    intro disk' hleaves
    rcases recovery_leaves hleaves with hsame | ⟨_, ⟨⟩, -⟩ | rfl
    · exact Or.inl (h.congr hsame)
    · exact Or.inr hsettled

/-- **Opening a settled disk**: the files stay, and what is returned is the catalog they hold. -/
theorem open_settled {disk : Disk} {catalog : Option (ParsedCatalog v)} (faults : Faults)
    (h : Settled crypto key disk catalog) :
    Settled crypto key (openStore v crypto disk key faults).1 catalog ∧
      ∀ store, (openStore v crypto disk key faults).2 = .returned store →
        ∃ c, catalog = some c ∧ store = CatalogStore.ofParsed key c := by
  rcases openStore_result faults h.plan with ⟨hleaves, hnot⟩ | ⟨c, hread, hopen⟩
  · have hsame : (openStore v crypto disk key faults).1 = disk := hleaves
    rw [hsame]
    exact ⟨h, fun store hstore => absurd hstore (hnot store)⟩
  · rw [hopen]
    refine ⟨h.congr (core_cleanupManaged faults disk), ?_⟩
    intro store hstore
    cases hstore
    have hread' : readPair v crypto disk key = .ok c := hread
    cases catalog with
    | none =>
        obtain ⟨_, _, _, hdata, -⟩ := readPair_ok.mp hread'
        rw [show disk.store = none from h.store] at hdata
        cases hdata
    | some catalog =>
        rw [h.reads] at hread'
        cases hread'
        exact ⟨c, rfl, rfl⟩

/-- **Opening a pending disk**: it stays pending or settles on one of the two catalogs, and what is
returned is the one it settled on. -/
theorem open_pending {disk : Disk} {old : Option (ParsedCatalog v)} {new : ParsedCatalog v}
    (faults : Faults) (h : Pending crypto key disk old new) :
    (Pending crypto key (openStore v crypto disk key faults).1 old new ∧
        ∀ store, (openStore v crypto disk key faults).2 ≠ .returned store) ∨
      ∃ result, (result = old ∨ result = some new) ∧
        Settled crypto key (openStore v crypto disk key faults).1 result ∧
        ∀ store, (openStore v crypto disk key faults).2 = .returned store →
          ∃ c, result = some c ∧ store = CatalogStore.ofParsed key c := by
  obtain ⟨plan, result, hplan, hresult, hsettled, -, hleaves⟩ := h.plan
  rcases openStore_result faults hplan with ⟨hrun, hnot⟩ | ⟨c, hread, hopen⟩
  · rcases hleaves _ hrun with hpending | hdone
    · exact Or.inl ⟨hpending, hnot⟩
    · exact Or.inr ⟨result, hresult, hdone, fun store hstore => absurd hstore (hnot store)⟩
  · right
    rw [hopen]
    refine ⟨result, hresult, hsettled.congr (core_cleanupManaged faults _), ?_⟩
    intro store hstore
    cases hstore
    have hread' : readPair v crypto (applyAll plan.steps disk) key = .ok c := hread
    cases result with
    | none =>
        obtain ⟨_, _, _, hdata, -⟩ := readPair_ok.mp hread'
        rw [show (applyAll plan.steps disk).store = none from hsettled.store] at hdata
        cases hdata
    | some catalog =>
        rw [hsettled.reads] at hread'
        cases hread'
        exact ⟨c, rfl, rfl⟩

end MaskGateway.Proofs.Datasource
