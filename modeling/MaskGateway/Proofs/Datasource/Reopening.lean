import MaskGateway.Proofs.Datasource.CrashSafety

/-!
# `MaskGateway.Proofs.Datasource.Reopening`: runs of one catalog under one key

`World` is a disk with the process that uses it, if any, and what an observer notes: whether both
files have been there, the catalogs before and after the last transaction that was begun, and the
revision of the last call that returned. An `Event` is a call, with what goes wrong in it, or the end
of the process. `reached_inv` carries the invariant over every run, and `reopen_after_crash` is what
it means for the next `open`.
-/

set_option autoImplicit false

namespace MaskGateway.Proofs.Datasource

open MaskGateway.Datasource MaskGateway.Lib

variable {v : Validators} {crypto : Crypto} {key : Key}

/-! ### Worlds -/

/-- Both files of the pair exist. -/
def hasPair (disk : Disk) : Bool := disk.store.isSome && disk.anchor.isSome

/-- A disk, its process, and what was seen so far. -/
structure World (v : Validators) where
  disk : Disk
  process : Option (CatalogStore v)
  /-- Both files have existed. -/
  pairSeen : Bool
  /-- The catalog before the last transaction that was begun. -/
  before : Option (ParsedCatalog v)
  /-- The catalog after it. -/
  after : Option (ParsedCatalog v)
  /-- The catalog revision of the last call that returned. -/
  success : Nat

/-- What can happen next. -/
inductive Event (v : Validators) where
  | initializing (faults : Faults)
  | opening (faults : Faults)
  | operating (operation : Operation v) (faults : Faults)
  /-- The process closes the catalog or dies. -/
  | leaving

/-- The catalog that `initialize` writes. -/
def firstCatalog (v : Validators) (crypto : Crypto) : ParsedCatalog v :=
  ⟨1, crypto.digest (makePayload (v := v) 1 []), []⟩

/-- What is left of the process after a call of an operation. -/
def survivor (store : CatalogStore v) : Reply (Answer v) → Option (CatalogStore v)
  | .stopped => none
  | _ => some store

/-- One event. The catalogs before and after are noted when a transaction is begun, not when a call
is refused. -/
def World.step (crypto : Crypto) (key : Key) (world : World v) : Event v → World v
  | .initializing faults =>
      let result := initializeStore v crypto world.disk key faults
      let seen := world.pairSeen || hasPair result.1
      match result.2 with
      | .returned store =>
          { disk := result.1, process := some store, pairSeen := seen, before := none
            after := some (firstCatalog v crypto), success := store.revision }
      | _ =>
          if world.disk.store.isSome || world.disk.anchor.isSome then
            { world with disk := result.1, pairSeen := seen }
          else
            { world with disk := result.1, pairSeen := seen, before := none
                         after := some (firstCatalog v crypto) }
  | .opening faults =>
      let result := openStore v crypto world.disk key faults
      let seen := world.pairSeen || hasPair result.1
      match result.2 with
      | .returned store =>
          { disk := result.1, process := some store, pairSeen := seen
            before := some (inMemory store), after := some (inMemory store)
            success := store.revision }
      | _ => { world with disk := result.1, pairSeen := seen }
  | .operating operation faults =>
      match world.process with
      | none => world
      | some store =>
          let result := operation.run crypto world.disk store faults
          let seen := world.pairSeen || hasPair result.1
          let success := match result.2.2 with
            | .returned _ => result.2.1.revision
            | _ => world.success
          match store.ensureOpen, operation.change crypto store with
          | .ok _, .ok change =>
              { disk := result.1, process := survivor result.2.1 result.2.2, pairSeen := seen
                before := some (inMemory store), after := some (change.target crypto store)
                success }
          | _, _ =>
              { world with disk := result.1, process := survivor result.2.1 result.2.2
                           pairSeen := seen, success }
  | .leaving => { world with process := none }

/-- The locks let one process in; the ids that `create` draws are new; no operation changes the
master key. -/
def Allowed (crypto : Crypto) (world : World v) : Event v → Prop
  | .initializing _ | .opening _ => world.process = none
  | .operating operation _ => ∀ store, world.process = some store → Fresh store operation ∧
      ∀ change, operation.change crypto store = .ok change → change.key store = store.masterKey
  | .leaving => True

/-- The worlds of all runs under one key from a disk that is settled on `first`: a catalog, or none
when the disk is empty. -/
inductive Reached (crypto : Crypto) (key : Key) (first : Option (ParsedCatalog v)) :
    World v → Prop
  | start {disk : Disk} (h : Settled crypto key disk first) :
      Reached crypto key first
        { disk, process := none, pairSeen := hasPair disk, before := first, after := first
          success := (first.map ParsedCatalog.revision).getD 0 }
  | step {world : World v} (event : Event v) (h : Reached crypto key first world)
      (hallowed : Allowed crypto world event) :
      Reached crypto key first (world.step crypto key event)

/-! ### The invariant -/

/-- A catalog that the next `open` may find: the one before or the one after, and not older than
the last success. -/
def Candidate (before after : Option (ParsedCatalog v)) (success : Nat)
    (catalog : Option (ParsedCatalog v)) : Prop :=
  (∀ c, catalog = some c → before = some c ∨ after = some c) ∧
    success ≤ (catalog.map ParsedCatalog.revision).getD 0

/-- The disk is settled on a candidate, or pending between two. -/
def Recoverable (crypto : Crypto) (key : Key) (disk : Disk)
    (before after : Option (ParsedCatalog v)) (success : Nat) : Prop :=
  (∃ catalog, Settled crypto key disk catalog ∧ Candidate before after success catalog) ∨
    ∃ old new, Pending crypto key disk old new ∧ Candidate before after success old ∧
      Candidate before after success (some new) ∧ (old = none → new = firstCatalog v crypto)

/-- The invariant of all runs. -/
structure Inv (crypto : Crypto) (key : Key) (world : World v) : Prop where
  disk : Recoverable crypto key world.disk world.before world.after world.success
  process : ∀ store, world.process = some store → store.poisoned = false →
    store.masterKey = key ∧ Agrees crypto world.disk store
  seen : world.pairSeen = true → hasPair world.disk = true

/-! ### Files do not go away -/

theorem hasPair_congr {disk disk' : Disk} (hcore : core disk' = core disk) :
    hasPair disk' = hasPair disk := by
  rw [hasPair, hasPair, store_of_core hcore, anchor_of_core hcore]

theorem hasPair_apply {disk : Disk} (step : Step) (h : hasPair disk = true) :
    hasPair (step.apply disk) = true := by
  have hboth : disk.store.isSome = true ∧ disk.anchor.isSome = true := by
    simpa [hasPair] using h
  cases step with
  | writeStore data => exact hboth.2
  | writeAnchor data => simp [hasPair, Step.apply, hboth.1]
  | writeBackup data revision => exact (hasPair_congr (core_addBackup ..)).trans h
  | _ => exact h

theorem hasPair_leaves (steps : List Step) :
    ∀ {disk disk' : Disk}, Leaves steps disk disk' → hasPair disk = true →
      hasPair disk' = true := by
  induction steps with
  | nil =>
      rintro disk disk' rfl h
      exact h
  | cons step rest ih =>
      intro disk disk' hleaves h
      rcases leaves_cons hleaves with hsame | rfl | hrest
      · exact (hasPair_congr hsame).trans h
      · exact hasPair_apply step h
      · exact ih hrest (hasPair_apply step h)

/-- What has been seen stays, when no file goes away. -/
theorem seen_step {seen : Bool} {disk disk' : Disk} (h : seen = true → hasPair disk = true)
    (hkeep : hasPair disk = true → hasPair disk' = true) :
    (seen || hasPair disk') = true → hasPair disk' = true := by
  intro hor
  rcases Bool.or_eq_true_iff.mp hor with hseen | hnow
  · exact hkeep (h hseen)
  · exact hnow

/-! ### Journals of transactions under one key -/

/-- The journal that a transaction under one key writes. -/
theorem journalOf_new {old : Option (ParsedCatalog v)} {new : ParsedCatalog v} {oldRevision : Nat}
    {oldDigest : Option Name}
    (hold : (newJournal crypto oldRevision oldDigest (oldRevision + 1) new.digest key
      key).oldState = old.map ParsedCatalog.state)
    (hnew : new.revision = oldRevision + 1) (hfirst : oldRevision = 0 ↔ oldDigest = none)
    (holdDigest : ∀ digest, oldDigest = some digest → fixedHex digest = true)
    (hnewDigest : fixedHex new.digest = true) :
    JournalOf crypto key
      (journalContent (newJournal crypto oldRevision oldDigest (oldRevision + 1) new.digest key key))
      (newJournal crypto oldRevision oldDigest (oldRevision + 1) new.digest key key) old new where
  document := parseJournalDocument_journalContent
    (newJournal_wellFormed hfirst holdDigest hnewDigest)
  asOld := newJournal_asOld
  single := newJournal_isRotation_self
  oldState := hold
  newState := by
    show (oldRevision + 1, new.digest) = (new.revision, new.digest)
    rw [hnew]

/-- The first transaction on a disk without files. -/
theorem initialize_leaves {disk disk' : Disk} (hstore : disk.store = none)
    (hanchor : disk.anchor = none) (h : Leaves (initializeSteps v crypto key) disk disk') :
    core disk' = core disk ∨ Pending crypto key disk' none (firstCatalog v crypto) ∨
      Settled crypto key disk' (some (firstCatalog v crypto)) := by
  have hjournal : JournalOf crypto key
      (journalContent (newJournal crypto 0 none 1 (firstCatalog v crypto).digest key key))
      (newJournal crypto 0 none 1 (firstCatalog v crypto).digest key key)
      (none : Option (ParsedCatalog v)) (firstCatalog v crypto) :=
    journalOf_new rfl rfl ⟨fun _ => rfl, fun _ => rfl⟩ (fun _ h => nomatch h)
      (crypto.digest_hex _)
  exact transaction_leaves hjournal hstore hanchor
    (parseCatalog_serializeDocument key (Nat.le_refl 1) List.nodup_nil List.nodup_nil)
    (parseAnchor_anchorContent (Nat.le_refl 1) (crypto.digest_hex _)) rfl h

/-- A commit under an unchanged key, from an object that agrees with the disk. -/
theorem commit_leaves {disk disk' : Disk} {store : CatalogStore v} {change : Change v}
    {oldData : Content} (hagrees : Agrees crypto disk store) (hkey : store.masterKey = key)
    (hsame : change.key store = store.masterKey) (hok : ChangeOk store change)
    (h : Leaves (change.steps crypto store oldData) disk disk') :
    core disk' = core disk ∨
      Pending crypto key disk' (some (inMemory store)) (change.target crypto store) ∨
      Settled crypto key disk' (some (change.target crypto store)) := by
  have hcatalog := hagrees.catalogOk
  have hsettled := settled_of_reads hagrees.settled hagrees.reads
  have hrevision : 1 ≤ store.revision := hcatalog.revision
  have hparse : parseCatalog v crypto _ _ = .ok (change.target crypto store) := parse_target hok
  rcases leaves_quiet rfl h with hcore | h
  · exact Or.inl hcore
  rw [hsame, hkey] at h hparse
  rw [hkey] at hsettled
  have hjournal : JournalOf crypto key
      (journalContent (newJournal crypto store.revision (some store.digest) (store.revision + 1)
        (change.target crypto store).digest key key))
      (newJournal crypto store.revision (some store.digest) (store.revision + 1)
        (change.target crypto store).digest key key)
      (some (inMemory store)) (change.target crypto store) := by
    refine journalOf_new (newJournal_oldState hrevision) rfl ?_ ?_ (crypto.digest_hex _)
    · constructor
      · intro hzero
        omega
      · intro hnone
        cases hnone
    · intro digest hdigest
      cases hdigest
      exact hcatalog.digest
  exact transaction_leaves hjournal hsettled.store hsettled.anchor hparse
    (parseAnchor_anchorContent (Nat.le_add_left 1 _) (crypto.digest_hex _)) rfl h

/-! ### One event keeps the invariant -/

/-- Two catalogs that a disk is settled on are the same. -/
theorem Settled.unique {disk : Disk} {catalog catalog' : Option (ParsedCatalog v)}
    (h : Settled crypto key disk catalog) (h' : Settled crypto key disk catalog') :
    catalog = catalog' := by
  cases catalog with
  | none =>
      cases catalog' with
      | none => rfl
      | some c =>
          obtain ⟨data, hdata, -⟩ := h'.store
          rw [show disk.store = none from h.store] at hdata
          cases hdata
  | some c =>
      cases catalog' with
      | none =>
          obtain ⟨data, hdata, -⟩ := h.store
          rw [show disk.store = none from h'.store] at hdata
          cases hdata
      | some c' =>
          have hreads := h.reads
          rw [h'.reads] at hreads
          cases hreads
          rfl

/-- A usable object holds the catalog that the invariant speaks of. -/
theorem Inv.success_le {world : World v} {store : CatalogStore v} (h : Inv crypto key world)
    (hkey : store.masterKey = key) (hagrees : Agrees crypto world.disk store) :
    Candidate world.before world.after world.success (some (inMemory store)) := by
  have hsettled := settled_of_reads hagrees.settled hagrees.reads
  rw [hkey] at hsettled
  rcases h.disk with ⟨catalog, hcatalog, hcandidate⟩ | ⟨old, new, hpending, -⟩
  · rw [hsettled.unique hcatalog]
    exact hcandidate
  · obtain ⟨data, journal, hdata, -⟩ := hpending.journal
    rw [hagrees.settled] at hdata
    cases hdata

/-- How `initialize` ends: refused, interrupted, or with the first catalog written. -/
theorem initializeStore_result (v : Validators) (crypto : Crypto) (key : Key) (disk : Disk)
    (faults : Faults) :
    ((disk.store.isSome || disk.anchor.isSome) = true ∧
      ∃ error, initializeStore v crypto disk key faults = (disk, .raised error)) ∨
    ((disk.store.isSome || disk.anchor.isSome) = false ∧
      (∃ disk', Leaves (initializeSteps v crypto key) disk disk' ∧
        ((∃ error, initializeStore v crypto disk key faults = (disk', .raised error)) ∨
          initializeStore v crypto disk key faults = (disk', .stopped)))) ∨
    ((disk.store.isSome || disk.anchor.isSome) = false ∧
      initializeStore v crypto disk key faults =
        (applyAll (initializeSteps v crypto key) disk,
          .returned (CatalogStore.ofParsed key (firstCatalog v crypto)))) := by
  rw [initializeStore]
  cases hfiles : disk.store.isSome || disk.anchor.isSome with
  | true => exact Or.inl ⟨rfl, _, rfl⟩
  | false =>
      right
      have hleaves := runSteps_leaves (initializeSteps v crypto key) faults.outcomes false disk
      rw [if_neg Bool.false_ne_true]
      rcases hrun : runSteps (initializeSteps v crypto key) faults.outcomes false disk with
        ⟨disk', _ | ⟨attempted, error⟩ | _⟩
      · rw [runSteps_finished _ hrun]
        exact Or.inr ⟨rfl, rfl⟩
      · rw [hrun] at hleaves
        exact Or.inl ⟨rfl, disk', hleaves, Or.inl ⟨_, rfl⟩⟩
      · rw [hrun] at hleaves
        exact Or.inl ⟨rfl, disk', hleaves, Or.inr rfl⟩

/-- Without files, nothing has succeeded yet and at most the first transaction is pending. -/
theorem Inv.blank {world : World v} (h : Inv crypto key world)
    (hfiles : (world.disk.store.isSome || world.disk.anchor.isSome) = false) :
    world.success = 0 ∧ (Settled crypto key world.disk (none : Option (ParsedCatalog v)) ∨
      Pending crypto key world.disk none (firstCatalog v crypto)) := by
  have hstore : world.disk.store = none := by
    cases hs : world.disk.store with
    | none => rfl
    | some data => simp [hs] at hfiles
  -- the store cannot hold a catalog
  have hnot : ∀ c, ¬ StoreIs crypto key world.disk (some c : Option (ParsedCatalog v)) := by
    rintro c ⟨data, hdata, -⟩
    rw [hstore] at hdata
    cases hdata
  rcases h.disk with ⟨catalog, hsettled, hcandidate⟩ | ⟨old, new, hpending, hold, -, hfirst⟩
  · cases catalog with
    | none => exact ⟨Nat.le_zero.mp hcandidate.2, Or.inl hsettled⟩
    | some c => exact absurd hsettled.store (hnot c)
  · cases old with
    | none =>
        rw [hfirst rfl] at hpending
        exact ⟨Nat.le_zero.mp hold.2, Or.inr hpending⟩
    | some c =>
        rcases hpending.files with ⟨hs, -⟩ | ⟨hs, -⟩ | ⟨hs, -⟩
        · exact absurd hs (hnot c)
        · exact absurd hs (hnot new)
        · exact absurd hs (hnot new)

/-- `initialize` keeps the invariant. -/
theorem inv_initializing {world : World v} (faults : Faults) (h : Inv crypto key world)
    (hprocess : world.process = none) :
    Inv crypto key (world.step crypto key (.initializing faults)) := by
  rcases initializeStore_result v crypto key world.disk faults with
    ⟨hfiles, error, hrun⟩ | ⟨hfiles, disk', hleaves, hrun⟩ | ⟨hfiles, hrun⟩
  · -- refused: the world is as it was
    simp only [World.step, hrun, hfiles, if_true]
    exact ⟨h.disk, h.process, seen_step h.seen id⟩
  · obtain ⟨hzero, hbase⟩ := h.blank hfiles
    have hblank : world.disk.store = none ∧ world.disk.anchor = none := by
      simpa using hfiles
    have hworld : world.step crypto key (.initializing faults) =
        { world with disk := disk', pairSeen := world.pairSeen || hasPair disk', before := none
                     after := some (firstCatalog v crypto) } := by
      rcases hrun with ⟨error, hrun⟩ | hrun <;> simp [World.step, hrun, hfiles]
    rw [hworld]
    refine ⟨?_, ?_, seen_step h.seen ?_⟩
    · show Recoverable crypto key disk' none (some (firstCatalog v crypto)) world.success
      have hnone : Candidate none (some (firstCatalog v crypto)) world.success none :=
        ⟨fun _ h => (nomatch h), Nat.le_of_eq hzero⟩
      have hfirst : Candidate none (some (firstCatalog v crypto)) world.success
          (some (firstCatalog v crypto)) := by
        refine ⟨fun c hc => Or.inr hc, ?_⟩
        show world.success ≤ 1
        omega
      rcases initialize_leaves hblank.1 hblank.2 hleaves with hsame | hpending | hsettled
      · rcases hbase with hsettled | hpending
        · exact Or.inl ⟨none, hsettled.congr hsame, hnone⟩
        · exact Or.inr ⟨none, _, hpending.congr hsame, hnone, hfirst, fun _ => rfl⟩
      · exact Or.inr ⟨none, _, hpending, hnone, hfirst, fun _ => rfl⟩
      · exact Or.inl ⟨_, hsettled, hfirst⟩
    · intro store hstore
      rw [show _ = none from hprocess] at hstore
      cases hstore
    · intro hpair
      simp [hasPair, hblank.1] at hpair
  · have hagrees := agrees_initializeStore hrun
    simp only [World.step, hrun]
    refine ⟨Or.inl ⟨some (firstCatalog v crypto), ?_, ?_⟩, ?_, fun _ => rfl⟩
    · exact settled_of_reads hagrees.1.settled hagrees.1.reads
    · exact ⟨fun c hc => Or.inr hc, Nat.le_refl _⟩
    · intro store hstore _
      cases hstore
      exact ⟨rfl, hagrees.1⟩

/-- A disk stays recoverable through `open`. -/
theorem recoverable_open {disk : Disk} {before after : Option (ParsedCatalog v)} {success : Nat}
    (faults : Faults) (h : Recoverable crypto key disk before after success) :
    Recoverable crypto key (openStore v crypto disk key faults).1 before after success := by
  rcases h with ⟨catalog, hsettled, hcandidate⟩ | ⟨old, new, hpending, hold, hnew, hfirst⟩
  · exact Or.inl ⟨catalog, (open_settled faults hsettled).1, hcandidate⟩
  · rcases open_pending faults hpending with ⟨hdisk, -⟩ | ⟨result, rfl | rfl, hdisk, -⟩
    · exact Or.inr ⟨old, new, hdisk, hold, hnew, hfirst⟩
    · exact Or.inl ⟨_, hdisk, hold⟩
    · exact Or.inl ⟨_, hdisk, hnew⟩

/-- `open` keeps the invariant. -/
theorem inv_opening {world : World v} (faults : Faults) (h : Inv crypto key world)
    (hprocess : world.process = none) :
    Inv crypto key (world.step crypto key (.opening faults)) := by
  have hkeep : hasPair world.disk = true →
      hasPair (openStore v crypto world.disk key faults).1 = true := by
    intro hold
    rw [hasPair_congr (openStore_core world.disk key faults)]
    exact hasPair_leaves _ (runSteps_leaves _ faults.outcomes false world.disk) hold
  by_cases hreply : ∃ store, (openStore v crypto world.disk key faults).2 = .returned store
  · obtain ⟨store, hreply⟩ := hreply
    obtain ⟨hagrees, -, -, hkey⟩ := agrees_open (Prod.ext rfl hreply)
    simp only [World.step, hreply]
    refine ⟨Or.inl ⟨some (inMemory store), ?_, ?_⟩, ?_, seen_step h.seen hkeep⟩
    · have hsettled := settled_of_reads hagrees.settled hagrees.reads
      rw [hkey] at hsettled
      exact hsettled
    · exact ⟨fun c hc => Or.inl hc, Nat.le_refl _⟩
    · intro store' hstore' _
      cases hstore'
      exact ⟨hkey, hagrees⟩
  · have hworld : world.step crypto key (.opening faults) =
        { world with disk := (openStore v crypto world.disk key faults).1
                     pairSeen := world.pairSeen ||
                       hasPair (openStore v crypto world.disk key faults).1 } := by
      rw [World.step]
      cases hcase : (openStore v crypto world.disk key faults).2 with
      | returned store => exact absurd ⟨store, hcase⟩ hreply
      | raised error => rfl
      | stopped => rfl
    rw [hworld]
    refine ⟨recoverable_open faults h.disk, ?_, seen_step h.seen hkeep⟩
    intro store hstore
    rw [show _ = none from hprocess] at hstore
    cases hstore

/-- A commit that was begun and did not return leaves a disk that recovers to the catalog in memory
or to the one that was to be written. -/
theorem recoverable_commit {disk disk' : Disk} {store : CatalogStore v} {change : Change v}
    {oldData : Content} {success : Nat} (hagrees : Agrees crypto disk store)
    (hkey : store.masterKey = key) (hsame : change.key store = store.masterKey)
    (hok : ChangeOk store change) (hsuccess : success ≤ store.revision)
    (hleaves : Leaves (change.steps crypto store oldData) disk disk') :
    Recoverable crypto key disk' (some (inMemory store)) (some (change.target crypto store))
      success := by
  have hold : Candidate (some (inMemory store)) (some (change.target crypto store)) success
      (some (inMemory store)) := ⟨fun c hc => Or.inl hc, hsuccess⟩
  have hnew : Candidate (some (inMemory store)) (some (change.target crypto store)) success
      (some (change.target crypto store)) :=
    ⟨fun c hc => Or.inr hc, Nat.le_succ_of_le hsuccess⟩
  rcases commit_leaves hagrees hkey hsame hok hleaves with hcore | hpending | hsettled
  · have hbase := settled_of_reads hagrees.settled hagrees.reads
    rw [hkey] at hbase
    exact Or.inl ⟨_, hbase.congr hcore, hold⟩
  · exact Or.inr ⟨_, _, hpending, hold, hnew, fun h => (nomatch h)⟩
  · exact Or.inl ⟨_, hsettled, hnew⟩

/-- An operation keeps the invariant. -/
theorem inv_operating {world : World v} (operation : Operation v) (faults : Faults)
    (h : Inv crypto key world) (hallowed : Allowed crypto world (.operating operation faults)) :
    Inv crypto key (world.step crypto key (.operating operation faults)) := by
  cases hprocess : world.process with
  | none =>
      simp only [World.step, hprocess]
      exact h
  | some store =>
      obtain ⟨hfresh, hkeys⟩ := hallowed store hprocess
      cases hpoisoned : store.poisoned with
      | true =>
          -- the call is refused, and nothing changes
          obtain ⟨error, hrun⟩ := run_poisoned crypto hpoisoned operation world.disk faults
          have hopen : ∃ error, store.ensureOpen = .error error := by
            cases hcase : store.ensureOpen with
            | error error => exact ⟨error, rfl⟩
            | ok _ => simp [CatalogStore.ensureOpen, hpoisoned] at hcase
          obtain ⟨error', hopen⟩ := hopen
          simp only [World.step, hprocess, hrun, hopen]
          refine ⟨h.disk, ?_, seen_step h.seen id⟩
          intro store' hstore'
          exact h.process store' (hprocess.trans hstore')
      | false =>
          obtain ⟨hkey, hagrees⟩ := h.process store hprocess hpoisoned
          have hok : ∀ change, operation.change crypto store = .ok change →
              ChangeOk store change := fun change => change_ok hfresh hagrees.distinct
          have hcandidate := h.success_le hkey hagrees
          have hresult := run_result world.disk faults hok
          simp only [World.step, hprocess]
          generalize operation.run crypto world.disk store faults = result at hresult ⊢
          cases hresult with
          | refused error hrefused =>
              have hsame : ∀ {α : Type} (begun : Unit → Change v → α) (other : α),
                  (match store.ensureOpen, operation.change crypto store with
                    | .ok u, .ok change => begun u change
                    | _, _ => other) = other := by
                intro α begun other
                cases hopen : store.ensureOpen with
                | error error => rfl
                | ok u =>
                    cases hchange : operation.change crypto store with
                    | error error => rfl
                    | ok change => exact absurd ⟨hopen, change, hchange⟩ hrefused
              rw [hsame]
              refine ⟨h.disk, ?_, seen_step h.seen id⟩
              intro store' hstore'
              exact h.process store' (hprocess.trans hstore')
          | returned change oldData hopen hchange hstore =>
              have hagrees' : Agrees crypto _ (committed crypto change store) :=
                agrees_committed oldData faults world.disk (hok change hchange)
              have hkey' : (committed crypto change store).masterKey = key :=
                (hkeys change hchange).trans hkey
              simp only [hopen, hchange]
              refine ⟨Or.inl ⟨some (change.target crypto store), ?_, ?_⟩, ?_, ?_⟩
              · rw [← hkey']
                exact settled_of_reads hagrees'.settled hagrees'.reads
              · exact ⟨fun c hc => Or.inr hc, Nat.le_refl _⟩
              · intro store' hstore' _
                cases hstore'
                exact ⟨hkey', hagrees'⟩
              · apply seen_step h.seen
                intro _
                have hcore := core_committed crypto change store oldData faults world.disk
                simp [hasPair, store_of_core hcore, anchor_of_core hcore]
          | raised change oldData disk' error hopen hchange hleaves hpair =>
              simp only [hopen, hchange]
              refine ⟨recoverable_commit hagrees hkey (hkeys change hchange) (hok change hchange)
                hcandidate.2 hleaves, ?_, seen_step h.seen (hasPair_leaves _ hleaves)⟩
              intro store' hstore' hfalse
              cases hstore'
              cases hfalse
          | stopped change oldData disk' hopen hchange hleaves =>
              simp only [hopen, hchange]
              refine ⟨recoverable_commit hagrees hkey (hkeys change hchange) (hok change hchange)
                hcandidate.2 hleaves, ?_, seen_step h.seen (hasPair_leaves _ hleaves)⟩
              intro store' hstore'
              cases hstore'

/-- **The invariant holds in every world that is reached.** -/
theorem reached_inv {first : Option (ParsedCatalog v)} {world : World v}
    (h : Reached crypto key first world) : Inv crypto key world := by
  induction h with
  | start hsettled =>
      refine ⟨Or.inl ⟨_, hsettled, fun c hc => Or.inl hc, Nat.le_refl _⟩, ?_, id⟩
      intro store hstore
      cases hstore
  | step event _ hallowed ih =>
      cases event with
      | initializing faults => exact inv_initializing faults ih hallowed
      | opening faults => exact inv_opening faults ih hallowed
      | operating operation faults => exact inv_operating operation faults ih hallowed
      | leaving =>
          refine ⟨ih.disk, ?_, ih.seen⟩
          intro store hstore
          cases hstore

/-! ### The next `open` -/

/-- What an `open` that returns gives, in a world where it is called. -/
structure Reopened (crypto : Crypto) (key : Key) (world : World v) (disk' : Disk)
    (store : CatalogStore v) : Prop where
  /-- It is exactly the catalog before or exactly the catalog after the last transaction. -/
  whole : world.before = some (inMemory store) ∨ world.after = some (inMemory store)
  /-- It is not older than the last call that returned. -/
  kept : world.success ≤ store.revision
  /-- No journal is left. -/
  journal : disk'.journal = none
  /-- Store and anchor carry its revision and its digest. -/
  pair : ∃ data anchorData anchor, disk'.store = some data ∧ disk'.anchor = some anchorData ∧
    parseCatalog v crypto data key = .ok (inMemory store) ∧
    parseAnchor anchorData = .ok anchor ∧ (inMemory store).state = anchor.state

/-- A catalog that is a candidate is what was reopened. -/
theorem reopened_of_settled {world : World v} {disk' : Disk} {c : ParsedCatalog v}
    (hsettled : Settled crypto key disk' (some c))
    (hcandidate : Candidate world.before world.after world.success (some c)) :
    Reopened crypto key world disk' (CatalogStore.ofParsed key c) where
  whole := hcandidate.1 c rfl
  kept := hcandidate.2
  journal := hsettled.journal
  pair := readPair_ok.mp hsettled.reads

/-- **Crash safety.** However often the process stopped or raised inside a transaction or inside a
recovery: once both files have existed, `open` with the same key succeeds, and every `open` that
returns gives exactly the catalog before or after the last transaction, at no lower revision than the
last success, with the journal gone and store and anchor in agreement. -/
theorem reopen_after_crash {first : Option (ParsedCatalog v)} {world : World v}
    (h : Reached crypto key first world) (hpair : world.pairSeen = true) :
    (∃ disk' store, openStore v crypto world.disk key {} = (disk', .returned store)) ∧
    ∀ faults disk' store, openStore v crypto world.disk key faults = (disk', .returned store) →
      Reopened crypto key world disk' store := by
  have hinv := reached_inv h
  have hfiles : world.disk.store ≠ none := by
    intro hnone
    have := hinv.seen hpair
    simp [hasPair, hnone] at this
  constructor
  · rcases hinv.disk with ⟨catalog, hsettled, -⟩ | ⟨old, new, hpending, -⟩
    · cases catalog with
      | none => exact absurd hsettled.store hfiles
      | some c => exact ⟨_, _, openStore_no_faults hsettled.plan hsettled.reads⟩
    · obtain ⟨plan, result, hplan, -, hsettled, hstore, -⟩ := hpending.plan
      cases result with
      | none => exact absurd hstore hfiles
      | some c => exact ⟨_, _, openStore_no_faults hplan hsettled.reads⟩
  · intro faults disk' store hopen
    rcases hinv.disk with ⟨catalog, hsettled, hcandidate⟩ | ⟨old, new, hpending, hold, hnew, -⟩
    · obtain ⟨hdisk, hreturned⟩ := open_settled faults hsettled
      rw [hopen] at hdisk hreturned
      obtain ⟨c, rfl, rfl⟩ := hreturned store rfl
      exact reopened_of_settled hdisk hcandidate
    · rcases open_pending faults hpending with ⟨-, hnot⟩ | ⟨result, hresult, hdisk, hreturned⟩
      · rw [hopen] at hnot
        exact absurd rfl (hnot store)
      · rw [hopen] at hdisk hreturned
        obtain ⟨c, rfl, rfl⟩ := hreturned store rfl
        refine reopened_of_settled hdisk ?_
        rcases hresult with rfl | hsome
        · exact hold
        · rw [hsome]
          exact hnew

/-- `initialize` on an empty disk, with the process stopped right after the anchor was replaced. -/
def stoppedWorld : World noRecords :=
  World.step emptyCrypto (constantKey 0) ⟨emptyDisk, none, false, none, none, 0⟩
    (.initializing { outcomes := [.done, .done, .stopped .after] })

/-- It left the journal, and opening the catalog again succeeds. -/
theorem reopen_stoppedWorld :
    stoppedWorld.disk.journal.isSome = true ∧
    ∃ disk' store, openStore noRecords emptyCrypto stoppedWorld.disk (constantKey 0) {} =
      (disk', .returned store) := by
  have hstart : Settled emptyCrypto (constantKey 0) emptyDisk
      (none : Option (ParsedCatalog noRecords)) := ⟨rfl, rfl, rfl⟩
  have hreached : Reached emptyCrypto (constantKey 0) none stoppedWorld :=
    .step _ (.start hstart) rfl
  exact ⟨rfl, (reopen_after_crash hreached rfl).1⟩

end MaskGateway.Proofs.Datasource
