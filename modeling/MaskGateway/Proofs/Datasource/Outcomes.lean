import MaskGateway.Proofs.Datasource.Changes
import MaskGateway.Proofs.Datasource.Planning

/-!
# `MaskGateway.Proofs.Datasource.Outcomes`: what the reply of an operation says about the disk

`run_result` says once how a call of an operation can end. A `Session` is an object that was opened or
initialized and then used, with any faults on the way. The invariant that carries the proofs is
`Agrees`: the object holds what reading the files gives, and no journal is pending. Every call keeps
it or leaves the object unusable (`session_agrees`).

`commit_outcomes` collects what follows for the caller of an operation.
-/

set_option autoImplicit false

namespace MaskGateway.Proofs.Datasource

open MaskGateway.Datasource MaskGateway.Lib

variable {v : Validators} {crypto : Crypto}

/-! ### How a call can end -/

/-- The object after a commit. -/
def committed (crypto : Crypto) (change : Change v) (store : CatalogStore v) : CatalogStore v :=
  { store with
    records := (change.target crypto store).records
    revision := (change.target crypto store).revision
    digest := (change.target crypto store).digest
    masterKey := change.key store }

/-- The ways in which a call of an operation can end. -/
inductive RunResult (crypto : Crypto) (operation : Operation v) (disk : Disk)
    (store : CatalogStore v) (faults : Faults) : Disk × CatalogStore v × Reply (Answer v) → Prop
  /-- A check raised, and `_commit` was not reached. -/
  | refused (error : StoreError)
      (hrefused : ¬ (store.ensureOpen = .ok () ∧ ∃ change, operation.change crypto store = .ok change)) :
      RunResult crypto operation disk store faults (disk, store, .raised error)
  | returned (change : Change v) (oldData : Content) (hopen : store.ensureOpen = .ok ())
      (hchange : operation.change crypto store = .ok change) (hstore : disk.store = some oldData) :
      RunResult crypto operation disk store faults
        (cleanupManaged faults (applyAll (change.steps crypto store oldData) disk),
          committed crypto change store, .returned (change.answer (committed crypto change store)))
  | raised (change : Change v) (oldData : Content) (disk' : Disk) (error : StoreError)
      (hopen : store.ensureOpen = .ok ()) (hchange : operation.change crypto store = .ok change)
      (hleaves : Leaves (change.steps crypto store oldData) disk disk')
      (hpair : error.kind ≠ .outcomeUncertain →
        disk'.store = disk.store ∧ disk'.anchor = disk.anchor) :
      RunResult crypto operation disk store faults
        (disk', { store with poisoned := true }, .raised error)
  | stopped (change : Change v) (oldData : Content) (disk' : Disk)
      (hopen : store.ensureOpen = .ok ()) (hchange : operation.change crypto store = .ok change)
      (hleaves : Leaves (change.steps crypto store oldData) disk disk') :
      RunResult crypto operation disk store faults
        (disk', { store with poisoned := true }, .stopped)

/-- The steps of a commit, split at the replacement of the store. -/
theorem steps_eq (crypto : Crypto) (change : Change v) (store : CatalogStore v) (oldData : Content) :
    ∃ pre data post, change.steps crypto store oldData = pre ++ .writeStore data :: post ∧
      ∀ step ∈ pre, sparesPair step = true := by
  refine ⟨[.readStore, .writeJournal _, .writeBackup oldData store.revision], _, _, rfl, ?_⟩
  intro step hstep
  simp only [List.mem_cons, List.not_mem_nil, or_false] at hstep
  rcases hstep with rfl | rfl | rfl <;> rfl

/-- **How a call of an operation ends**, for a change that is fit to be committed. -/
theorem run_result {operation : Operation v} {store : CatalogStore v} (disk : Disk)
    (faults : Faults)
    (hok : ∀ change, operation.change crypto store = .ok change → ChangeOk store change) :
    RunResult crypto operation disk store faults (operation.run crypto disk store faults) := by
  rw [Operation.run]
  cases hopen : store.ensureOpen with
  | error error => exact .refused error (by simp [hopen])
  | ok _ =>
      cases hchange : operation.change crypto store with
      | error error => exact .refused error (by simp [hchange])
      | ok change =>
          have hexpected := (hok change hchange).expected
          simp only [commit, hexpected, ne_eq, not_true_eq_false, if_false]
          cases hstore : disk.store with
          | none =>
              exact .raised change (.canonical .null) disk _ hopen hchange
                (Or.inl ⟨.before, rfl⟩) (fun _ => ⟨rfl, rfl⟩)
          | some oldData =>
              have hleaves := runSteps_leaves (change.steps crypto store oldData) faults.outcomes
                false disk
              simp only
              rcases hrun : runSteps (change.steps crypto store oldData) faults.outcomes false disk
                with ⟨disk', _ | ⟨attempted, error⟩ | _⟩
              · rw [runSteps_finished _ hrun]
                exact .returned change oldData hopen hchange hstore
              · rw [hrun] at hleaves
                refine .raised change oldData disk' _ hopen hchange hleaves ?_
                intro hkind
                cases attempted with
                | true => exact absurd rfl hkind
                | false =>
                    obtain ⟨pre, data, post, hsteps, hspares⟩ :=
                      steps_eq crypto change store oldData
                    rw [hsteps] at hrun
                    exact pair_of_not_attempted pre hspares hrun
              · rw [hrun] at hleaves
                exact .stopped change oldData disk' hopen hchange hleaves

/-! ### Memory and disk -/

/-- What the object holds, as a catalog. -/
def inMemory (store : CatalogStore v) : ParsedCatalog v :=
  ⟨store.revision, store.digest, store.records⟩

/-- The object holds what its key reads from the files, and no journal is pending. -/
structure Agrees (crypto : Crypto) (disk : Disk) (store : CatalogStore v) : Prop where
  settled : disk.journal = none
  reads : readPair v crypto disk store.masterKey = .ok (inMemory store)

/-- What a pair that reads holds. -/
theorem readPair_ok {disk : Disk} {key : Key} {catalog : ParsedCatalog v} :
    readPair v crypto disk key = .ok catalog ↔
      ∃ data anchorData anchor, disk.store = some data ∧ disk.anchor = some anchorData ∧
        parseCatalog v crypto data key = .ok catalog ∧ parseAnchor anchorData = .ok anchor ∧
        catalog.state = anchor.state := by
  rw [readPair]
  cases hstore : disk.store with
  | none => simp
  | some data =>
      cases hanchor : disk.anchor with
      | none => simp
      | some anchorData =>
          simp only [bind_eq_ok, refuseIf_eq_ok, pure_eq_ok, not_not]
          constructor
          · rintro ⟨parsed, hparse, anchor, hparseAnchor, -, hstate, rfl⟩
            exact ⟨data, anchorData, anchor, rfl, rfl, hparse, hparseAnchor, hstate⟩
          · rintro ⟨_, _, anchor, ⟨⟩, ⟨⟩, hparse, hparseAnchor, hstate⟩
            exact ⟨catalog, hparse, anchor, hparseAnchor, (), hstate, rfl⟩

/-- Reading depends on store and anchor only. -/
theorem readPair_congr {disk disk' : Disk} {key : Key} (hstore : disk'.store = disk.store)
    (hanchor : disk'.anchor = disk.anchor) :
    readPair v crypto disk' key = readPair v crypto disk key := by
  rw [readPair, readPair, hstore, hanchor]

/-- A new pair reads as what was written. -/
theorem readPair_written {disk : Disk} {key : Key} {revision : Nat}
    {records : List (CatalogRecord v)} (hrevision : 1 ≤ revision) (hdistinct : Distinct records)
    (hstore : disk.store = some (serializeDocument crypto revision records key))
    (hanchor : disk.anchor = some (anchorContent
      ⟨revision, crypto.digest (makePayload revision records)⟩)) :
    readPair v crypto disk key =
      .ok ⟨revision, crypto.digest (makePayload revision records), sortRecords records⟩ := by
  rw [readPair_ok]
  exact ⟨_, _, _, hstore, hanchor,
    parseCatalog_serializeDocument key hrevision hdistinct.ids hdistinct.aliases,
    parseAnchor_anchorContent hrevision (crypto.digest_hex _), rfl⟩

/-- What the object holds is a catalog in order. -/
theorem Agrees.catalogOk {disk : Disk} {store : CatalogStore v} (h : Agrees crypto disk store) :
    CatalogOk crypto (inMemory store) := by
  obtain ⟨_, _, _, -, -, hparse, -, -⟩ := readPair_ok.mp h.reads
  exact catalogOk_of_parse hparse

theorem Agrees.distinct {disk : Disk} {store : CatalogStore v} (h : Agrees crypto disk store) :
    Distinct store.records :=
  ⟨h.catalogOk.ids, h.catalogOk.aliases⟩

/-- The three files after a commit. -/
theorem core_committed (crypto : Crypto) (change : Change v) (store : CatalogStore v) (oldData : Content)
    (faults : Faults) (disk : Disk) :
    core (cleanupManaged faults (applyAll (change.steps crypto store oldData) disk)) =
      (none, some (serializeDocument crypto (store.revision + 1) change.records (change.key store)),
        some (anchorContent ⟨store.revision + 1,
          crypto.digest (makePayload (store.revision + 1) change.records)⟩)) :=
  core_applyAll_persist _

/-- After a commit the object holds what is on disk. -/
theorem agrees_committed {change : Change v} {store : CatalogStore v} (oldData : Content)
    (faults : Faults) (disk : Disk) (hok : ChangeOk store change) :
    Agrees crypto (cleanupManaged faults (applyAll (change.steps crypto store oldData) disk))
      (committed crypto change store) := by
  have hcore := core_committed crypto change store oldData faults disk
  refine ⟨journal_of_core hcore, ?_⟩
  exact readPair_written (Nat.le_add_left 1 _) hok.distinct
    (store_of_core hcore) (anchor_of_core hcore)

/-! ### Opening -/

/-- A plan is absent when the journal is. -/
theorem planRecovery_none {disk : Disk} {key : Key}
    (h : planRecovery v crypto disk key = .ok none) : disk.journal = none := by
  rw [planRecovery] at h
  cases hjournal : disk.journal with
  | none => rfl
  | some data =>
      rw [hjournal] at h
      simp only [bind_eq_ok] at h
      obtain ⟨_, -, _, -, h⟩ := h
      split at h
      · rw [bind_eq_ok] at h
        obtain ⟨_, -, h⟩ := h
        cases h
      · rw [bind_eq_ok] at h
        obtain ⟨_, -, h⟩ := h
        split at h <;> cases h

/-- An object that `open` returns holds what is on disk. -/
theorem agrees_open {disk disk' : Disk} {key : Key} {faults : Faults} {store : CatalogStore v}
    (h : openStore v crypto disk key faults = (disk', .returned store)) :
    Agrees crypto disk' store ∧ store.poisoned = false ∧ store.closed = false ∧
      store.masterKey = key := by
  rw [openStore] at h
  cases hplan : planRecovery v crypto disk key with
  | error error =>
      rw [hplan] at h
      cases h
  | ok plan =>
      simp only [hplan] at h
      rcases hrun : applyRecovery plan faults disk with ⟨disk₁, _ | ⟨_, _⟩ | _⟩
      · simp only [hrun] at h
        cases hread : readPair v crypto disk₁ key with
        | error error =>
            rw [hread] at h
            cases h
        | ok parsed =>
            simp only [hread, Prod.mk.injEq, Reply.returned.injEq] at h
            obtain ⟨rfl, rfl⟩ := h
            refine ⟨⟨?_, hread⟩, rfl, rfl, rfl⟩
            show disk₁.journal = none
            rw [applyRecovery_eq] at hrun
            have hall := runSteps_finished _ hrun
            cases plan with
            | none =>
                rw [hall]
                exact planRecovery_none hplan
            | some plan =>
                rw [hall]
                exact journal_of_core (core_applyAll_recovery plan disk)
      · simp [hrun] at h
      · simp [hrun] at h

/-- An object that `initialize` returns holds what is on disk. -/
theorem agrees_initializeStore {disk disk' : Disk} {key : Key} {faults : Faults}
    {store : CatalogStore v}
    (h : initializeStore v crypto disk key faults = (disk', .returned store)) :
    Agrees crypto disk' store ∧ store.poisoned = false ∧ store.closed = false ∧
      store.masterKey = key := by
  rw [initializeStore] at h
  split at h
  · cases h
  · rcases hrun : runSteps (initializeSteps v crypto key) faults.outcomes false disk with
      ⟨disk₁, _ | ⟨_, _⟩ | _⟩
    · simp only [hrun, Prod.mk.injEq, Reply.returned.injEq] at h
      obtain ⟨rfl, rfl⟩ := h
      rw [runSteps_finished _ hrun]
      have hdistinct : Distinct ([] : List (CatalogRecord v)) := ⟨List.nodup_nil, List.nodup_nil⟩
      exact ⟨⟨rfl, readPair_written (Nat.le_refl 1) hdistinct rfl rfl⟩, rfl, rfl, rfl⟩
    · simp [hrun] at h
    · simp [hrun] at h

/-! ### Sessions -/

/-- The states of an object from when it was opened or initialized on. -/
inductive Session (v : Validators) (crypto : Crypto) : Disk → CatalogStore v → Prop
  | opened {disk disk' : Disk} {key : Key} {faults : Faults} {store : CatalogStore v}
      (h : openStore v crypto disk key faults = (disk', .returned store)) :
      Session v crypto disk' store
  | initialized {disk disk' : Disk} {key : Key} {faults : Faults} {store : CatalogStore v}
      (h : initializeStore v crypto disk key faults = (disk', .returned store)) :
      Session v crypto disk' store
  | operated {disk : Disk} {store : CatalogStore v} (operation : Operation v) (faults : Faults)
      (h : Session v crypto disk store) (hfresh : Fresh store operation) :
      Session v crypto (operation.run crypto disk store faults).1
        (operation.run crypto disk store faults).2.1

/-- An object that requires reopening refuses every operation. -/
theorem run_poisoned (crypto : Crypto) {store : CatalogStore v} (h : store.poisoned = true)
    (operation : Operation v) (disk : Disk) (faults : Faults) :
    ∃ error, operation.run crypto disk store faults = (disk, store, .raised error) := by
  rw [Operation.run]
  cases hopen : store.ensureOpen with
  | error error => exact ⟨error, rfl⟩
  | ok _ => simp [CatalogStore.ensureOpen, h] at hopen

/-- One call keeps the agreement, or leaves the object unusable. -/
theorem run_agrees {disk : Disk} {store : CatalogStore v} {operation : Operation v}
    (faults : Faults) (hfresh : Fresh store operation)
    (h : store.poisoned = false → Agrees crypto disk store) :
    (operation.run crypto disk store faults).2.1.poisoned = false →
      Agrees crypto (operation.run crypto disk store faults).1
        (operation.run crypto disk store faults).2.1 := by
  cases hpoisoned : store.poisoned with
  | true =>
      obtain ⟨error, hrun⟩ := run_poisoned crypto hpoisoned operation disk faults
      intro hfalse
      rw [hrun] at hfalse
      exact absurd (hpoisoned.symm.trans hfalse) (by decide)
  | false =>
      have hagrees := h hpoisoned
      have hok : ∀ change, operation.change crypto store = .ok change → ChangeOk store change :=
        fun change => change_ok hfresh hagrees.distinct
      intro hfalse
      have hresult := run_result disk faults hok
      generalize operation.run crypto disk store faults = result at hresult hfalse ⊢
      cases hresult with
      | refused error => exact hagrees
      | returned change oldData hopen hchange hstore =>
          exact agrees_committed oldData faults disk (hok change hchange)
      | raised => cases hfalse
      | stopped => cases hfalse

/-- **While the object is usable it holds what is on disk.** -/
theorem session_agrees {disk : Disk} {store : CatalogStore v} (h : Session v crypto disk store) :
    store.poisoned = false → Agrees crypto disk store := by
  induction h with
  | opened h => exact fun _ => (agrees_open h).1
  | initialized h => exact fun _ => (agrees_initializeStore h).1
  | operated operation faults _ hfresh ih => exact run_agrees faults hfresh ih

/-- A sequence of calls on one object. -/
def runAll (crypto : Crypto) : List (Operation v × Faults) → Disk × CatalogStore v →
    Disk × CatalogStore v
  | [], state => state
  | (operation, faults) :: rest, (disk, store) =>
      runAll crypto rest ((operation.run crypto disk store faults).1,
        (operation.run crypto disk store faults).2.1)

/-- Nothing changes any more once an object requires reopening. -/
theorem runAll_poisoned {disk : Disk} {store : CatalogStore v} (h : store.poisoned = true)
    (calls : List (Operation v × Faults)) :
    runAll crypto calls (disk, store) = (disk, store) := by
  induction calls with
  | nil => rfl
  | cons call rest ih =>
      obtain ⟨error, hrun⟩ := run_poisoned crypto h call.1 disk call.2
      rw [runAll, hrun]
      exact ih

/-- What the reply of a call tells its caller. -/
structure Classified (crypto : Crypto) (disk : Disk) (store : CatalogStore v)
    (operation : Operation v) (result : Disk × CatalogStore v × Reply (Answer v)) : Prop where
  /-- A call that returns has replaced store and anchor and removed the journal. -/
  returned : ∀ answer, result.2.2 = .returned answer →
    ∃ change, operation.change crypto store = .ok change ∧
      result.1.store = some
        (serializeDocument crypto (store.revision + 1) change.records (change.key store)) ∧
      result.1.anchor = some (anchorContent ⟨store.revision + 1,
        crypto.digest (makePayload (store.revision + 1) change.records)⟩) ∧
      result.1.journal = none
  /-- A call that raises anything but the uncertain outcome has left store and anchor alone. -/
  raised : ∀ error, result.2.2 = .raised error → error.kind ≠ .outcomeUncertain →
    result.1.store = disk.store ∧ result.1.anchor = disk.anchor
  /-- After a failure inside the protocol every later call raises. -/
  failed : store.ensureOpen = .ok () → (∃ change, operation.change crypto store = .ok change) →
    (∀ answer, result.2.2 ≠ .returned answer) →
    ∀ calls later faults, ∃ error,
      (Operation.run crypto later (runAll crypto calls (result.1, result.2.1)).1
        (runAll crypto calls (result.1, result.2.1)).2 faults).2.2 = .raised error

/-- A result that leaves the object unusable makes every later call raise. -/
theorem later_raises {disk : Disk} {store : CatalogStore v} (h : store.poisoned = true)
    (calls : List (Operation v × Faults)) (later : Operation v) (faults : Faults) :
    ∃ error, (Operation.run crypto later (runAll crypto calls (disk, store)).1
      (runAll crypto calls (disk, store)).2 faults).2.2 = .raised error := by
  rw [runAll_poisoned h]
  obtain ⟨error, hrun⟩ := run_poisoned crypto h later disk faults
  exact ⟨error, by rw [hrun]⟩

/-- Each way a call can end is classified. -/
theorem classified_of_result {operation : Operation v} {disk : Disk} {store : CatalogStore v}
    {faults : Faults} {result : Disk × CatalogStore v × Reply (Answer v)}
    (h : RunResult crypto operation disk store faults result) :
    Classified crypto disk store operation result := by
  cases h with
  | refused error hrefused =>
      refine ⟨fun _ h => (nomatch h), fun _ _ _ => ⟨rfl, rfl⟩, ?_⟩
      intro hopen hchange
      exact absurd ⟨hopen, hchange⟩ hrefused
  | returned change oldData hopen hchange hstore =>
      have hcore := core_committed crypto change store oldData faults disk
      refine ⟨fun _ _ => ⟨change, hchange, ?_, ?_, ?_⟩, fun _ h => (nomatch h), ?_⟩
      · exact store_of_core hcore
      · exact anchor_of_core hcore
      · exact journal_of_core hcore
      · intro _ _ hnot
        exact absurd rfl (hnot _)
  | raised change oldData disk' error hopen hchange hleaves hpair =>
      refine ⟨fun _ h => (nomatch h), ?_, fun _ _ _ => later_raises rfl⟩
      intro error' herror hkind
      cases herror
      exact hpair hkind
  | stopped change oldData disk' hopen hchange hleaves =>
      exact ⟨fun _ h => (nomatch h), fun _ h => (nomatch h), fun _ _ _ => later_raises rfl⟩

/-- **Outcomes are classified, and memory agrees with the disk.** In every state of an object that is
usable, it holds exactly what its key reads and authenticates from the files; and whatever a call of
an operation meets on the way, its reply tells what became of the disk. -/
theorem commit_outcomes {disk : Disk} {store : CatalogStore v}
    (hsession : Session v crypto disk store) :
    (store.poisoned = false →
      readPair v crypto disk store.masterKey = .ok (inMemory store)) ∧
    ∀ operation faults, Fresh store operation →
      Classified crypto disk store operation (operation.run crypto disk store faults) := by
  refine ⟨fun h => (session_agrees hsession h).reads, ?_⟩
  intro operation faults hfresh
  cases hpoisoned : store.poisoned with
  | true =>
      obtain ⟨error, hrun⟩ := run_poisoned crypto hpoisoned operation disk faults
      rw [hrun]
      refine ⟨fun _ h => (nomatch h), fun _ _ _ => ⟨rfl, rfl⟩, fun _ _ _ => later_raises hpoisoned⟩
  | false =>
      apply classified_of_result
      apply run_result
      exact fun change => change_ok hfresh (session_agrees hsession hpoisoned).distinct

/-! ### A catalog without datasources -/

/-- Checks that let no record through. -/
def noRecords : Validators where
  isAddress _ := false
  isTimestamp _ := false
  isSpace c := c == ' '
  lower := id
  policy _ := none
  policy_dump _ _ h := nomatch h

/-- A key of 32 times the same byte. -/
def constantKey (byte : UInt8) : Key := ⟨List.replicate 32 byte, by simp⟩

/-- Twelve zeros are a nonce. -/
theorem length_zeroNonce : (List.replicate 12 (0 : UInt8)).length = 12 := rfl

/-- The 64 hexadecimal digits of a number. -/
def hexText (value : Nat) : Name :=
  (List.range 64).map fun i =>
    "0123456789abcdef".toList.getD (value / 16 ^ (63 - i) % 16) '0'

theorem fixedHex_hexText (value : Nat) : fixedHex (hexText value) = true := by
  have hdigit : ∀ n < 16, "0123456789abcdef".toList.contains
      ("0123456789abcdef".toList.getD n '0') = true := by decide
  rw [fixedHex, Bool.and_eq_true, List.all_eq_true]
  refine ⟨by simp [hexText], ?_⟩
  intro c hc
  obtain ⟨i, -, rfl⟩ := List.mem_map.mp hc
  exact hdigit _ (Nat.mod_lt _ (by decide))

/-- The tags of the catalogs without datasources at revisions 1 and 2 and of the journals that
lead to them, under the keys of zeros and of ones. -/
def emptyTag (key : Key) (payload : Json) : Name :=
  let zeros := key.1.head? == some 0
  match payload with
  | .obj [(_, .int 1), _, _, _] =>
      if zeros then hexText 0xff8797b0d598546b599f000f693012b7ec00834178a9e555fe12f74885c63308
      else hexText 0x3a63bf0c354ad2b1aa1c86de29e391fc952c9009da3493b6da67a102291eff39
  | .obj [(_, .int _), _, _, _] =>
      if zeros then hexText 0xf209029f4f5e81dc1aee4d10974e433de0a3298860917e852e705804d63de074
      else hexText 0xc9960cdd69062d7bc4ac93a80768c270a0dbdd34b2f3ad717d57668424a50528
  | .obj [_, _, (_, .int 1), _, _] =>
      if zeros then hexText 0xad78bbddc94ca051abd64fc21e050d642bbda78ae94c9b86e26b345b8304fd58
      else hexText 0xa3c8cfd1f5dded4066b7f15f4f120ade9e9b381fe05778a528184a9f6923b359
  | _ =>
      if zeros then hexText 0x35f347377fbec1775860c01dd4a6894aa6de96b62ffc33fe53f1d720b641440e
      else hexText 0x7216b0954a4ea397c69813cb75d6fc75ecc1e158734b8fc9ce79515693640a45

/-- The digests of the catalogs without datasources at revisions 1 and 2. -/
def emptyDigest : Json → Name
  | .obj [(_, .int 1), _, _, _] =>
      hexText 0x432e6b12ca024bf6b61c9f886b4877470293008229c37bd72b182ef905137eae
  | _ => hexText 0x87da6d68589103571c1878f006647dc3b2edf990bcdd5f32cef0be6f16eae00c

/-- Primitives that agree with HMAC-SHA256 and SHA-256 on the catalogs without datasources. -/
def emptyCrypto : Crypto where
  tag := emptyTag
  digest := emptyDigest
  encrypt _ _ text _ := List.replicate (16 + Encodable.encode (text.map Char.toNat)) 0
  decrypt _ _ ciphertext _ :=
    (Encodable.decode (ciphertext.length - 16) : Option (List Nat)).map (List.map Char.ofNat)
  tag_hex key payload := by
    unfold emptyTag
    simp only
    split <;> split <;> exact fixedHex_hexText _
  digest_hex payload := by
    unfold emptyDigest
    split <;> exact fixedHex_hexText _
  encrypt_length _ _ _ _ := by
    rw [List.length_replicate]
    omega
  decrypt_encrypt _ _ text _ := by
    rw [List.length_replicate, Nat.add_sub_cancel_left, Encodable.encodek, Option.map_some,
      List.map_map]
    simp [Function.comp_def, Char.ofNat_toNat]

/-- No file yet. -/
def emptyDisk : Disk := ⟨none, none, none, []⟩

/-- What `initialize` leaves under the key of zeros. -/
def firstDisk : Disk := (initializeStore noRecords emptyCrypto emptyDisk (constantKey 0) {}).1

/-- The object that `initialize` returns. -/
def firstStore : CatalogStore noRecords :=
  CatalogStore.ofParsed (constantKey 0) ⟨1, emptyDigest (makePayload (v := noRecords) 1 []), []⟩

/-- The first object agrees with the first disk, and the rotation of its key is classified. -/
theorem commit_outcomes_firstStore :
    readPair noRecords emptyCrypto firstDisk (constantKey 0) = .ok (inMemory firstStore) ∧
    Classified emptyCrypto firstDisk firstStore
      (.rotateMasterKey (.bytes (List.replicate 32 1)) fun _ => ⟨List.replicate 12 0, rfl⟩)
      (Operation.run emptyCrypto
        (.rotateMasterKey (.bytes (List.replicate 32 1)) fun _ => ⟨List.replicate 12 0, rfl⟩)
        firstDisk firstStore {}) := by
  have hsession : Session noRecords emptyCrypto firstDisk firstStore :=
    @Session.initialized _ _ emptyDisk _ (constantKey 0) {} _ rfl
  exact ⟨(commit_outcomes hsession).1 rfl, (commit_outcomes hsession).2 _ _ trivial⟩

end MaskGateway.Proofs.Datasource
