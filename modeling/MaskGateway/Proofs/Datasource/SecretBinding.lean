import MaskGateway.Proofs.Datasource.Secrets

/-!
# `MaskGateway.Proofs.Datasource.SecretBinding`: which secret a record holds

The associated data of an envelope names the record and its revision, so every operation that
raises a revision has to seal again, under the right key. `Binds` says that a record holds the
secret that was last given for its id, sealed under the key of the catalog and its own id and
revision. Every operation keeps it (`binds_change`), and so does opening the catalog again.

`secret_binding` is what follows along every run of successful calls, and `Advanced` is what one of
them does to the records.
-/

set_option autoImplicit false

namespace MaskGateway.Proofs.Datasource

open MaskGateway.Datasource MaskGateway.Lib

section

variable {v : Validators} {crypto : Crypto} {key : Key}

/-! ### Authenticated encryption -/

/-- AES-GCM opens what was sealed only under the key and the associated data of the sealing, for the
associated data that the store uses. -/
def Aead (crypto : Crypto) : Prop :=
  ∀ {key key' : Key} {nonce : List UInt8} {text text' : Name} {id id' : Name}
    {revision revision' : Nat},
    crypto.decrypt key' nonce (crypto.encrypt key nonce text (aad id revision)) (aad id' revision') =
      some text' → key' = key ∧ aad id' revision' = aad id revision

/-- The associated data tells ids and revisions apart. -/
theorem aad_injective {id id' : Name} {revision revision' : Nat}
    (h : aad id revision = aad id' revision') : id = id' ∧ revision = revision' := by
  simp only [aad, Json.obj.injEq, List.cons.injEq, Prod.mk.injEq, Json.str.injEq,
    Json.int.injEq, true_and, and_true] at h
  exact ⟨h.1, Int.ofNat.inj h.2⟩

/-! ### What a record holds -/

/-- The secret last given for each id. -/
abbrev Given := Name → Option Name

/-- What an operation gives. -/
def give (given : Given) : Operation v → Given
  | .create _ upstreamSecret _ _ datasourceId _ =>
      Function.update given datasourceId.1 (some upstreamSecret)
  | .rotateSecret datasourceId upstreamSecret _ _ =>
      Function.update given datasourceId (some upstreamSecret)
  | .remove datasourceId _ => Function.update given datasourceId none
  | .update .. | .rotateMasterKey .. => given

/-- The record holds the secret that was given for its id, sealed under the key, its id and its
revision. -/
def Binds (crypto : Crypto) (key : Key) (given : Given) (record : CatalogRecord v) : Prop :=
  ∃ secret nonce, given record.1.id = some secret ∧
    sealSecret crypto nonce secret key record.1.id record.1.revision = .ok record.1.upstreamSecret

/-- The secret of such a record opens. -/
theorem Binds.opens {given : Given} {record : CatalogRecord v}
    (h : Binds crypto key given record) : ∃ secret, given record.1.id = some secret ∧
      openSecret crypto record.1.upstreamSecret key record.1.id record.1.revision = .ok secret := by
  obtain ⟨secret, nonce, hgiven, hseal⟩ := h
  exact ⟨secret, hgiven, openSecret_seal hseal⟩

/-- It opens in no other way. -/
theorem Binds.only {given : Given} {record : CatalogRecord v} (haead : Aead crypto)
    (h : Binds crypto key given record) {key' : Key} {id : Name} {revision : Nat} {text : Name}
    (hopen : openSecret crypto record.1.upstreamSecret key' id revision = .ok text) :
    key' = key ∧ id = record.1.id ∧ revision = record.1.revision := by
  obtain ⟨secret, nonce, -, hseal⟩ := h
  rw [sealSecret] at hseal
  split at hseal
  · cases hseal
  · rw [← Except.ok.inj hseal, openSecret] at hopen
    split at hopen
    next hdecrypt =>
      obtain ⟨hkey, haad⟩ := haead hdecrypt
      exact ⟨hkey, aad_injective haad⟩
    · cases hopen

/-- What is given for other ids does not matter. -/
theorem Binds.congr {given given' : Given} {record : CatalogRecord v}
    (h : Binds crypto key given record) (hsame : given' record.1.id = given record.1.id) :
    Binds crypto key given' record := by
  obtain ⟨secret, nonce, hgiven, hseal⟩ := h
  exact ⟨secret, nonce, hsame.trans hgiven, hseal⟩

/-- What the store reads is what was given. -/
theorem Binds.plaintext {given : Given} {store : CatalogStore v} {record : CatalogRecord v}
    {plaintext : Name} (h : Binds crypto store.masterKey given record)
    (hread : store.readUpstreamSecret crypto record = .ok plaintext) :
    given record.1.id = some plaintext := by
  obtain ⟨secret, hgiven, hopen⟩ := h.opens
  rw [CatalogStore.readUpstreamSecret, hopen] at hread
  rw [hgiven, Except.ok.inj hread]

/-! ### Replacing a record -/

/-- The records after one of them was replaced. -/
theorem mem_replaceRecord {records : List (CatalogRecord v)} {updated record : CatalogRecord v} :
    record ∈ replaceRecord records updated ↔
      (record ∈ records ∧ record.1.id ≠ updated.1.id) ∨
        (record = updated ∧ ∃ old ∈ records, old.1.id = updated.1.id) := by
  rw [replaceRecord, List.mem_map]
  constructor
  · rintro ⟨old, hold, hrecord⟩
    by_cases hid : old.1.id = updated.1.id
    · rw [if_pos hid] at hrecord
      exact Or.inr ⟨hrecord.symm, old, hold, hid⟩
    · rw [if_neg hid] at hrecord
      rw [← hrecord]
      exact Or.inl ⟨hold, hid⟩
  · rintro (⟨hrecord, hid⟩ | ⟨rfl, old, hold, hid⟩)
    · exact ⟨record, hrecord, if_neg hid⟩
    · exact ⟨old, hold, if_pos hid⟩

/-- The record that replaces another is sealed, and the others keep what they had. -/
theorem binds_replaceRecord {given given' : Given} {records : List (CatalogRecord v)}
    {updated : CatalogRecord v} (h : ∀ record ∈ records, Binds crypto key given record)
    (hother : ∀ id, id ≠ updated.1.id → given' id = given id)
    (hupdated : Binds crypto key given' updated) :
    ∀ record ∈ replaceRecord records updated, Binds crypto key given' record := by
  intro record hrecord
  rcases mem_replaceRecord.mp hrecord with ⟨hold, hid⟩ | ⟨rfl, -⟩
  · exact (h record hold).congr (hother record.1.id hid)
  · exact hupdated

/-- **Every operation binds the secrets of the catalog that it writes.** -/
theorem binds_change {store : CatalogStore v} {operation : Operation v} {change : Change v}
    {given : Given} (hfresh : Fresh store operation)
    (hbinds : ∀ record ∈ store.records, Binds crypto store.masterKey given record)
    (h : operation.change crypto store = .ok change) :
    ∀ record ∈ change.records, Binds crypto (change.key store) (give given operation) record := by
  cases operation with
  | create draft upstreamSecret expectedRevision resolved datasourceId nonce =>
      simp only [Operation.change, CatalogStore.create, bind_eq_ok, pure_eq_ok] at h
      obtain ⟨-, -, -, -, _, -, envelope, hseal, draft', -, rfl⟩ := h
      intro record hrecord
      rcases List.mem_append.mp hrecord with hmem | hmem
      · -- the id is fresh, so nothing was given for another record
        refine (hbinds record hmem).congr ?_
        exact Function.update_of_ne (hfresh record hmem) ..
      · rw [List.mem_singleton.mp hmem]
        exact ⟨upstreamSecret, nonce, Function.update_self .., hseal⟩
  | update datasourceId draft expectedRevision resolved nonce =>
      simp only [Operation.change, CatalogStore.update, bind_eq_ok, pure_eq_ok] at h
      obtain ⟨-, -, current, hcurrent, -, -, _, -, plaintext, hread, envelope, hseal, draft', -,
        rfl⟩ := h
      have hgiven := (hbinds current (getRecord_ok hcurrent).1).plaintext hread
      exact binds_replaceRecord hbinds (fun _ _ => rfl) ⟨plaintext, nonce, hgiven, hseal⟩
  | rotateSecret datasourceId upstreamSecret expectedRevision nonce =>
      simp only [Operation.change, CatalogStore.rotateSecret, bind_eq_ok, pure_eq_ok] at h
      obtain ⟨-, -, current, hcurrent, envelope, hseal, rfl⟩ := h
      have hid : current.1.id = datasourceId := (getRecord_ok hcurrent).2
      refine binds_replaceRecord hbinds ?_ ⟨upstreamSecret, nonce, ?_, hseal⟩
      · intro id hne
        exact Function.update_of_ne (fun heq => hne (heq.trans hid.symm)) ..
      · show Function.update given datasourceId (some upstreamSecret) current.1.id = _
        rw [hid, Function.update_self]
  | rotateMasterKey newMasterKey nonce =>
      simp only [Operation.change, CatalogStore.rotateMasterKey, bind_eq_ok, pure_eq_ok] at h
      obtain ⟨newKey, -, records, hrecords, rfl⟩ := h
      intro record hrecord
      obtain ⟨current, hcurrent, hreseal⟩ := exists_of_mem_mapM hrecords hrecord
      simp only [CatalogStore.resealRecord, bind_eq_ok, pure_eq_ok] at hreseal
      obtain ⟨plaintext, hread, envelope, hseal, rfl⟩ := hreseal
      exact ⟨plaintext, nonce current.1.id, (hbinds current hcurrent).plaintext hread, hseal⟩
  | remove datasourceId expectedRevision =>
      simp only [Operation.change, CatalogStore.remove, bind_eq_ok, pure_eq_ok] at h
      obtain ⟨-, -, _, -, rfl⟩ := h
      intro record hrecord
      obtain ⟨hmem, hid⟩ := List.mem_filter.mp hrecord
      refine (hbinds record hmem).congr ?_
      exact Function.update_of_ne (by simpa using hid) ..

/-! ### What an operation does to the records -/

/-- The records that an operation is about. -/
def Operation.touches : Operation v → Name → Bool
  | .create _ _ _ _ datasourceId _, id => id == datasourceId.1
  | .update datasourceId _ _ _ _, id | .rotateSecret datasourceId _ _ _, id
  | .remove datasourceId _, id => id == datasourceId
  | .rotateMasterKey .., _ => true

/-- Whether an operation is a `remove`. -/
def Operation.removes : Operation v → Bool
  | .remove .. => true
  | _ => false

/-- What an operation does to a list of records. -/
structure Advanced (operation : Operation v) (records records' : List (CatalogRecord v)) :
    Prop where
  /-- Records of other ids are unchanged. -/
  others : ∀ record, Operation.touches operation record.1.id = false →
    (record ∈ records' ↔ record ∈ records)
  /-- A record that was changed is one revision on; one that was created is at the first. -/
  raised : ∀ record ∈ records', Operation.touches operation record.1.id = true →
    (∃ old ∈ records, old.1.id = record.1.id ∧ record.1.revision = old.1.revision + 1) ∨
      (record.1.revision = 1 ∧ ∀ old ∈ records, old.1.id ≠ record.1.id)
  /-- Only `remove` takes a record away. -/
  stays : Operation.removes operation = false →
    ∀ old ∈ records, ∃ record ∈ records', record.1.id = old.1.id
  removed : Operation.removes operation = true →
    ∀ record ∈ records', Operation.touches operation record.1.id = false

/-- Replacing one record by its next revision. -/
theorem advanced_replaceRecord {operation : Operation v} {records : List (CatalogRecord v)}
    {current updated : CatalogRecord v}
    (htouches : ∀ id, Operation.touches operation id = true ↔ id = current.1.id)
    (hremoves : Operation.removes operation = false) (hcurrent : current ∈ records)
    (hid : updated.1.id = current.1.id) (hrevision : updated.1.revision = current.1.revision + 1) :
    Advanced operation records (replaceRecord records updated) where
  others record huntouched := by
    have hne : record.1.id ≠ updated.1.id := by
      intro heq
      rw [(htouches record.1.id).mpr (heq.trans hid)] at huntouched
      cases huntouched
    rw [mem_replaceRecord]
    constructor
    · rintro (⟨hmem, -⟩ | ⟨rfl, -⟩)
      · exact hmem
      · exact absurd rfl hne
    · exact fun hmem => Or.inl ⟨hmem, hne⟩
  raised record hrecord htouched := by
    rcases mem_replaceRecord.mp hrecord with ⟨-, hne⟩ | ⟨rfl, -⟩
    · exact absurd (((htouches record.1.id).mp htouched).trans hid.symm) hne
    · exact Or.inl ⟨current, hcurrent, hid.symm, hrevision⟩
  stays _ old hold := by
    by_cases heq : old.1.id = updated.1.id
    · exact ⟨updated, mem_replaceRecord.mpr (Or.inr ⟨rfl, old, hold, heq⟩), heq.symm⟩
    · exact ⟨old, mem_replaceRecord.mpr (Or.inl ⟨hold, heq⟩), rfl⟩
  removed hyes := by
    rw [hremoves] at hyes
    cases hyes

/-- Every record of a list that was mapped comes from one before, and the other way around. -/
theorem forall₂_mem {records records' : List (CatalogRecord v)}
    {r : CatalogRecord v → CatalogRecord v → Prop} (h : List.Forall₂ r records records') :
    (∀ record ∈ records', ∃ old ∈ records, r old record) ∧
      ∀ old ∈ records, ∃ record ∈ records', r old record := by
  induction h with
  | nil => exact ⟨fun _ hrecord => (nomatch hrecord), fun _ hold => (nomatch hold)⟩
  | cons hhead _ ih =>
      refine ⟨?_, ?_⟩
      · intro record hrecord
        rcases List.mem_cons.mp hrecord with rfl | hrecord
        · exact ⟨_, List.mem_cons_self .., hhead⟩
        · obtain ⟨old, hold, hr⟩ := ih.1 record hrecord
          exact ⟨old, List.mem_cons_of_mem _ hold, hr⟩
      · intro old hold
        rcases List.mem_cons.mp hold with rfl | hold
        · exact ⟨_, List.mem_cons_self .., hhead⟩
        · obtain ⟨record, hrecord, hr⟩ := ih.2 old hold
          exact ⟨record, List.mem_cons_of_mem _ hrecord, hr⟩

/-- **What each operation does to the records.** -/
theorem advanced_change {store : CatalogStore v} {operation : Operation v} {change : Change v}
    (hfresh : Fresh store operation) (h : operation.change crypto store = .ok change) :
    Advanced operation store.records change.records := by
  cases operation with
  | create draft upstreamSecret expectedRevision resolved datasourceId nonce =>
      simp only [Operation.change, CatalogStore.create, bind_eq_ok, pure_eq_ok] at h
      obtain ⟨-, -, -, -, _, -, envelope, -, draft', -, rfl⟩ := h
      refine { others := ?_, raised := ?_, stays := ?_, removed := fun hyes => (by cases hyes) }
      · intro record huntouched
        have hne : record.1.id ≠ datasourceId.1 := by
          simpa [Operation.touches] using huntouched
        rw [List.mem_append, List.mem_singleton]
        refine ⟨fun hor => hor.elim id fun heq => ?_, Or.inl⟩
        rw [heq] at hne
        exact absurd rfl hne
      · intro record hrecord htouched
        have hid : record.1.id = datasourceId.1 := by
          simpa [Operation.touches] using htouched
        rcases List.mem_append.mp hrecord with hmem | hmem
        · exact absurd hid (hfresh record hmem)
        · refine Or.inr ⟨?_, fun old hold => ?_⟩
          · rw [List.mem_singleton.mp hmem]
            rfl
          · rw [hid]
            exact hfresh old hold
      · exact fun _ old hold => ⟨old, List.mem_append_left _ hold, rfl⟩
  | update datasourceId draft expectedRevision resolved nonce =>
      simp only [Operation.change, CatalogStore.update, bind_eq_ok, pure_eq_ok] at h
      obtain ⟨-, -, current, hcurrent, -, -, _, -, plaintext, -, envelope, -, draft', -, rfl⟩ := h
      obtain ⟨hmem, hid⟩ := getRecord_ok hcurrent
      refine advanced_replaceRecord (fun id => ?_) rfl hmem rfl rfl
      rw [Operation.touches, beq_iff_eq, hid]
  | rotateSecret datasourceId upstreamSecret expectedRevision nonce =>
      simp only [Operation.change, CatalogStore.rotateSecret, bind_eq_ok, pure_eq_ok] at h
      obtain ⟨-, -, current, hcurrent, envelope, -, rfl⟩ := h
      obtain ⟨hmem, hid⟩ := getRecord_ok hcurrent
      refine advanced_replaceRecord (fun id => ?_) rfl hmem rfl rfl
      rw [Operation.touches, beq_iff_eq, hid]
  | rotateMasterKey newMasterKey nonce =>
      simp only [Operation.change, CatalogStore.rotateMasterKey, bind_eq_ok, pure_eq_ok] at h
      obtain ⟨newKey, -, records, hrecords, rfl⟩ := h
      have hresealed : List.Forall₂ (fun old record : CatalogRecord v =>
          old.1.id = record.1.id ∧ record.1.revision = old.1.revision + 1) store.records records := by
        refine (mapM_eq_ok.mp hrecords).imp fun old record hreseal => ?_
        simp only [CatalogStore.resealRecord, bind_eq_ok, pure_eq_ok] at hreseal
        obtain ⟨plaintext, -, envelope, -, rfl⟩ := hreseal
        exact ⟨rfl, rfl⟩
      obtain ⟨hback, hforth⟩ := forall₂_mem hresealed
      refine { others := fun _ hno => (by cases hno), raised := ?_, stays := ?_,
               removed := fun hyes => (by cases hyes) }
      · exact fun record hrecord _ => Or.inl (hback record hrecord)
      · intro _ old hold
        obtain ⟨record, hrecord, hid, -⟩ := hforth old hold
        exact ⟨record, hrecord, hid.symm⟩
  | remove datasourceId expectedRevision =>
      simp only [Operation.change, CatalogStore.remove, bind_eq_ok, pure_eq_ok] at h
      obtain ⟨-, -, _, -, rfl⟩ := h
      have hkept : ∀ record : CatalogRecord v,
          record ∈ (store.records.filter fun record => record.1.id != datasourceId) ↔
            record ∈ store.records ∧
              Operation.touches (.remove datasourceId expectedRevision : Operation v) record.1.id =
                false := by
        intro record
        rw [List.mem_filter, Operation.touches, bne, Bool.not_eq_true', beq_eq_false_iff_ne]
      refine { others := ?_, raised := ?_, stays := fun hno => (by cases hno), removed := ?_ }
      · exact fun record huntouched => (hkept record).trans (and_iff_left huntouched)
      · intro record hrecord htouched
        rw [((hkept record).mp hrecord).2] at htouched
        cases htouched
      · exact fun _ record hrecord => ((hkept record).mp hrecord).2

/-! ### Runs of successful calls -/

/-- A catalog in use, and the secrets last given for its ids. -/
structure Used (v : Validators) where
  disk : Disk
  store : CatalogStore v
  given : Given

/-- What successful calls lead to: `initialize`, then operations, and `open` after `close`. The ids
that `create` draws are new; a key other than the current one makes other tags. -/
inductive Lived (v : Validators) (crypto : Crypto) : Used v → Prop
  | initialized {disk disk' : Disk} {key : Key} {faults : Faults} {store : CatalogStore v}
      (h : initializeStore v crypto disk key faults = (disk', .returned store)) :
      Lived v crypto ⟨disk', store, fun _ => none⟩
  | operated {s : Used v} (operation : Operation v) {faults : Faults} {disk' : Disk}
      {store' : CatalogStore v} {answer : Answer v} (hs : Lived v crypto s)
      (hfresh : Fresh s.store operation)
      (h : operation.run crypto s.disk s.store faults = (disk', store', .returned answer)) :
      Lived v crypto ⟨disk', store', give s.given operation⟩
  | reopened {s : Used v} {key : Key} {faults : Faults} {disk' : Disk} {store' : CatalogStore v}
      (hs : Lived v crypto s)
      (hkey : key = s.store.masterKey ∨
        ∀ payload, crypto.tag s.store.masterKey payload ≠ crypto.tag key payload)
      (h : openStore v crypto s.disk key faults = (disk', .returned store')) :
      Lived v crypto ⟨disk', store', s.given⟩

/-- The invariant: memory agrees with the disk, and every secret is bound. -/
structure Bound (crypto : Crypto) (s : Used v) : Prop where
  agrees : Agrees crypto s.disk s.store
  open_ : s.store.ensureOpen = .ok ()
  binds : ∀ record ∈ s.store.records, Binds crypto s.store.masterKey s.given record

/-- The records after a commit are those of the change. -/
theorem mem_committed {change : Change v} {store : CatalogStore v} {record : CatalogRecord v} :
    record ∈ (committed crypto change store).records ↔ record ∈ change.records :=
  (sortRecords_perm change.records).mem_iff

/-- An object that is neither closed nor unusable. -/
theorem ensureOpen_ok {store : CatalogStore v} (hclosed : store.closed = false)
    (hpoisoned : store.poisoned = false) : store.ensureOpen = .ok () := by
  simp [CatalogStore.ensureOpen, hclosed, hpoisoned, refuseIf]

/-- What an operation that returned has done. -/
theorem run_returned {s : Used v} {operation : Operation v} {faults : Faults} {disk' : Disk}
    {store' : CatalogStore v} {answer : Answer v} (hs : Bound crypto s)
    (hfresh : Fresh s.store operation)
    (h : operation.run crypto s.disk s.store faults = (disk', store', .returned answer)) :
    ∃ change, operation.change crypto s.store = .ok change ∧
      store' = committed crypto change s.store ∧ Agrees crypto disk' store' := by
  have hok : ∀ change, operation.change crypto s.store = .ok change → ChangeOk s.store change :=
    fun change => change_ok hfresh hs.agrees.distinct
  have hresult := run_result s.disk faults hok
  rw [h] at hresult
  cases hresult with
  | returned change oldData hopen hchange hstore =>
      exact ⟨change, hchange, rfl, agrees_committed oldData faults s.disk (hok change hchange)⟩

/-- Opening a catalog again gives what was in memory. -/
theorem reopen_same {s : Used v} {key : Key} {faults : Faults} {disk' : Disk}
    {store' : CatalogStore v} (hs : Bound crypto s)
    (hkey : key = s.store.masterKey ∨
      ∀ payload, crypto.tag s.store.masterKey payload ≠ crypto.tag key payload)
    (h : openStore v crypto s.disk key faults = (disk', .returned store')) :
    store' = CatalogStore.ofParsed s.store.masterKey (inMemory s.store) := by
  have hsettled := settled_of_reads hs.agrees.settled hs.agrees.reads
  rcases hkey with rfl | htags
  · obtain ⟨c, hc, hstore⟩ := (open_settled faults hsettled).2 store' (by rw [h])
    rw [hstore, ← Option.some.inj hc]
  · -- another key does not authenticate the store, so `open` does not return
    have hplan : planRecovery v crypto s.disk key = .ok none := by
      rw [planRecovery, hs.agrees.settled]
    obtain ⟨data, _, _, hdata, -, hparse, -, -⟩ := readPair_ok.mp hs.agrees.reads
    rcases openStore_result faults hplan with ⟨-, hnot⟩ | ⟨catalog, hread, -⟩
    · rw [h] at hnot
      exact absurd rfl (hnot store')
    · obtain ⟨data', _, _, hdata', -, hparse', -, -⟩ := readPair_ok.mp hread
      obtain rfl := Option.some.inj (hdata.symm.trans hdata')
      rw [parseCatalog_other_key htags hparse] at hparse'
      cases hparse'

/-- **Every run of successful calls keeps the secrets bound.** -/
theorem lived_bound {s : Used v} (h : Lived v crypto s) : Bound crypto s := by
  induction h with
  | @initialized disk disk' key faults store h =>
      obtain ⟨hagrees, hpoisoned, hclosed, -⟩ := agrees_initializeStore h
      refine ⟨hagrees, ensureOpen_ok hclosed hpoisoned, ?_⟩
      -- the first catalog has no records
      have hrecords : store.records = [] := by
        rcases initializeStore_result v crypto key disk faults with
          ⟨-, error, hrun⟩ | ⟨-, disk₁, -, ⟨error, hrun⟩ | hrun⟩ | ⟨-, hrun⟩
        · rw [h] at hrun
          cases hrun
        · rw [h] at hrun
          cases hrun
        · rw [h] at hrun
          cases hrun
        · rw [h] at hrun
          cases hrun
          rfl
      show ∀ record ∈ store.records, _
      rw [hrecords]
      exact fun _ hrecord => (nomatch hrecord)
  | @operated s operation faults disk' store' answer _ hfresh hrun ih =>
      obtain ⟨change, hchange, rfl, hagrees⟩ := run_returned ih hfresh hrun
      refine ⟨hagrees, ih.open_, ?_⟩
      intro record hrecord
      exact binds_change hfresh ih.binds hchange record (mem_committed.mp hrecord)
  | @reopened s key faults disk' store' _ hkey hopen ih =>
      obtain ⟨hagrees, hpoisoned, hclosed, -⟩ := agrees_open hopen
      obtain rfl := reopen_same ih hkey hopen
      exact ⟨hagrees, ensureOpen_ok hclosed hpoisoned, ih.binds⟩

/-- What holds of the secrets and records of a catalog in use. -/
structure Secured (crypto : Crypto) (s : Used v) : Prop where
  /-- `read_upstream_secret` gives the secret that was last given for the id. -/
  reads : ∀ record ∈ s.store.records, ∃ secret, s.given record.1.id = some secret ∧
    s.store.readUpstreamSecretOf crypto record.1.id = .ok secret
  /-- An envelope opens only under the current key and its own id and revision. -/
  only : ∀ record ∈ s.store.records, ∀ key id revision text,
    openSecret crypto record.1.upstreamSecret key id revision = .ok text →
      key = s.store.masterKey ∧ id = record.1.id ∧ revision = record.1.revision
  distinct : Distinct s.store.records
  ordered : (s.store.records.map fun record => record.1.id).Pairwise (· ≤ ·)

/-- `_get_record` finds every record by its id. -/
theorem getRecord_self {store : CatalogStore v} (hdistinct : Distinct store.records)
    {record : CatalogRecord v} (h : record ∈ store.records) :
    store.getRecord record.1.id = .ok record := by
  rw [CatalogStore.getRecord, record.2.id]
  cases hfind : store.records.find? fun other => other.1.id == record.1.id with
  | none =>
      have hnone := List.find?_eq_none.mp hfind record h
      rw [beq_self_eq_true] at hnone
      exact absurd rfl hnone
  | some found =>
      have hid : found.1.id = record.1.id := by simpa using List.find?_some hfind
      have hsame : found = record :=
        List.inj_on_of_nodup_map hdistinct.ids (List.mem_of_find?_eq_some hfind) h hid
      rw [hsame]
      rfl

/-- **Secrets are bound over whole runs.** After every sequence of successful calls, every record
gives the secret that was last given for its id, and its envelope opens in no other way; ids and
aliases are distinct, and records in the order of their ids. The next operation that returns raises
the catalog revision by one, and does to the records what `Advanced` says. -/
theorem secret_binding (haead : Aead crypto) {s : Used v} (h : Lived v crypto s) :
    Secured crypto s ∧
    ∀ operation faults disk' store' answer, Fresh s.store operation →
      operation.run crypto s.disk s.store faults = (disk', store', .returned answer) →
      store'.revision = s.store.revision + 1 ∧
        Advanced operation s.store.records store'.records := by
  have hs := lived_bound h
  refine ⟨{ reads := ?_, only := ?_, distinct := hs.agrees.distinct,
            ordered := hs.agrees.catalogOk.sorted }, ?_⟩
  · intro record hrecord
    obtain ⟨secret, hgiven, hopen⟩ := (hs.binds record hrecord).opens
    refine ⟨secret, hgiven, ?_⟩
    simp only [CatalogStore.readUpstreamSecretOf, bind_eq_ok]
    refine ⟨(), hs.open_, record, getRecord_self hs.agrees.distinct hrecord, ?_⟩
    rw [CatalogStore.readUpstreamSecret, hopen]
  · intro record hrecord key id revision text hopen
    exact (hs.binds record hrecord).only haead hopen
  · intro operation faults disk' store' answer hfresh hrun
    obtain ⟨change, hchange, rfl, -⟩ := run_returned hs hfresh hrun
    have hadvanced := advanced_change hfresh hchange
    refine ⟨rfl, { others := ?_, raised := ?_, stays := ?_, removed := ?_ }⟩
    · exact fun record huntouched => mem_committed.trans (hadvanced.others record huntouched)
    · exact fun record hrecord => hadvanced.raised record (mem_committed.mp hrecord)
    · intro hremoves old hold
      obtain ⟨record, hrecord, hid⟩ := hadvanced.stays hremoves old hold
      exact ⟨record, mem_committed.mpr hrecord, hid⟩
    · exact fun hremoves record hrecord =>
        hadvanced.removed hremoves record (mem_committed.mp hrecord)

end

/-! ### A catalog with one datasource -/

/-- The policy without rules, as it is dumped. -/
def plainPolicy : List (Name × Json) :=
  [("database".toList, .obj [("max_rows".toList, .int 1000),
     ("statement_timeout_ms".toList, .int 30000)]),
   ("exceptions".toList, .arr []), ("masking".toList, .arr []), ("revision".toList, .int 0),
   ("sql".toList, .obj [("allowed_pg_functions".toList, .arr []),
     ("denied_functions".toList, .arr [])])]

/-- Checks that agree with the real ones on the one datasource. -/
def crmValidators : Validators where
  isAddress text := text == "10.0.0.5".toList
  isTimestamp _ := false
  isSpace c := c == ' '
  lower := id
  policy _ := some plainPolicy
  policy_dump _ _ h := h

/-- Its limits. -/
def crmLimits : DatasourceLimits := ⟨30000, 1000, 10, by decide, by decide, by decide⟩

/-- The draft of the datasource. -/
def crmDraft (enabled : Bool) : ValidDraft crmValidators :=
  ⟨{ alias_ := "crm".toList, displayName := "CRM".toList, host := "10.0.0.5".toList, port := 5432
     database := "app".toList, username := "gw".toList, enabled, tls := ⟨.disable, none⟩
     policy := plainPolicy
     limits := crmLimits
     destinationPolicy := ⟨false, false, []⟩
     resolvedAddresses := ["10.0.0.5".toList] }, by revert enabled; decide +kernel, rfl⟩

/-- The id of the datasource. -/
def crmId : { id : Name // validDatasourceId id = true } :=
  ⟨"dso_".toList ++ List.replicate 32 '0', by decide +kernel⟩

/-- What tells the associated data of the store apart. -/
def aadCode : Json → List Nat × Nat
  | .obj [(_, .str id), _, (_, .int revision), _] => (id.map Char.toNat, revision.toNat)
  | _ => ([], 0)

/-- What one call of AES-GCM is about. -/
def sealCode (key : Key) (text : Name) (data : Json) : List Nat × List Nat × List Nat × Nat :=
  (key.1.map UInt8.toNat, text.map Char.toNat, aadCode data)

/-- The password of the datasource under the key of zeros and the nonce of zeros, as AES-GCM
encrypts it. -/
def crmCiphertext : List UInt8 :=
  [190, 208, 199, 35, 225, 230, 190, 103, 6, 122, 219, 140, 254, 152, 162, 37, 184, 20]

/-- The call that makes this ciphertext. -/
def crmSeal : List Nat × List Nat × List Nat × Nat :=
  sealCode (constantKey 0) "pw".toList (aad crmId.1 1)

/-- Encryption: the real ciphertext for that call, and for every other one that is long and tells
everything apart. -/
def crmEncrypt (key : Key) (nonce : List UInt8) (text : Name) (data : Json) : List UInt8 :=
  if nonce = List.replicate 12 0 ∧ sealCode key text data = crmSeal then crmCiphertext
  else List.replicate (1000 + Encodable.encode (sealCode key text data)) 0

/-- The call that made a ciphertext. -/
def crmCode (nonce ciphertext : List UInt8) : Option (List Nat × List Nat × List Nat × Nat) :=
  if ciphertext = crmCiphertext ∧ nonce = List.replicate 12 0 then some crmSeal
  else Encodable.decode (ciphertext.length - 1000)

theorem crmCode_crmEncrypt (key : Key) (nonce : List UInt8) (text : Name) (data : Json) :
    crmCode nonce (crmEncrypt key nonce text data) = some (sealCode key text data) := by
  rw [crmEncrypt, crmCode]
  by_cases hcall : nonce = List.replicate 12 0 ∧ sealCode key text data = crmSeal
  · rw [if_pos hcall, if_pos ⟨rfl, hcall.1⟩, hcall.2]
  · have hlong : List.replicate (1000 + Encodable.encode (sealCode key text data)) (0 : UInt8) ≠
        crmCiphertext := by
      intro heq
      have hlength := congrArg List.length heq
      rw [List.length_replicate, show crmCiphertext.length = 18 from rfl] at hlength
      omega
    rw [if_neg hcall, if_neg fun h => hlong h.1, List.length_replicate, Nat.add_sub_cancel_left,
      Encodable.encodek]

/-- Decryption: the call is found, and has to be one under the same key and associated data. -/
def crmDecrypt (key : Key) (nonce ciphertext : List UInt8) (data : Json) : Option Name :=
  ((crmCode nonce ciphertext).filter fun code =>
    code.1 == key.1.map UInt8.toNat && code.2.2 == aadCode data).map fun code =>
      code.2.1.map Char.ofNat

/-- The tags of the catalogs at revisions 1 and 2, and of the journals that lead to them. -/
def crmTag : Json → Name
  | .obj [(_, .int 1), _, _, _] =>
      hexText 0xff8797b0d598546b599f000f693012b7ec00834178a9e555fe12f74885c63308
  | .obj [(_, .int _), _, _, _] =>
      hexText 0x10120db7688e81f800b57831c9d92b0b1f09a6b57d50b51559a75a2ba068b656
  | .obj [_, _, (_, .int 1), _, _] =>
      hexText 0xad78bbddc94ca051abd64fc21e050d642bbda78ae94c9b86e26b345b8304fd58
  | _ => hexText 0xb18beb5897da2f8972be255f80ce6f11335869a052c33a9b82e2bccba00549ac

/-- The digests of the catalogs at revisions 1 and 2. -/
def crmDigest : Json → Name
  | .obj [(_, .int 1), _, _, _] =>
      hexText 0x432e6b12ca024bf6b61c9f886b4877470293008229c37bd72b182ef905137eae
  | _ => hexText 0x30a4b5c49c985c46317d8ac58ec6d2e59cacc7d8af30c6b8f098d78f4887dc58

/-- Tags are hexadecimal. -/
theorem fixedHex_crmTag (_ : Key) (payload : Json) : fixedHex (crmTag payload) = true := by
  unfold crmTag
  split <;> exact fixedHex_hexText _

/-- Digests are hexadecimal. -/
theorem fixedHex_crmDigest (payload : Json) : fixedHex (crmDigest payload) = true := by
  unfold crmDigest
  split <;> exact fixedHex_hexText _

/-- A ciphertext holds its tag. -/
theorem le_length_crmEncrypt (key : Key) (nonce : List UInt8) (text : Name) (data : Json) :
    16 ≤ (crmEncrypt key nonce text data).length := by
  unfold crmEncrypt
  split
  · decide
  · rw [List.length_replicate]
    omega

/-- What was encrypted is decrypted. -/
theorem crmDecrypt_crmEncrypt (key : Key) (nonce : List UInt8) (text : Name) (data : Json) :
    crmDecrypt key nonce (crmEncrypt key nonce text data) data = some text := by
  rw [crmDecrypt, crmCode_crmEncrypt]
  simp [sealCode, Function.comp_def, Char.ofNat_toNat]

/-- Primitives that agree with the real ones on the catalog with one datasource under the key of
zeros. -/
def crmCrypto : Crypto where
  tag _ := crmTag
  digest := crmDigest
  encrypt := crmEncrypt
  decrypt := crmDecrypt
  tag_hex := fixedHex_crmTag
  digest_hex := fixedHex_crmDigest
  encrypt_length := le_length_crmEncrypt
  decrypt_encrypt := crmDecrypt_crmEncrypt

/-- These primitives open what was sealed in one way only. -/
theorem aead_crmCrypto : Aead crmCrypto := by
  intro key key' nonce text text' id id' revision revision' h
  have hfound : crmCode nonce (crmEncrypt key nonce text (aad id revision)) =
      some (sealCode key text (aad id revision)) := crmCode_crmEncrypt ..
  have hopen : crmDecrypt key' nonce (crmEncrypt key nonce text (aad id revision))
      (aad id' revision') = some text' := h
  rw [crmDecrypt, hfound, Option.map_eq_some_iff] at hopen
  obtain ⟨code, hcode, -⟩ := hopen
  obtain ⟨hsome, hsame⟩ := Option.filter_eq_some_iff.mp hcode
  obtain rfl := Option.some.inj hsome
  rw [Bool.and_eq_true, beq_iff_eq, beq_iff_eq] at hsame
  obtain ⟨hkeys, hdata⟩ := hsame
  have hbytes : key.1 = key'.1 := List.map_injective_iff.mpr (fun _ _ => UInt8.toNat_inj.mp) hkeys
  have hids : id = id' :=
    List.map_injective_iff.mpr (fun a b hab => Char.toNat_inj.mp hab) (congrArg Prod.fst hdata)
  have hrevisions : revision = revision' := congrArg Prod.snd hdata
  rw [hids, hrevisions]
  exact ⟨Subtype.ext hbytes.symm, rfl⟩

/-- `create` of the datasource. -/
def createCrm : Operation crmValidators :=
  .create (crmDraft true) "pw".toList (some 1) (.ok ["10.0.0.5".toList]) crmId
    ⟨List.replicate 12 0, length_zeroNonce⟩

/-- The catalog after `initialize` and `create`: one record, which gives its password. -/
theorem secret_binding_created :
    ∃ s : Used crmValidators, Lived crmValidators crmCrypto s ∧ s.store.records.length = 1 ∧
      s.given crmId.1 = some "pw".toList ∧ Secured crmCrypto s := by
  have hfirst : Lived crmValidators crmCrypto _ :=
    @Lived.initialized _ _ emptyDisk _ (constantKey 0) {} _ rfl
  have hcreated : Lived crmValidators crmCrypto _ :=
    @Lived.operated _ _ _ createCrm {} _ _ _ hfirst (fun _ hrecord => (nomatch hrecord)) rfl
  exact ⟨_, hcreated, rfl, rfl, (secret_binding aead_crmCrypto hcreated).1⟩

end MaskGateway.Proofs.Datasource
