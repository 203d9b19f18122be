import MaskGateway.Proofs.Datasource.Reopening

/-!
# `MaskGateway.Proofs.Datasource.Secrets`: the secrets of a catalog open under its key

`recover_master_key_rotation` refuses a catalog with a secret that its key does not open. No run of the
store makes one: every operation seals what it writes under the key of the catalog it writes
(`sealed_change`), so along every run the catalogs before and after the last transaction are `Sealed`
(`reached_sealed`).
-/

set_option autoImplicit false

namespace MaskGateway.Proofs.Datasource

open MaskGateway.Datasource MaskGateway.Lib

variable {v : Validators} {crypto : Crypto} {key : Key}

/-- The secret of a record opens under the key. -/
def Opens (crypto : Crypto) (key : Key) (record : CatalogRecord v) : Prop :=
  ∃ plaintext, openSecret crypto record.1.upstreamSecret key record.1.id record.1.revision =
    .ok plaintext

/-- Every secret of a catalog opens under the key. -/
def Sealed (crypto : Crypto) (key : Key) (catalog : ParsedCatalog v) : Prop :=
  ∀ record ∈ catalog.records, Opens crypto key record

/-- `_verify_secrets` passes on the sealed catalogs. -/
theorem verifySecrets_ok {catalog : ParsedCatalog v} :
    verifySecrets crypto catalog key = .ok () ↔ Sealed crypto key catalog := by
  rw [verifySecrets, forM_eq_ok]
  apply forall₂_congr
  intro record _
  rw [Opens]
  cases openSecret crypto record.1.upstreamSecret key record.1.id record.1.revision <;> simp

/-- A sealed secret opens again. -/
theorem openSecret_seal {nonce : Nonce} {plaintext datasourceId : Name} {revision : Nat}
    {envelope : EncryptedSecret}
    (h : sealSecret crypto nonce plaintext key datasourceId revision = .ok envelope) :
    openSecret crypto envelope key datasourceId revision = .ok plaintext := by
  rw [sealSecret] at h
  split at h
  · cases h
  · rename_i hne
    cases h
    rw [openSecret]
    simp only
    rw [crypto.decrypt_encrypt]
    cases plaintext with
    | nil => exact absurd rfl hne
    | cons c rest => rfl

/-- The records of a target are those of the change. -/
theorem mem_target {change : Change v} {store : CatalogStore v} {record : CatalogRecord v} :
    record ∈ (change.target crypto store).records ↔ record ∈ change.records :=
  (sortRecords_perm change.records).mem_iff

/-- Replacing a record by one that opens keeps a catalog sealed. -/
theorem opens_replaceRecord {records : List (CatalogRecord v)} {updated : CatalogRecord v}
    (h : ∀ record ∈ records, Opens crypto key record) (hupdated : Opens crypto key updated) :
    ∀ record ∈ replaceRecord records updated, Opens crypto key record := by
  intro record hrecord
  obtain ⟨other, hother, hsame⟩ := List.mem_map.mp hrecord
  split at hsame
  · rw [← hsame]
    exact hupdated
  · rw [← hsame]
    exact h other hother

/-- A record sealed again opens under the new key. -/
theorem opens_resealRecord {store : CatalogStore v} {newKey : Key} {nonce : Name → Nonce}
    {current record : CatalogRecord v}
    (h : store.resealRecord crypto newKey nonce current = .ok record) :
    Opens crypto newKey record := by
  simp only [CatalogStore.resealRecord, bind_eq_ok, pure_eq_ok] at h
  obtain ⟨plaintext, -, envelope, hseal, rfl⟩ := h
  exact ⟨plaintext, openSecret_seal hseal⟩

/-- **Every operation writes a catalog that its key opens.** -/
theorem sealed_change {store : CatalogStore v} {operation : Operation v} {change : Change v}
    (hsealed : Sealed crypto store.masterKey (inMemory store))
    (h : operation.change crypto store = .ok change) :
    Sealed crypto (change.key store) (change.target crypto store) := by
  have hold : ∀ record ∈ store.records, Opens crypto store.masterKey record := hsealed
  intro record hrecord
  rw [mem_target] at hrecord
  revert record
  cases operation with
  | create draft upstreamSecret expectedRevision resolved datasourceId nonce =>
      simp only [Operation.change, CatalogStore.create, bind_eq_ok, pure_eq_ok] at h
      obtain ⟨-, -, -, -, _, -, envelope, hseal, draft', -, rfl⟩ := h
      intro record hrecord
      rcases List.mem_append.mp hrecord with hmem | hmem
      · exact hold record hmem
      · cases List.mem_singleton.mp hmem
        exact ⟨upstreamSecret, openSecret_seal hseal⟩
  | update datasourceId draft expectedRevision resolved nonce =>
      simp only [Operation.change, CatalogStore.update, bind_eq_ok, pure_eq_ok] at h
      obtain ⟨-, -, current, -, -, -, _, -, plaintext, -, envelope, hseal, draft', -, rfl⟩ := h
      exact opens_replaceRecord hold ⟨plaintext, openSecret_seal hseal⟩
  | rotateSecret datasourceId upstreamSecret expectedRevision nonce =>
      simp only [Operation.change, CatalogStore.rotateSecret, bind_eq_ok, pure_eq_ok] at h
      obtain ⟨-, -, current, -, envelope, hseal, rfl⟩ := h
      exact opens_replaceRecord hold ⟨upstreamSecret, openSecret_seal hseal⟩
  | rotateMasterKey newMasterKey nonce =>
      simp only [Operation.change, CatalogStore.rotateMasterKey, bind_eq_ok, pure_eq_ok] at h
      obtain ⟨newKey, -, records, hrecords, rfl⟩ := h
      intro record hrecord
      obtain ⟨current, -, hreseal⟩ := exists_of_mem_mapM hrecords hrecord
      exact opens_resealRecord hreseal
  | remove datasourceId expectedRevision =>
      simp only [Operation.change, CatalogStore.remove, bind_eq_ok, pure_eq_ok] at h
      obtain ⟨-, -, _, -, rfl⟩ := h
      intro record hrecord
      exact hold record (List.mem_filter.mp hrecord).1

/-! ### Along a run -/

/-- Both catalogs that a world notes are sealed. -/
def NotesSealed (crypto : Crypto) (key : Key) (world : World v) : Prop :=
  ∀ c, world.before = some c ∨ world.after = some c → Sealed crypto key c

/-- A usable object holds a sealed catalog. -/
theorem sealed_inMemory {world : World v} {store : CatalogStore v} (hinv : Inv crypto key world)
    (hsealed : NotesSealed crypto key world) (hprocess : world.process = some store)
    (hpoisoned : store.poisoned = false) : Sealed crypto store.masterKey (inMemory store) := by
  obtain ⟨hkey, hagrees⟩ := hinv.process store hprocess hpoisoned
  rw [hkey]
  exact hsealed _ ((hinv.success_le hkey hagrees).1 _ rfl)

/-- One event keeps the noted catalogs sealed. -/
theorem notesSealed_step {first : Option (ParsedCatalog v)} {world : World v} {event : Event v}
    (hreached : Reached crypto key first world) (hallowed : Allowed crypto world event) (hsealed : NotesSealed crypto key world) :
    NotesSealed crypto key (world.step crypto key event) := by
  have hinv := reached_inv hreached
  have hfirst : Sealed crypto key (firstCatalog v crypto) := fun _ hrecord => (nomatch hrecord)
  cases event with
  | initializing faults =>
      have hnew : ∀ c, (none : Option (ParsedCatalog v)) = some c ∨
          some (firstCatalog v crypto) = some c → Sealed crypto key c := by
        rintro c (hc | hc)
        · cases hc
        · cases hc
          exact hfirst
      rw [World.step]
      split
      · exact hnew
      · split
        · exact hsealed
        · exact hnew
  | opening faults =>
      rw [World.step]
      split
      · rename_i store hreply
        -- what was opened is one of the catalogs noted before
        have hopened : ∀ (c : ParsedCatalog v),
            Settled crypto key (openStore v crypto world.disk key faults).1 (some c) →
            Sealed crypto key c := by
          intro c hsettled
          rcases recoverable_open faults hinv.disk with ⟨catalog, hcatalog, hcandidate⟩ |
            ⟨_, _, hpending, -⟩
          · rw [hcatalog.unique hsettled] at hcandidate
            exact hsealed c (hcandidate.1 c rfl)
          · obtain ⟨_, _, hjournal, -⟩ := hpending.journal
            rw [hsettled.journal] at hjournal
            cases hjournal
        obtain ⟨hagrees, -, -, hkey⟩ := agrees_open (Prod.ext rfl hreply)
        have hsettled := settled_of_reads hagrees.settled hagrees.reads
        rw [hkey] at hsettled
        rintro c (⟨⟨⟩⟩ | ⟨⟨⟩⟩) <;> exact hopened _ hsettled
      · exact hsealed
  | operating operation faults =>
      rw [World.step]
      cases hprocess : world.process with
      | none => exact hsealed
      | some store =>
          simp only
          split
          · rename_i _ _ change hopen hchange
            have hpoisoned : store.poisoned = false := by
              simp only [CatalogStore.ensureOpen, bind_eq_ok, refuseIf_eq_ok] at hopen
              obtain ⟨-, -, hnot⟩ := hopen
              simpa using hnot
            have hmemory := sealed_inMemory hinv hsealed hprocess hpoisoned
            obtain ⟨hkey, -⟩ := hinv.process store hprocess hpoisoned
            have htarget := sealed_change hmemory hchange
            rw [(hallowed store hprocess).2 change hchange] at htarget
            rw [hkey] at hmemory htarget
            rintro c (⟨⟨⟩⟩ | ⟨⟨⟩⟩)
            · exact hmemory
            · exact htarget
          · exact hsealed
  | leaving => exact hsealed

/-- **Along every run the secrets open**, when they do on the disk that it starts from. -/
theorem reached_sealed {first : Option (ParsedCatalog v)} {world : World v}
    (h : Reached crypto key first world) (hfirst : ∀ c, first = some c → Sealed crypto key c) :
    NotesSealed crypto key world := by
  induction h with
  | start hsettled =>
      rintro c (hc | hc) <;> exact hfirst c hc
  | step event hreached hallowed ih => exact notesSealed_step hreached hallowed ih

end MaskGateway.Proofs.Datasource
