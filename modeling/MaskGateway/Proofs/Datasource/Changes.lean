import MaskGateway.Proofs.Datasource.Documents
import MaskGateway.Proofs.Datasource.Steps

/-!
# `MaskGateway.Proofs.Datasource.Changes`: what an operation hands to `_commit`

Every change keeps the ids and the aliases of a catalog apart (`change_ok`), so what `_commit` writes
is read back as what it keeps in memory (`parse_target`). The one thing this needs from outside is that
`create` draws an id that is not in use (`Fresh`).
-/

set_option autoImplicit false

namespace MaskGateway.Proofs.Datasource

open MaskGateway.Datasource MaskGateway.Lib

variable {v : Validators} {crypto : Crypto}

/-- The id that `create` draws is not in use. -/
def Fresh (store : CatalogStore v) : Operation v → Prop
  | .create _ _ _ _ datasourceId _ => ∀ record ∈ store.records, record.1.id ≠ datasourceId.1
  | _ => True

/-- No two records share an id or an alias. -/
structure Distinct (records : List (CatalogRecord v)) : Prop where
  ids : (records.map fun record => record.1.id).Nodup
  aliases : (records.map fun record => record.1.alias_).Nodup

theorem checkRevision_some {store : CatalogStore v} {expected : Int} {u : Unit}
    (h : store.checkRevision (some expected) = .ok u) : expected = store.revision := by
  simpa [CatalogStore.checkRevision] using h

/-- `_get_record` finds a record with the id asked for. -/
theorem getRecord_ok {store : CatalogStore v} {datasourceId : Name} {current : CatalogRecord v}
    (h : store.getRecord datasourceId = .ok current) :
    current ∈ store.records ∧ current.1.id = datasourceId := by
  simp only [CatalogStore.getRecord, bind_eq_ok] at h
  obtain ⟨-, -, h⟩ := h
  cases hfind : store.records.find? fun record => record.1.id == datasourceId with
  | none => simp [hfind] at h
  | some record =>
      simp only [hfind, pure_eq_ok] at h
      subst h
      exact ⟨List.mem_of_find?_eq_some hfind, by simpa using List.find?_some hfind⟩

/-- A draft keeps its alias when its addresses are set. -/
theorem withAddresses_alias {draft draft' : ValidDraft v} {addresses : List Name}
    (h : draft.withAddresses addresses = .ok draft') : draft'.1.alias_ = draft.1.alias_ := by
  rw [ValidDraft.withAddresses] at h
  split at h
  · cases h
    rfl
  · split at h <;> cases h

/-! ### Adding, replacing and removing a record -/

theorem distinct_append {records : List (CatalogRecord v)} {record : CatalogRecord v}
    (h : Distinct records) (hid : ∀ other ∈ records, other.1.id ≠ record.1.id)
    (halias : ∀ other ∈ records, other.1.alias_ ≠ record.1.alias_) :
    Distinct (records ++ [record]) := by
  constructor
  · rw [List.map_append, List.nodup_append]
    refine ⟨h.ids, List.nodup_singleton _, ?_⟩
    rintro _ hmem _ hlast rfl
    obtain ⟨other, hother, hsame⟩ := List.mem_map.mp hmem
    simp only [List.map_cons, List.map_nil, List.mem_singleton] at hlast
    exact hid other hother (hsame.trans hlast)
  · rw [List.map_append, List.nodup_append]
    refine ⟨h.aliases, List.nodup_singleton _, ?_⟩
    rintro _ hmem _ hlast rfl
    obtain ⟨other, hother, hsame⟩ := List.mem_map.mp hmem
    simp only [List.map_cons, List.map_nil, List.mem_singleton] at hlast
    exact halias other hother (hsame.trans hlast)

/-- Replacing a record keeps the ids. -/
theorem map_id_replaceRecord (records : List (CatalogRecord v)) (updated : CatalogRecord v) :
    ((replaceRecord records updated).map fun record => record.1.id) =
      records.map fun record => record.1.id := by
  rw [replaceRecord, List.map_map]
  apply List.map_congr_left
  intro record _
  by_cases h : record.1.id = updated.1.id <;> simp [h]

/-- A replaced record may take any alias that no other record has. -/
theorem distinct_replaceRecord {records : List (CatalogRecord v)} {updated : CatalogRecord v}
    (h : Distinct records)
    (halias : ∀ other ∈ records, other.1.alias_ = updated.1.alias_ →
      other.1.id = updated.1.id) :
    Distinct (replaceRecord records updated) := by
  constructor
  · rw [map_id_replaceRecord]
    exact h.ids
  · have hids := h.ids
    have haliases := h.aliases
    rw [List.Nodup, List.pairwise_map] at hids haliases ⊢
    rw [replaceRecord, List.pairwise_map]
    have hboth := List.Pairwise.and_mem.mp (hids.and haliases)
    refine hboth.imp ?_
    rintro a b ⟨ha, hb, hid, hne⟩
    -- at most one of the two is the replaced one
    by_cases hau : a.1.id = updated.1.id <;> by_cases hbu : b.1.id = updated.1.id
    · exact absurd (hau.trans hbu.symm) hid
    · rw [if_pos hau, if_neg hbu]
      exact fun heq => hbu (halias b hb heq.symm)
    · rw [if_neg hau, if_pos hbu]
      exact fun heq => hau (halias a ha heq)
    · rw [if_neg hau, if_neg hbu]
      exact hne

theorem distinct_filter {records : List (CatalogRecord v)} (h : Distinct records)
    (p : CatalogRecord v → Bool) : Distinct (records.filter p) :=
  ⟨h.ids.sublist (List.filter_sublist.map _), h.aliases.sublist (List.filter_sublist.map _)⟩

/-- Records that correspond have the same names in the same order. -/
theorem map_eq_of_forall₂ {f : CatalogRecord v → Name} {records records' : List (CatalogRecord v)}
    (h : List.Forall₂ (fun a b => f b = f a) records records') :
    records'.map f = records.map f := by
  induction h with
  | nil => rfl
  | cons hhead htail ih => rw [List.map_cons, List.map_cons, hhead, ih]

theorem distinct_of_forall₂ {records records' : List (CatalogRecord v)} (h : Distinct records)
    (hsame : List.Forall₂ (fun a b => b.1.id = a.1.id ∧ b.1.alias_ = a.1.alias_) records
      records') : Distinct records' := by
  constructor
  · rw [map_eq_of_forall₂ (hsame.imp fun _ _ hrecord => hrecord.1)]
    exact h.ids
  · rw [map_eq_of_forall₂ (hsame.imp fun _ _ hrecord => hrecord.2)]
    exact h.aliases

/-! ### The five operations -/

/-- What `_commit` needs of a change. -/
structure ChangeOk (store : CatalogStore v) (change : Change v) : Prop where
  expected : change.expectedRevision = store.revision
  distinct : Distinct change.records

theorem create_ok {store : CatalogStore v} {draft : ValidDraft v} {upstreamSecret : Name}
    {expectedRevision : Option Int} {resolved : Except StoreError (List Name)}
    {datasourceId : { id : Name // validDatasourceId id = true }} {nonce : Nonce}
    {change : Change v}
    (hfresh : ∀ record ∈ store.records, record.1.id ≠ datasourceId.1)
    (hdistinct : Distinct store.records)
    (h : store.create crypto draft upstreamSecret expectedRevision resolved datasourceId nonce =
      .ok change) : ChangeOk store change := by
  simp only [CatalogStore.create, bind_eq_ok, pure_eq_ok, refuseIf_eq_ok] at h
  obtain ⟨-, -, -, halias, addresses, -, envelope, -, draft', hdraft, rfl⟩ := h
  refine ⟨rfl, distinct_append hdistinct hfresh ?_⟩
  intro other hother heq
  exact halias ⟨other, hother, heq.trans (withAddresses_alias hdraft)⟩

theorem update_ok {store : CatalogStore v} {datasourceId : Name} {draft : ValidDraft v}
    {expectedRevision : Int} {resolved : Except StoreError (List Name)} {nonce : Nonce}
    {change : Change v} (hdistinct : Distinct store.records)
    (h : store.update crypto datasourceId draft expectedRevision resolved nonce = .ok change) :
    ChangeOk store change := by
  simp only [CatalogStore.update, bind_eq_ok, pure_eq_ok, refuseIf_eq_ok] at h
  obtain ⟨_, hrevision, current, hcurrent, -, halias, addresses, -, plaintext, -, envelope, -, draft',
    hdraft, rfl⟩ := h
  refine ⟨checkRevision_some hrevision, distinct_replaceRecord hdistinct ?_⟩
  intro other hother heq
  show other.1.id = current.1.id
  rw [(getRecord_ok hcurrent).2]
  by_contra hne
  exact halias ⟨other, hother, heq.trans (withAddresses_alias hdraft), hne⟩

theorem rotateSecret_ok {store : CatalogStore v} {datasourceId upstreamSecret : Name}
    {expectedRevision : Int} {nonce : Nonce} {change : Change v}
    (hdistinct : Distinct store.records)
    (h : store.rotateSecret crypto datasourceId upstreamSecret expectedRevision nonce =
      .ok change) : ChangeOk store change := by
  simp only [CatalogStore.rotateSecret, bind_eq_ok, pure_eq_ok] at h
  obtain ⟨_, hrevision, current, hcurrent, envelope, -, rfl⟩ := h
  refine ⟨checkRevision_some hrevision, distinct_replaceRecord hdistinct ?_⟩
  -- the alias stays, and no other record has it
  intro other hother heq
  have hsame := List.inj_on_of_nodup_map hdistinct.aliases hother (getRecord_ok hcurrent).1 heq
  rw [hsame]
  rfl

/-- A record sealed again keeps its id and its alias. -/
theorem resealRecord_ok {store : CatalogStore v} {newKey : Key} {nonce : Name → Nonce}
    {current record : CatalogRecord v}
    (h : store.resealRecord crypto newKey nonce current = .ok record) :
    record.1.id = current.1.id ∧ record.1.alias_ = current.1.alias_ := by
  simp only [CatalogStore.resealRecord, bind_eq_ok, pure_eq_ok] at h
  obtain ⟨plaintext, -, envelope, -, rfl⟩ := h
  exact ⟨rfl, rfl⟩

theorem rotateMasterKey_ok {store : CatalogStore v} {newMasterKey : KeyArg}
    {nonce : Name → Nonce} {change : Change v} (hdistinct : Distinct store.records)
    (h : store.rotateMasterKey crypto newMasterKey nonce = .ok change) :
    ChangeOk store change := by
  simp only [CatalogStore.rotateMasterKey, bind_eq_ok, pure_eq_ok] at h
  obtain ⟨newKey, -, records, hrecords, rfl⟩ := h
  refine ⟨rfl, distinct_of_forall₂ hdistinct ?_⟩
  exact (mapM_eq_ok.mp hrecords).imp fun _ _ hrecord => resealRecord_ok hrecord

theorem remove_ok {store : CatalogStore v} {datasourceId : Name} {expectedRevision : Int}
    {change : Change v} (hdistinct : Distinct store.records)
    (h : store.remove datasourceId expectedRevision = .ok change) : ChangeOk store change := by
  simp only [CatalogStore.remove, bind_eq_ok, pure_eq_ok] at h
  obtain ⟨_, hrevision, _, -, rfl⟩ := h
  exact ⟨checkRevision_some hrevision, distinct_filter hdistinct _⟩

/-- **Every change is fit to be committed.** -/
theorem change_ok {store : CatalogStore v} {operation : Operation v} {change : Change v}
    (hfresh : Fresh store operation) (hdistinct : Distinct store.records)
    (h : operation.change crypto store = .ok change) : ChangeOk store change := by
  cases operation with
  | create => exact create_ok hfresh hdistinct h
  | update => exact update_ok hdistinct h
  | rotateSecret => exact rotateSecret_ok hdistinct h
  | rotateMasterKey => exact rotateMasterKey_ok hdistinct h
  | remove => exact remove_ok hdistinct h

/-- What is committed is read back as what memory holds after. -/
theorem parse_target {store : CatalogStore v} {change : Change v} (h : ChangeOk store change) :
    parseCatalog v crypto
      (serializeDocument crypto (store.revision + 1) change.records (change.key store))
      (change.key store) = .ok (change.target crypto store) :=
  parseCatalog_serializeDocument _ (Nat.le_add_left 1 _) h.distinct.ids h.distinct.aliases

end MaskGateway.Proofs.Datasource
