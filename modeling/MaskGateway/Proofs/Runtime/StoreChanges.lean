import MaskGateway.Proofs.Runtime.PublishedSet

/-!
# `MaskGateway.Proofs.Runtime.StoreChanges`: what the service needs to know of the store

How a change of the catalog moves the enabled records (`Moves`), and that a change that is refused is
never refused with an uncertain outcome (`plain_change`): the exception that makes the service
withdraw a generation comes from an interrupted transaction only.
-/

set_option autoImplicit false

namespace MaskGateway.Proofs.DatasourceService

open MaskGateway.Lib
open MaskGateway.Datasource MaskGateway.Runtime.Datasources
open MaskGateway.Runtime.Candidate MaskGateway.Runtime.DatasourceService
open MaskGateway.Proofs.Datasource

/-! ### Refusals -/

/-- Not `CatalogOutcomeUncertainError`. -/
def Plain (error : StoreError) : Prop := error.kind ≠ .outcomeUncertain

section

variable {v : Validators} {crypto : Crypto}

theorem plain_canonicalAddresses (net : Addressing) (addresses : List Name) :
    Raises Plain (canonicalAddresses net addresses) := by
  refine raises_bind (raises_mapM (fun raw => ?_) addresses) fun _ =>
    raises_bind (raises_refuseIf nofun) fun _ => raises_ok
  rw [canonicalAddress]
  split
  · exact raises_ok
  · exact raises_error nofun

theorem plain_validateAddress (net : Addressing) (address host : Name)
    (policy : DestinationPolicy) : Raises Plain (validateAddress v net address host policy) := by
  refine raises_bind ?_ fun canonical => raises_bind (raises_refuseIf (fun h => by cases h)) fun _ => ?_
  · rw [canonicalAddress]
    split
    · exact raises_ok
    · exact raises_error (fun h => by cases h)
  · split
    · exact raises_refuseIf (fun h => by cases h)
    · refine raises_bind (raises_refuseIf (fun h => by cases h)) fun _ => ?_
      split
      · exact raises_ok
      · exact raises_bind (raises_refuseIf (fun h => by cases h)) fun _ => raises_refuseIf (fun h => by cases h)

/-- The resolution of a destination is refused for what it is. -/
theorem plain_resolveDestination {net : Addressing} {host : Name} {port : Nat}
    {policy : DestinationPolicy} {resolver : Name → Nat → Except StoreError (List Name)}
    {expected : Option (List Name)} (h : ∀ host port, Raises Plain (resolver host port)) :
    Raises Plain (resolveDestination v net host port policy resolver expected) := by
  refine raises_bind (raises_refuseIf nofun) fun _ => raises_bind (raises_refuseIf nofun) fun _ =>
    raises_bind (h host port) fun answer =>
    raises_bind (plain_canonicalAddresses net answer) fun resolved =>
    raises_bind (raises_forM (fun address => plain_validateAddress net address host policy) _)
      fun _ => raises_bind ?_ fun _ => raises_ok
  unfold checkPinned
  split
  · exact raises_ok
  · split
    · exact raises_error nofun
    · exact raises_refuseIf nofun

/-- So is a resolver. -/
theorem plain_resolver (env : Surroundings) (host : Name) (port : Nat) :
    Raises Plain (env.resolver host port) := by
  intro error herror
  rw [Surroundings.resolver] at herror
  cases hanswer : env.answers host port with
  | ok addresses =>
      rw [hanswer] at herror
      cases herror
  | error raised =>
      rw [hanswer] at herror
      rw [← Except.error.inj herror]
      cases raised <;> exact nofun

theorem plain_getRecord (store : CatalogStore v) (datasourceId : Name) :
    Raises Plain (store.getRecord datasourceId) := by
  refine raises_bind (raises_refuseIf nofun) fun _ => ?_
  split
  · exact raises_ok
  · exact raises_error nofun

theorem plain_readUpstreamSecret (store : CatalogStore v) (record : CatalogRecord v) :
    Raises Plain (store.readUpstreamSecret crypto record) := by
  rw [CatalogStore.readUpstreamSecret]
  split
  · exact raises_ok
  · exact raises_error (fun h => by cases h)

theorem plain_sealSecret {nonce : Nonce} {plaintext id : Name} {key : Key} {revision : Nat} :
    Raises Plain (sealSecret crypto nonce plaintext key id revision) := by
  rw [sealSecret]
  split
  · exact raises_error (fun h => by cases h)
  · exact raises_ok

theorem plain_withAddresses (draft : ValidDraft v) (addresses : List Name) :
    Raises Plain (draft.withAddresses addresses) := by
  rw [ValidDraft.withAddresses]
  split
  · exact raises_ok
  · split
    · exact raises_error (fun h => by cases h)
    · exact raises_error (fun h => by cases h)

/-- What an operation is told of the resolution. -/
def resolution : Operation v → Except StoreError (List Name)
  | .create _ _ _ resolved _ _ => resolved
  | .update _ _ _ resolved _ => resolved
  | _ => .ok []

/-- **An operation that is refused is not refused as uncertain.** -/
theorem plain_change {store : CatalogStore v} {operation : Operation v}
    (h : Raises Plain (resolution operation)) : Raises Plain (operation.change crypto store) := by
  have hrevision : ∀ expected, Raises Plain (store.checkRevision expected) :=
    fun _ => raises_refuseIf nofun
  cases operation with
  | create draft upstreamSecret expectedRevision resolved datasourceId nonce =>
      refine raises_bind (hrevision _) fun _ => raises_bind (raises_refuseIf nofun) fun _ =>
        raises_bind h fun _ => raises_bind plain_sealSecret fun _ =>
        raises_bind (plain_withAddresses draft _) fun _ => raises_ok
  | update datasourceId draft expectedRevision resolved nonce =>
      refine raises_bind (hrevision _) fun _ => raises_bind (plain_getRecord store _) fun current =>
        raises_bind (raises_refuseIf nofun) fun _ => raises_bind h fun _ =>
        raises_bind (plain_readUpstreamSecret store current) fun _ =>
        raises_bind plain_sealSecret fun _ =>
        raises_bind (plain_withAddresses draft _) fun _ => raises_ok
  | rotateSecret datasourceId upstreamSecret expectedRevision nonce =>
      exact raises_bind (hrevision _) fun _ => raises_bind (plain_getRecord store _) fun _ =>
        raises_bind plain_sealSecret fun _ => raises_ok
  | rotateMasterKey newMasterKey nonce =>
      refine raises_bind ?_ fun newKey => raises_bind (raises_mapM (fun current => ?_) _)
        fun _ => raises_ok
      · intro error herror
        cases hkey : validateMasterKey newMasterKey with
        | ok key =>
            rw [hkey] at herror
            cases herror
        | error raised =>
            rw [hkey] at herror
            rw [← Except.error.inj herror]
            exact nofun
      · exact raises_bind (plain_readUpstreamSecret store current) fun _ =>
          raises_bind plain_sealSecret fun _ => raises_ok
  | remove datasourceId expectedRevision =>
      exact raises_bind (hrevision _) fun _ => raises_bind (plain_getRecord store _)
        fun _ => raises_ok

/-! ### Changes -/

/-- A change that leaves the triples of the other ids, and the one of a record. -/
structure Moves (store : CatalogStore v) (change : Change v) (record : CatalogRecord v) :
    Prop where
  answer : ∀ after, change.answer after = .record record
  enabled : enabledSet change.records =
    without (enabledSet store.records) record.1.id ∪ shown record

/-- `create` adds a record. -/
theorem moves_create {store : CatalogStore v} {draft : ValidDraft v} {upstreamSecret : Name}
    {expectedRevision : Option Int} {resolved : Except StoreError (List Name)}
    {datasourceId : { id : Name // validDatasourceId id = true }} {nonce : Nonce}
    {change : Change v} (hfresh : ∀ record ∈ store.records, record.1.id ≠ datasourceId.1)
    (h : store.create crypto draft upstreamSecret expectedRevision resolved datasourceId nonce =
      .ok change) :
    ∃ record, Moves store change record ∧ record.1.id = datasourceId.1 ∧
      record.1.enabled = draft.1.enabled := by
  simp only [CatalogStore.create, bind_eq_ok, pure_eq_ok] at h
  obtain ⟨-, -, -, -, addresses, -, envelope, -, draft', hdraft, rfl⟩ := h
  refine ⟨makeRecord draft' datasourceId 0 envelope, ⟨fun _ => rfl, enabledSet_append hfresh⟩, rfl,
    ?_⟩
  rw [ValidDraft.withAddresses] at hdraft
  split at hdraft
  · rw [← Except.ok.inj hdraft]
    rfl
  · split at hdraft <;> cases hdraft

/-- `update` replaces a record. -/
theorem moves_update {store : CatalogStore v} {datasourceId : Name} {draft : ValidDraft v}
    {expectedRevision : Int} {resolved : Except StoreError (List Name)} {nonce : Nonce}
    {change : Change v}
    (h : store.update crypto datasourceId draft expectedRevision resolved nonce = .ok change) :
    ∃ record, Moves store change record ∧ record.1.id = datasourceId ∧
      record.1.enabled = draft.1.enabled := by
  simp only [CatalogStore.update, bind_eq_ok, pure_eq_ok] at h
  obtain ⟨-, -, current, hcurrent, -, -, addresses, -, plaintext, -, envelope, -, draft', hdraft,
    rfl⟩ := h
  obtain ⟨hmem, hid⟩ := getRecord_ok hcurrent
  refine ⟨makeRecord draft' (idOf current) current.1.revision envelope,
    ⟨fun _ => rfl, enabledSet_replaceRecord hmem rfl⟩, hid, ?_⟩
  rw [ValidDraft.withAddresses] at hdraft
  split at hdraft
  · rw [← Except.ok.inj hdraft]
    rfl
  · split at hdraft <;> cases hdraft

/-- `rotate_secret` replaces a record by one with the same data. -/
theorem moves_rotateSecret {store : CatalogStore v} {datasourceId upstreamSecret : Name}
    {expectedRevision : Int} {nonce : Nonce} {change : Change v}
    (h : store.rotateSecret crypto datasourceId upstreamSecret expectedRevision nonce =
      .ok change) :
    ∃ current record, store.getRecord datasourceId = .ok current ∧ Moves store change record ∧
      record.1.id = datasourceId ∧ record.1.enabled = current.1.enabled := by
  simp only [CatalogStore.rotateSecret, bind_eq_ok, pure_eq_ok] at h
  obtain ⟨-, -, current, hcurrent, envelope, -, rfl⟩ := h
  obtain ⟨hmem, hid⟩ := getRecord_ok hcurrent
  exact ⟨current, makeRecord (draftOf current) (idOf current) current.1.revision envelope, hcurrent,
    ⟨fun _ => rfl, enabledSet_replaceRecord hmem rfl⟩, hid, rfl⟩

/-- `remove` takes the records of an id away. -/
theorem enabledSet_remove {store : CatalogStore v} {datasourceId : Name} {expectedRevision : Int}
    {change : Change v} (h : store.remove datasourceId expectedRevision = .ok change) :
    enabledSet change.records = without (enabledSet store.records) datasourceId := by
  simp only [CatalogStore.remove, bind_eq_ok, pure_eq_ok] at h
  obtain ⟨-, -, _, -, rfl⟩ := h
  exact enabledSet_filter store.records datasourceId

/-- A record that is enabled shows one triple. -/
theorem shown_of_enabled {record : CatalogRecord v} (h : record.1.enabled = true) :
    shown record = {(record.1.id, record.1.alias_, record.1.revision)} := by
  ext t
  simp [shown, h]

/-- One that is disabled shows none. -/
theorem shown_of_disabled {record : CatalogRecord v} (h : record.1.enabled = false) :
    shown record = ∅ := by
  ext t
  simp [shown, h]

/-- An id that shows nothing can be left out. -/
theorem without_of_not_shown {set : Set Shown} {id : Name} (h : ∀ t ∈ set, t.1 ≠ id) :
    without set id = set := by
  ext t
  exact ⟨fun ht => ht.1, fun ht => ⟨ht, h t ht⟩⟩

end

end MaskGateway.Proofs.DatasourceService
