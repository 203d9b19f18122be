import MaskGateway.Proofs.Runtime.DatasourceWrites

/-!
# `MaskGateway.Proofs.Runtime.DatasourceCalls`: how each call of the service ends

`leads_locked` puts the parts of `DatasourceWrites` together, one call at a time. `Serves` says which
operation of the store a call comes to, and `hides` which datasource it must leave unpublished.
-/

set_option autoImplicit false

namespace MaskGateway.Proofs.DatasourceService

open MaskGateway.Lib
open MaskGateway.Datasource MaskGateway.Runtime.Datasources
open MaskGateway.Runtime.Candidate MaskGateway.Runtime.DatasourceService
open MaskGateway.Proofs.Datasource MaskGateway.Proofs.Datasources

section

variable {v : Validators} {crypto : Crypto} {limits : RegistryLimits} {env : Surroundings}
  {s : Service v}

/-- The operation of the store that a call comes to. -/
inductive Serves (env : Surroundings) : Request v → Operation v → Prop
  | create {draft : ValidDraft v} {secret : Name} {expectedRevision : Int} (draft' : ValidDraft v)
      (resolved : Except StoreError (List Name)) (nonce : Nonce) :
      Serves env (.create draft secret expectedRevision)
        (.create draft' secret (some expectedRevision) resolved env.datasourceId nonce)
  | update {datasourceId : Name} {draft : DraftSource v} {expected : Expected}
      (draft' : ValidDraft v) (expectedRevision : Int) (resolved : Except StoreError (List Name))
      (nonce : Nonce) :
      Serves env (.update datasourceId draft expected)
        (.update datasourceId draft' expectedRevision resolved nonce)
  | setEnabled {datasourceId : Name} {enabled : Bool} {expected : Expected}
      (draft' : ValidDraft v) (expectedRevision : Int) (resolved : Except StoreError (List Name))
      (nonce : Nonce) :
      Serves env (.setEnabled datasourceId enabled expected)
        (.update datasourceId draft' expectedRevision resolved nonce)
  | rotateSecret {datasourceId secret : Name} {expected : Expected} (expectedRevision : Int)
      (nonce : Nonce) :
      Serves env (.rotateSecret datasourceId secret expected)
        (.rotateSecret datasourceId secret expectedRevision nonce)
  | remove {datasourceId : Name} {expected : Expected} {confirm : CatalogRecord v → Bool}
      (expectedRevision : Int) :
      Serves env (.remove datasourceId expected confirm) (.remove datasourceId expectedRevision)

/-- The datasource that a call disables or removes. -/
def hides (s : Service v) : Request v → Name → Prop
  | .remove datasourceId _ _, id => id = datasourceId
  | .setEnabled datasourceId enabled _, id => id = datasourceId ∧ enabled = false
  | .update datasourceId draft _, id =>
      id = datasourceId ∧ ∃ resolved, draft.resolve datasourceId s = .ok resolved ∧
        resolved.1.enabled = false
  | _, _ => False

/-! ### The record that a call is about -/

/-- The record that `_get` finds. -/
theorem get_ok {datasourceId : Name} {current : CatalogRecord v}
    (h : get datasourceId s = .ok current) :
    (s.store.records.find? fun record => record.1.id == datasourceId) = some current := by
  simp only [Runtime.DatasourceService.get, snapshot, bind_eq_ok, pure_eq_ok] at h
  obtain ⟨records, ⟨-, -, rfl⟩, h⟩ := h
  cases hfind : s.store.records.find? fun record => record.1.id == datasourceId with
  | none => simp [hfind] at h
  | some found =>
      simp only [hfind, pure_eq_ok] at h
      rw [h]

/-- It is the one that the store finds. -/
theorem getRecord_get {datasourceId : Name} {current current' : CatalogRecord v}
    (h : get datasourceId s = .ok current) (h' : s.store.getRecord datasourceId = .ok current') :
    current' = current := by
  simp only [CatalogStore.getRecord, bind_eq_ok, get_ok h, pure_eq_ok] at h'
  obtain ⟨-, -, rfl⟩ := h'
  rfl

/-- A disabled datasource is not shown. -/
theorem not_shown_of_disabled {datasourceId : Name} {current : CatalogRecord v}
    (hdistinct : Distinct s.store.records) (h : get datasourceId s = .ok current)
    (hdisabled : current.1.enabled = false) :
    ∀ t ∈ enabledSet s.store.records, t.1 ≠ datasourceId := by
  rintro t ⟨record, hrecord, henabled, rfl⟩ hid
  have hfound := get_ok h
  have hcurrent : current.1.id = datasourceId := by simpa using List.find?_some hfound
  -- ids are distinct, so the record that is shown is the one that `_get` found
  have hsame : record = current :=
    List.inj_on_of_nodup_map hdistinct.ids hrecord (List.mem_of_find?_eq_some hfound)
      (hid.trans hcurrent.symm)
  rw [hsame, hdisabled] at henabled
  cases henabled

/-- Pinning addresses changes nothing else. -/
theorem pin_enabled {draft pinned : ValidDraft v} {addresses : List Name}
    (h : pin draft addresses s = .ok pinned) : pinned.1.enabled = draft.1.enabled := by
  rw [pin, fromStore] at h
  cases hdraft : draft.withAddresses addresses with
  | error error =>
      rw [hdraft] at h
      cases h
  | ok draft' =>
      rw [hdraft] at h
      obtain rfl := Except.ok.inj h
      rw [ValidDraft.withAddresses] at hdraft
      split at hdraft
      · rw [← Except.ok.inj hdraft]
      · split at hdraft <;> cases hdraft

theorem plain_resolvedFor (draft : ValidDraft v) :
    Raises Plain (resolvedFor env env.resolver draft) :=
  plain_resolveDestination (plain_resolver env)

/-! ### The calls -/

theorem leads_create {draft : ValidDraft v} {secret : Name} {expectedRevision : Int}
    {allowed : Operation v → Prop} {hidden : Name → Prop} (hs : Live crypto limits s)
    (hstage : s.stage = .none)
    (hallowed : ∀ draft resolved nonce,
      allowed (.create draft secret (some expectedRevision) resolved env.datasourceId nonce))
    (hhidden : ∀ id, ¬ hidden id)
    (hfresh : ∀ record ∈ s.store.records, record.1.id ≠ env.datasourceId.1) :
    Leads (Service.create crypto env draft secret expectedRevision) s
      (Returned crypto limits allowed hidden s) (Failed crypto limits allowed hidden s) := by
  refine leads_check hs hstage (certain_ensureOpen false s) fun _ _ =>
    leads_check hs hstage (certain_checkRevision expectedRevision s) fun _ _ =>
    leads_check hs hstage (certain_aliasFree draft.1.alias_ s) fun _ _ => ?_
  cases henabled : draft.1.enabled with
  | true =>
      rw [if_pos rfl]
      refine leads_reserving hs hstage fun id reg hreserve =>
        leads_check_reserved hs hstage hreserve (fun _ => certain_mapError) fun candidate _ =>
        leads_check_reserved hs hstage hreserve (fun s' => certain_pin draft _ s')
          fun pinned hpinned =>
        leads_persist_publish hs hreserve hfresh (hallowed _ _ _) (plain_resolvedFor pinned)
          hhidden fun change hchange => ?_
      obtain ⟨record, hmoves, -, hrecord⟩ := moves_create hfresh hchange
      exact ⟨record, hmoves, (hrecord.trans (pin_enabled hpinned)).trans henabled⟩
  | false =>
      rw [if_neg Bool.false_ne_true]
      refine leads_check hs hstage certain_mapError fun _ _ =>
        leads_persist_only hs hfresh (hallowed _ _ _) (plain_resolvedFor draft) hhidden
          fun change hchange => ?_
      obtain ⟨record, hmoves, hid, hrecord⟩ := moves_create hfresh hchange
      rw [hmoves.enabled, shown_of_disabled (hrecord.trans henabled), Set.union_empty, hid]
      refine without_of_not_shown ?_
      rintro t ⟨other, hother, -, rfl⟩
      exact hfresh other hother

theorem leads_updateLocked {datasourceId : Name} {draft : ValidDraft v} {expectedRevision : Int}
    {allowed : Operation v → Prop} {hidden : Name → Prop} (hs : Live crypto limits s)
    (hstage : s.stage = .none)
    (hallowed : ∀ draft resolved nonce,
      allowed (.update datasourceId draft expectedRevision resolved nonce))
    (hhidden : ∀ id, hidden id → id = datasourceId ∧ draft.1.enabled = false) :
    Leads (Service.updateLocked crypto env datasourceId draft expectedRevision) s
      (Returned crypto limits allowed hidden s) (Failed crypto limits allowed hidden s) := by
  refine leads_check hs hstage (certain_get datasourceId s) fun current hcurrent =>
    leads_check hs hstage (raises_refuseIf (certain_raised rfl)) fun _ _ => ?_
  cases henabled : draft.1.enabled with
  | true =>
      rw [if_pos rfl]
      have hnone : ∀ id, ¬ hidden id := by
        intro id hid
        have := (hhidden id hid).2
        rw [henabled] at this
        cases this
      refine leads_check hs hstage (certain_readSecret datasourceId s) fun secret _ =>
        leads_reserving hs hstage fun id reg hreserve =>
        leads_check_reserved hs hstage hreserve (fun _ => certain_mapError) fun candidate _ =>
        leads_check_reserved hs hstage hreserve (fun s' => certain_pin draft _ s')
          fun pinned hpinned =>
        leads_persist_publish hs hreserve trivial (hallowed _ _ _) (plain_resolvedFor pinned)
          hnone fun change hchange => ?_
      obtain ⟨record, hmoves, -, hrecord⟩ := moves_update hchange
      exact ⟨record, hmoves, (hrecord.trans (pin_enabled hpinned)).trans henabled⟩
  | false =>
      rw [if_neg Bool.false_ne_true]
      refine leads_check hs hstage ?_ fun _ _ =>
        leads_persistWithdrawal hs trivial (hallowed _ _ _) ?_ (fun id hid => (hhidden id hid).1)
          fun change hchange => ?_
      · split
        · exact raises_ok
        · exact certain_mapError
      · -- the stored addresses raise nothing; the resolver raises as it does
        refine plain_resolveDestination fun host port => ?_
        split
        · exact raises_ok
        · exact plain_resolver env host port
      · obtain ⟨record, hmoves, hid, hrecord⟩ := moves_update hchange
        rw [hmoves.enabled, shown_of_disabled (hrecord.trans henabled), Set.union_empty, hid]

theorem leads_rotateSecret {datasourceId secret : Name} {expected : Expected}
    {allowed : Operation v → Prop} {hidden : Name → Prop} (hs : Live crypto limits s)
    (hstage : s.stage = .none)
    (hallowed : ∀ expectedRevision nonce,
      allowed (.rotateSecret datasourceId secret expectedRevision nonce))
    (hhidden : ∀ id, ¬ hidden id) :
    Leads (Service.rotateSecret crypto env datasourceId secret expected) s
      (Returned crypto limits allowed hidden s) (Failed crypto limits allowed hidden s) := by
  refine leads_check hs hstage (certain_ensureOpen false s) fun _ _ =>
    leads_check hs hstage (certain_guard datasourceId expected s) fun catalogRevision _ =>
    leads_check hs hstage (certain_get datasourceId s) fun current hcurrent => ?_
  cases henabled : current.1.enabled with
  | true =>
      rw [if_pos rfl]
      refine leads_reserving hs hstage fun id reg hreserve =>
        leads_check_reserved hs hstage hreserve (fun _ => certain_mapError) fun candidate _ =>
        leads_persist_publish hs hreserve trivial (hallowed _ _) raises_ok hhidden
          fun change hchange => ?_
      obtain ⟨current', record, hcurrent', hmoves, -, hrecord⟩ := moves_rotateSecret hchange
      rw [getRecord_get hcurrent hcurrent', henabled] at hrecord
      exact ⟨record, hmoves, hrecord⟩
  | false =>
      rw [if_neg Bool.false_ne_true]
      refine leads_persist_only hs trivial (hallowed _ _) raises_ok hhidden fun change hchange => ?_
      obtain ⟨current', record, hcurrent', hmoves, hid, hrecord⟩ := moves_rotateSecret hchange
      rw [getRecord_get hcurrent hcurrent', henabled] at hrecord
      rw [hmoves.enabled, shown_of_disabled hrecord, Set.union_empty, hid]
      exact without_of_not_shown
        (not_shown_of_disabled (hs.agrees hs.usable).distinct hcurrent henabled)

/-- **How a write ends**, inside its transition. -/
theorem leads_locked {request : Request v} {body : Call v (Answer v)} (hs : Live crypto limits s)
    (hstage : s.stage = .none)
    (hfresh : ∀ id ∈ request.draws env, ∀ record ∈ s.store.records, record.1.id ≠ id)
    (hbody : request.locked crypto env = some body) :
    Leads body s (Returned crypto limits (Serves env request) (hides s request) s)
      (Failed crypto limits (Serves env request) (hides s request) s) := by
  cases request with
  | create draft secret expectedRevision =>
      obtain rfl := Option.some.inj hbody
      exact leads_create hs hstage (fun draft' resolved nonce => .create draft' resolved nonce)
        (fun _ => id) (hfresh _ rfl)
  | update datasourceId draft expected =>
      obtain rfl := Option.some.inj hbody
      refine leads_check hs hstage (certain_ensureOpen false s) fun _ _ =>
        leads_check hs hstage (certain_guard datasourceId expected s) fun catalogRevision _ =>
        leads_check hs hstage (certain_resolve datasourceId s draft) fun resolved hresolved =>
        leads_updateLocked hs hstage (fun draft' answer nonce => .update draft' _ answer nonce) ?_
      rintro id ⟨rfl, disabled, hdisabled, hfalse⟩
      rw [← Except.ok.inj (hresolved.symm.trans hdisabled)] at hfalse
      exact ⟨rfl, hfalse⟩
  | setEnabled datasourceId enabled expected =>
      obtain rfl := Option.some.inj hbody
      refine leads_check hs hstage (certain_ensureOpen false s) fun _ _ =>
        leads_check hs hstage (certain_guard datasourceId expected s) fun catalogRevision _ =>
        leads_check hs hstage (certain_get datasourceId s) fun current hcurrent => ?_
      by_cases hsame : current.1.enabled = enabled
      · -- the state asked for is the one there is
        rw [if_pos hsame]
        exact leads_pure (Or.inl rfl)
      · rw [if_neg hsame]
        exact leads_updateLocked hs hstage
          (fun draft' answer nonce => .setEnabled draft' _ answer nonce) fun _ hid => hid
  | rotateSecret datasourceId secret expected =>
      obtain rfl := Option.some.inj hbody
      exact leads_rotateSecret hs hstage (fun expectedRevision nonce => .rotateSecret _ nonce)
        fun _ => id
  | remove datasourceId expected confirm =>
      obtain rfl := Option.some.inj hbody
      exact leads_check hs hstage (certain_ensureOpen false s) fun _ _ =>
        leads_check hs hstage (certain_guard datasourceId expected s) fun catalogRevision _ =>
        leads_check hs hstage (certain_get datasourceId s) fun current _ =>
        leads_check hs hstage (raises_refuseIf (certain_raised rfl)) fun _ _ =>
        leads_persistWithdrawal hs trivial (.remove _) raises_ok (fun _ hid => hid)
          fun change hchange => enabledSet_remove hchange
  | testDraft draft secret => cases hbody
  | testDatasource datasourceId => cases hbody

end

end MaskGateway.Proofs.DatasourceService
