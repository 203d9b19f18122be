import MaskGateway.Proofs.Runtime.StoreChanges

/-!
# `MaskGateway.Proofs.Runtime.DatasourceWrites`: how a write ends, inside its transition

A write that starts with the registry and the catalog in step (`Live`) returns with nothing changed
or with both in step again (`Returned`), or raises with nothing changed, or after an effect that the
transition answers by blocking the service (`Failed`). Each call is a chain of checks that only look,
and then one of three ends: persist alone, persist and publish, persist and withdraw.
-/

set_option autoImplicit false

namespace MaskGateway.Proofs.DatasourceService

open MaskGateway.Lib
open MaskGateway.Datasource MaskGateway.Runtime.Datasources
open MaskGateway.Runtime.Candidate MaskGateway.Runtime.DatasourceService
open MaskGateway.Proofs.Datasource MaskGateway.Proofs.Datasources

section

variable {v : Validators}

/-! ### States -/

/-- The catalog is what is on disk, unless the store is unusable, and the registry is in order. -/
structure Sane (crypto : Crypto) (limits : RegistryLimits) (s : Service v) : Prop where
  open_ : s.store.closed = false
  agrees : s.store.poisoned = false → Agrees crypto s.disk s.store
  accounted : Accounted limits s.registry

/-- A service that can write: the registry publishes what the catalog enables. -/
structure Live (crypto : Crypto) (limits : RegistryLimits) (s : Service v) : Prop
    extends Sane crypto limits s where
  usable : s.store.poisoned = false
  unblocked : s.blocked = false
  sealed : s.withdrawn = false
  shows : publishedSet s.registry = enabledSet s.store.records

/-- Nothing changed but the stage and the record of the places that were reserved. -/
def Unchanged (s s' : Service v) : Prop :=
  ∃ reservations stage,
    s' = { s with registry := { s.registry with reservations := reservations }, stage := stage }

/-- The catalog moved by one of these operations. -/
def Moved (crypto : Crypto) (allowed : Operation v → Prop) (store store' : CatalogStore v) : Prop :=
  ∃ operation change, allowed operation ∧ Fresh store operation ∧
    operation.change crypto store = .ok change ∧ store' = committed crypto change store

/-- None of these ids is published. -/
def Gone (hidden : Name → Prop) (reg : DatasourceRegistry) : Prop :=
  ∀ t ∈ publishedSet reg, ¬ hidden t.1

variable (crypto : Crypto) (limits : RegistryLimits) (allowed : Operation v → Prop)
  (hidden : Name → Prop)

/-- A write that took effect. -/
structure Written (s s' : Service v) : Prop where
  live : Live crypto limits s'
  stage : s'.stage = .persisted
  closed : s'.closed = s.closed
  moved : Moved crypto allowed s.store s'.store
  gone : Gone hidden s'.registry

/-- A write that failed with a possible effect: the transition will block the service. -/
structure Doomed (s : Service v) (error : ServiceError) (s' : Service v) : Prop where
  sane : Sane crypto limits s'
  stage : s'.stage = .persisted ∨ (s'.stage = .persisting ∧ s'.store.poisoned = true)
  closed : s'.closed = s.closed
  moved : s'.store = { s.store with poisoned := true } ∨ Moved crypto allowed s.store s'.store
  gone : error.uncertain = true → Gone hidden s'.registry

/-- How a write returns. -/
def Returned (s : Service v) (_ : Answer v) (s' : Service v) : Prop :=
  s' = s ∨ Written crypto limits allowed hidden s s'

/-- How a write raises. -/
def Failed (s : Service v) : Failure → Service v → Prop
  | .stopped, _ => True
  | .raised error, s' =>
      (Unchanged s s' ∧ Accounted limits s'.registry ∧ s'.stage ≠ .persisted ∧
        error.uncertain = false) ∨
      Doomed crypto limits allowed hidden s error s'

variable {crypto limits allowed hidden}

theorem Unchanged.refl (s : Service v) : Unchanged s s := ⟨s.registry.reservations, s.stage, rfl⟩

/-- A check that raises changes nothing. -/
theorem failed_of_check {s : Service v} {error : ServiceError} (hs : Live crypto limits s)
    (hstage : s.stage = .none) (herror : error.uncertain = false) :
    Failed crypto limits allowed hidden s (.raised error) s := by
  refine Or.inl ⟨Unchanged.refl s, hs.accounted, ?_, herror⟩
  rw [hstage]
  exact nofun

/-! ### Errors of the checks -/

/-- A failure that is raised and not uncertain. -/
def Certain (failure : Failure) : Prop := ∃ error, failure = .raised error ∧ error.uncertain = false

theorem certain_raised {error : ServiceError} (h : error.uncertain = false) :
    Certain (.raised error) := ⟨error, rfl, h⟩

theorem certain_fromStore {α : Type} {x : Except StoreError α} (h : Raises Plain x) :
    Raises Certain (fromStore x) := by
  intro failure hfailure
  cases x with
  | ok a => cases hfailure
  | error error =>
      rw [← Except.error.inj hfailure]
      refine certain_raised ?_
      show (error.kind == .outcomeUncertain) = false
      exact beq_eq_false_iff_ne.mpr (h error rfl)

theorem plain_ensureOpen (store : CatalogStore v) : Raises Plain store.ensureOpen :=
  raises_bind (raises_refuseIf nofun) fun _ => raises_refuseIf nofun

theorem certain_ensureOpen (allowBlocked : Bool) (s : Service v) :
    Raises Certain (ensureOpen allowBlocked s) :=
  raises_bind (raises_refuseIf (certain_raised rfl)) fun _ => raises_refuseIf (certain_raised rfl)

theorem certain_snapshot (s : Service v) : Raises Certain (snapshot s) :=
  raises_bind (certain_fromStore (plain_ensureOpen s.store)) fun _ => raises_ok

theorem certain_checkRevision (expectedRevision : Int) (s : Service v) :
    Raises Certain (checkRevision expectedRevision s) :=
  raises_bind (raises_bind (certain_fromStore (plain_ensureOpen s.store)) fun _ => raises_ok)
    fun _ => raises_refuseIf (certain_raised rfl)

theorem certain_get (datasourceId : Name) (s : Service v) : Raises Certain (get datasourceId s) := by
  refine raises_bind (certain_snapshot s) fun records => ?_
  split
  · exact raises_ok
  · exact raises_error (certain_raised rfl)

theorem certain_guard (datasourceId : Name) (expected : Expected) (s : Service v) :
    Raises Certain (guard datasourceId expected s) := by
  rw [Runtime.DatasourceService.guard]
  split
  · exact raises_bind (certain_checkRevision _ s) fun _ => raises_ok
  · exact raises_bind (certain_get datasourceId s) fun _ =>
      raises_bind (raises_refuseIf (certain_raised rfl)) fun _ =>
      raises_bind (raises_bind (certain_fromStore (plain_ensureOpen s.store)) fun _ => raises_ok)
        fun _ => raises_ok
  · exact raises_error (certain_raised rfl)

theorem certain_aliasFree (alias_ : Name) (s : Service v) : Raises Certain (aliasFree alias_ s) :=
  raises_bind (certain_snapshot s) fun _ => raises_refuseIf (certain_raised rfl)

theorem certain_readSecret (datasourceId : Name) (s : Service v) :
    Raises Certain (readSecret crypto datasourceId s) :=
  certain_fromStore (raises_bind (plain_ensureOpen s.store) fun _ =>
    raises_bind (plain_getRecord s.store datasourceId) fun record =>
      plain_readUpstreamSecret s.store record)

theorem certain_mapError {α : Type} {x : Except CandidateError α} :
    Raises Certain (x.mapError fun error => Failure.raised (.candidate error)) := by
  intro failure hfailure
  cases x with
  | ok a => cases hfailure
  | error error =>
      rw [← Except.error.inj hfailure]
      exact certain_raised rfl

theorem certain_pin (draft : ValidDraft v) (addresses : List Name) (s : Service v) :
    Raises Certain (pin draft addresses s) :=
  certain_fromStore (plain_withAddresses draft addresses)

theorem certain_resolve (datasourceId : Name) (s : Service v) (draft : DraftSource v) :
    Raises Certain (draft.resolve datasourceId s) := by
  cases draft with
  | draft given => exact raises_ok
  | derive f =>
      refine raises_bind (certain_get datasourceId s) fun current => ?_
      split
      · exact raises_ok
      · exact raises_error (certain_raised rfl)

/-- A check, and then the rest of a write. -/
theorem leads_check {α β : Type} {f : Service v → Except Failure α} {k : α → Call v β} {s : Service v}
    {Q : β → Service v → Prop} (hs : Live crypto limits s) (hstage : s.stage = .none)
    (hcertain : Raises Certain (f s))
    (hrest : ∀ a, f s = .ok a → Leads (k a) s Q (Failed crypto limits allowed hidden s)) :
    Leads (reading f >>= k) s Q (Failed crypto limits allowed hidden s) := by
  refine leads_bind (P := fun a s' => f s = .ok a ∧ s' = s) ?_ ?_
  · refine leads_reading (fun a ha => ⟨ha, rfl⟩) fun failure hfailure => ?_
    obtain ⟨error, rfl, herror⟩ := hcertain failure hfailure
    exact failed_of_check hs hstage herror
  · rintro a s' ⟨ha, rfl⟩
    exact hrest a ha

/-! ### Persisting -/

/-- How `_persist` raises: the store refused, or its transaction was interrupted, or the process
died in it. -/
inductive PersistFailed (crypto : Crypto) (operation : Operation v) (s : Service v) :
    Failure → Service v → Prop
  | refused (error : StoreError) (h : operation.change crypto s.store = .error error) :
      PersistFailed crypto operation s (.raised (.store error)) { s with stage := .persisting }
  | interrupted (error : StoreError) (disk : Disk) :
      PersistFailed crypto operation s (.raised (.store error))
        (Service.block { s with
          disk, store := { s.store with poisoned := true }, stage := .persisting })
  | stopped (s' : Service v) : PersistFailed crypto operation s .stopped s'

/-- How `_persist` ends. -/
theorem leads_persist {env : Surroundings} {s : Service v} {operation : Operation v}
    (hs : Sane crypto limits s) (husable : s.store.poisoned = false)
    (hfresh : Fresh s.store operation) :
    Leads (persist crypto env operation) s
      (fun answer s' => ∃ change disk, operation.change crypto s.store = .ok change ∧
        answer = change.answer (committed crypto change s.store) ∧
        Agrees crypto disk (committed crypto change s.store) ∧
        s' = { s with disk, store := committed crypto change s.store, stage := .persisted })
      (PersistFailed crypto operation s) := by
  have hopen : s.store.ensureOpen = .ok () := ensureOpen_ok hs.open_ husable
  have hok : ∀ change, operation.change crypto s.store = .ok change → ChangeOk s.store change :=
    fun change => change_ok hfresh (hs.agrees husable).distinct
  rw [Leads, persist]
  cases hchange : operation.change crypto s.store with
  | error error =>
      have hrun : operation.run crypto s.disk s.store env.faults =
          (s.disk, s.store, .raised error) := by
        rw [Operation.run, hopen, hchange]
      simp only [hrun, husable, Bool.false_eq_true, if_false]
      exact .refused error hchange
  | ok change =>
      have hresult := run_result s.disk env.faults hok
      generalize operation.run crypto s.disk s.store env.faults = result at hresult
      cases hresult with
      | refused error hrefused => exact absurd ⟨hopen, change, hchange⟩ hrefused
      | returned change' oldData _ hchange' hstore =>
          obtain rfl := Except.ok.inj (hchange.symm.trans hchange')
          exact ⟨change, _, rfl, rfl, agrees_committed oldData env.faults s.disk
            (hok change hchange), rfl⟩
      | raised _ _ disk error => exact .interrupted error disk
      | stopped _ _ disk => exact .stopped _

/-- The registry of a write that persisted in vain. -/
theorem PersistFailed.registry {operation : Operation v} {s s' : Service v} {error : ServiceError}
    (h : PersistFailed crypto operation s (.raised error) s') : s'.registry = s.registry := by
  cases h <;> rfl

/-- A write that persisted in vain, with its place given back. -/
theorem failed_of_persist {operation : Operation v} {s s' : Service v} {failure : Failure}
    {reg : DatasourceRegistry} {reservations : List Reservation} (hs : Live crypto limits s)
    (hplain : Raises Plain (resolution operation))
    (haccounted : Accounted limits { s.registry with reservations := reservations })
    (hgone : ∀ error, failure = .raised error → error.uncertain = true →
      Gone hidden { s.registry with reservations := reservations })
    (h : PersistFailed crypto operation { s with registry := reg } failure s') :
    Failed crypto limits allowed hidden s failure
      { s' with registry := { s.registry with reservations := reservations } } := by
  cases h with
  | refused error h =>
      refine Or.inl ⟨⟨reservations, .persisting, rfl⟩, haccounted, nofun, ?_⟩
      exact beq_eq_false_iff_ne.mpr (plain_change hplain error h)
  | interrupted error disk =>
      exact Or.inr
        { sane := ⟨hs.open_, nofun, haccounted⟩, stage := Or.inr ⟨rfl, rfl⟩, closed := rfl,
          moved := Or.inl rfl, gone := hgone _ rfl }
  | stopped => trivial

/-- **Persisting alone**: a change that leaves the enabled records as they are. -/
theorem leads_persist_only {env : Surroundings} {s : Service v} {operation : Operation v}
    (hs : Live crypto limits s) (hfresh : Fresh s.store operation) (hallowed : allowed operation)
    (hplain : Raises Plain (resolution operation)) (hhidden : ∀ id, ¬ hidden id)
    (hsame : ∀ change, operation.change crypto s.store = .ok change →
      enabledSet change.records = enabledSet s.store.records) :
    Leads (persist crypto env operation) s (Returned crypto limits allowed hidden s)
      (Failed crypto limits allowed hidden s) := by
  refine (leads_persist hs.toSane hs.usable hfresh).imp ?_ ?_
  · rintro answer s' ⟨change, disk, hchange, rfl, hagrees, rfl⟩
    refine Or.inr { live := ?_, stage := rfl, closed := rfl,
                    moved := ⟨operation, change, hallowed, hfresh, hchange, rfl⟩,
                    gone := fun t _ => hhidden t.1 }
    exact { open_ := hs.open_, agrees := fun _ => hagrees, accounted := hs.accounted,
            usable := hs.usable, unblocked := hs.unblocked, sealed := hs.sealed,
            shows := (hs.shows.trans (hsame change hchange).symm).trans
              (enabledSet_congr fun _ => mem_committed).symm }
  · intro failure s' h
    cases failure with
    | stopped => trivial
    | raised error =>
        have hregistry := h.registry
        have hout := @failed_of_persist _ crypto limits allowed hidden operation s s'
          (.raised error) s.registry s.registry.reservations hs hplain hs.accounted
          (fun _ _ _ t _ => hhidden t.1) h
        rwa [show { s.registry with reservations := s.registry.reservations } = s'.registry from
          hregistry.symm] at hout

/-! ### Persisting and publishing -/

/-- How `reservation.publish` ends. -/
theorem leads_publishRecord {env : Surroundings} {s : Service v} {id : ReservationId}
    {prepared : PreparedRuntime} {record : CatalogRecord v} (ha : Accounted limits s.registry) :
    Leads (publishRecord env id prepared record) s
      (fun _ s' => ∃ reg, s' = { s with registry := reg } ∧ Accounted limits reg ∧
        publishedSet reg = without (publishedSet s.registry) record.1.id ∪
          {(record.1.id, record.1.alias_, record.1.revision)})
      (fun failure s' => ∃ error, failure = .raised (.registry error) ∧ s' = s) := by
  rw [Leads, publishRecord]
  cases env.publishFails with
  | some error => exact ⟨error, rfl, rfl⟩
  | none =>
      cases hr : s.registry.reservations[id]? with
      | none => exact ⟨.notEntitled, rfl, rfl⟩
      | some r =>
          by_cases hentitled : r.publish = false ∨ r.released = true
          · simp only [if_pos hentitled]
            exact ⟨.notEntitled, rfl, trivial⟩
          · simp only [if_neg hentitled]
            cases hpublish : publish s.registry id r record.1.id record.1.alias_ record.1.revision
              prepared with
            | error error => exact ⟨error, rfl, rfl⟩
            | ok out =>
                obtain ⟨new, toClose, reg⟩ := out
                refine ⟨disposeOf reg toClose, rfl, ?_, ?_⟩
                · exact accounted_disposeOf (accounted_publish ha hr hpublish)
                    (publish_closed hpublish)
                · rw [publishedSet_congr (disposeOf_published reg toClose)]
                  exact publishedSet_publish ha hpublish

/-- A place that is given back keeps the counts and the generations. -/
theorem giveBack_spec {s : Service v} (ha : Accounted limits s.registry) (id : ReservationId) :
    ∃ reg, giveBack id s = { s with registry := reg } ∧ Accounted limits reg ∧
      reg.published = s.registry.published := by
  rw [giveBack]
  cases hr : s.registry.reservations[id]? with
  | none => exact ⟨s.registry, rfl, ha, rfl⟩
  | some r =>
      refine ⟨releaseReservation s.registry id r, rfl, ?_, ?_⟩
      · refine accounted_step (e := .releaseReservation id) ha ?_
        simp only [Runtime.Datasources.step, hr, Option.map_some]
      · rw [releaseReservation]
        split <;> rfl

/-- A place that is taken and given back leaves only a trace in the list of reservations. -/
theorem giveBack_reserve {reg reg' : DatasourceRegistry} {key : Name} {datasourceId : Option Name}
    {publish : Bool} {id : ReservationId} (ha : Accounted limits reg)
    (h : reserve reg key datasourceId publish = .ok (id, reg')) :
    Accounted limits reg' ∧ reg'.published = reg.published ∧
    ∃ reservations, Accounted limits { reg with reservations := reservations } ∧
      ∀ s : Service v, s.registry = reg' →
        giveBack id s = { s with registry := { reg with reservations := reservations } } := by
  obtain ⟨r, hr, -, -, hpublished, haccounted, reservations, hrelease⟩ :=
    releaseReservation_reserve ha h
  refine ⟨haccounted, hpublished, reservations, ?_, ?_⟩
  · rw [← hrelease]
    refine accounted_step (e := .releaseReservation id) haccounted ?_
    simp only [Runtime.Datasources.step, hr, Option.map_some]
  · rintro s rfl
    simp only [giveBack, hr, hrelease]

/-- How `registry.reserve` ends. -/
theorem leads_take {env : Surroundings} {s : Service v} {key : Name} {datasourceId : Option Name}
    {publish : Bool} {R : Failure → Service v → Prop}
    (hrefused : ∀ error, R (.raised (.registry error)) s) :
    Leads (take env key datasourceId publish) s
      (fun id s' => ∃ reg, reserve s.registry key datasourceId publish = .ok (id, reg) ∧
        s' = { s with registry := reg }) R := by
  rw [Leads, take]
  cases env.reserveFails with
  | some error => exact hrefused error
  | none =>
      cases hreserve : reserve s.registry key datasourceId publish with
      | error error => exact hrefused error
      | ok out => exact ⟨out.2, rfl, rfl⟩

/-- **Persisting and publishing**, in the place `id`: a change that leaves one record enabled. -/
theorem leads_persist_publish {env : Surroundings} {s : Service v} {operation : Operation v}
    {key : Name} {datasourceId : Option Name} {id : ReservationId} {reg : DatasourceRegistry}
    {prepared : PreparedRuntime} (hs : Live crypto limits s)
    (hreserve : reserve s.registry key datasourceId true = .ok (id, reg))
    (hfresh : Fresh s.store operation) (hallowed : allowed operation)
    (hplain : Raises Plain (resolution operation)) (hhidden : ∀ id, ¬ hidden id)
    (hmoves : ∀ change, operation.change crypto s.store = .ok change →
      ∃ record, Moves s.store change record ∧ record.1.enabled = true) :
    Leads (do
        let answer ← persist crypto env operation
        publishAnswer env id prepared answer
        return answer)
      { s with registry := reg }
      (fun answer s' => Returned crypto limits allowed hidden s answer (giveBack id s'))
      (fun failure s' => Failed crypto limits allowed hidden s failure (giveBack id s')) := by
  obtain ⟨haccounted, hpublished, reservations, haccounted', hback⟩ :=
    @giveBack_reserve v limits _ _ _ _ _ _ hs.accounted hreserve
  have hsane : Sane crypto limits { s with registry := reg } := ⟨hs.open_, hs.agrees, haccounted⟩
  refine leads_bind (P := fun answer s' => ∃ change disk record,
      operation.change crypto s.store = .ok change ∧ Moves s.store change record ∧
      record.1.enabled = true ∧ answer = .record record ∧
      Agrees crypto disk (committed crypto change s.store) ∧
      s' = { s with registry := reg, disk := disk, store := committed crypto change s.store
                    stage := .persisted })
    ((leads_persist hsane hs.usable hfresh).imp ?_ ?_) ?_
  · rintro answer s' ⟨change, disk, hchange, rfl, hagrees, rfl⟩
    obtain ⟨record, hrecord, henabled⟩ := hmoves change hchange
    exact ⟨change, disk, record, hchange, hrecord, henabled, hrecord.answer _, hagrees, rfl⟩
  · intro failure s' h
    cases failure with
    | stopped => trivial
    | raised error =>
        -- the reservation is the only thing that the registry has to give back
        rw [hback s' h.registry]
        exact failed_of_persist hs hplain haccounted' (fun _ _ _ t _ => hhidden t.1) h
  · rintro answer s' ⟨change, disk, record, hchange, hrecord, henabled, rfl, hagrees, rfl⟩
    have hmoved : Moved crypto allowed s.store (committed crypto change s.store) :=
      ⟨operation, change, hallowed, hfresh, hchange, rfl⟩
    refine leads_bind (P := fun _ s' => Returned crypto limits allowed hidden s (.record record)
      (giveBack id s')) ((leads_publishRecord haccounted).imp ?_ ?_) fun _ _ h => leads_pure h
    · rintro - s' ⟨reg', rfl, hout, hset⟩
      obtain ⟨reg'', hgive, haccounted'', hsame⟩ := giveBack_spec
        (s := { s with registry := reg', disk := disk, store := committed crypto change s.store
                       stage := .persisted }) hout id
      rw [hgive]
      refine Or.inr { live := ?_, stage := rfl, closed := rfl, moved := hmoved,
                      gone := fun t _ => hhidden t.1 }
      refine { open_ := hs.open_, agrees := fun _ => hagrees, accounted := haccounted'',
               usable := hs.usable, unblocked := hs.unblocked, sealed := hs.sealed, shows := ?_ }
      calc publishedSet reg'' = publishedSet reg' := publishedSet_congr hsame
        _ = without (publishedSet reg) record.1.id ∪ shown record := by
            rw [hset, shown_of_enabled henabled]
        _ = without (enabledSet s.store.records) record.1.id ∪ shown record := by
            rw [publishedSet_congr hpublished, hs.shows]
        _ = enabledSet change.records := hrecord.enabled.symm
        _ = enabledSet (committed crypto change s.store).records :=
            (enabledSet_congr fun _ => mem_committed).symm
    · rintro failure s' ⟨error, rfl, rfl⟩
      obtain ⟨reg'', hgive, haccounted'', -⟩ := giveBack_spec
        (s := { s with registry := reg, disk := disk, store := committed crypto change s.store
                       stage := .persisted }) haccounted id
      rw [hgive]
      exact Or.inr { sane := ⟨hs.open_, fun _ => hagrees, haccounted''⟩, stage := Or.inl rfl,
                     closed := rfl, moved := Or.inr hmoved, gone := nofun }

/-- A place in the registry, and what is done with it. -/
theorem leads_reserving {env : Surroundings} {s : Service v} {key : Name}
    {datasourceId : Option Name} {publish : Bool} {body : ReservationId → Call v (Answer v)}
    {Q : Answer v → Service v → Prop} (hs : Live crypto limits s) (hstage : s.stage = .none)
    (hbody : ∀ id reg, reserve s.registry key datasourceId publish = .ok (id, reg) →
      Leads (body id) { s with registry := reg } (fun answer s' => Q answer (giveBack id s'))
        (fun failure s' => Failed crypto limits allowed hidden s failure (giveBack id s'))) :
    Leads (reserving env key datasourceId publish body) s Q
      (Failed crypto limits allowed hidden s) := by
  refine leads_bind (leads_take fun error => failed_of_check hs hstage rfl) ?_
  rintro id s' ⟨reg, hreserve, rfl⟩
  exact leads_ensuring (hbody id reg hreserve)

/-- A check in a place that was reserved. -/
theorem leads_check_reserved {α β : Type} {f : Service v → Except Failure α} {k : α → Call v β}
    {s : Service v} {key : Name} {datasourceId : Option Name} {publish : Bool} {id : ReservationId}
    {reg : DatasourceRegistry} {Q : β → Service v → Prop} (hs : Live crypto limits s)
    (hstage : s.stage = .none)
    (hreserve : reserve s.registry key datasourceId publish = .ok (id, reg))
    (hcertain : ∀ s', Raises Certain (f s'))
    (hrest : ∀ a, f { s with registry := reg } = .ok a → Leads (k a) { s with registry := reg } Q
      (fun failure s' => Failed crypto limits allowed hidden s failure (giveBack id s'))) :
    Leads (reading f >>= k) { s with registry := reg } Q
      (fun failure s' => Failed crypto limits allowed hidden s failure (giveBack id s')) := by
  obtain ⟨-, -, reservations, haccounted, hback⟩ :=
    @giveBack_reserve v limits _ _ _ _ _ _ hs.accounted hreserve
  refine leads_bind (P := fun a s' => f { s with registry := reg } = .ok a ∧
    s' = { s with registry := reg }) ?_ ?_
  · refine leads_reading (fun a ha => ⟨ha, rfl⟩) fun failure hfailure => ?_
    obtain ⟨error, rfl, herror⟩ := hcertain _ failure hfailure
    rw [hback _ rfl]
    refine Or.inl ⟨⟨reservations, s.stage, rfl⟩, haccounted, ?_, herror⟩
    show s.stage ≠ .persisted
    rw [hstage]
    exact nofun
  · rintro a s' ⟨ha, rfl⟩
    exact hrest a ha

/-! ### Persisting and withdrawing -/

/-- How `registry.withdraw` ends. -/
theorem leads_withdrawing (env : Surroundings) (s : Service v) (datasourceId : Name)
    (ha : Accounted limits s.registry) :
    Leads (withdrawing env datasourceId) s
      (fun _ s' => ∃ reg, s' = { s with registry := reg } ∧ Accounted limits reg ∧
        publishedSet reg = without (publishedSet s.registry) datasourceId)
      (fun failure s' => ∃ error, failure = .raised (.registry error) ∧ s' = s) := by
  rw [Leads, withdrawing]
  cases env.withdrawFails with
  | some error => exact ⟨error, rfl, rfl⟩
  | none =>
      refine ⟨_, rfl, ?_, ?_⟩
      · exact accounted_disposeOf (accounted_withdraw ha datasourceId)
          (withdraw_closed s.registry datasourceId)
      · rw [publishedSet_congr (disposeOf_published _ _)]
        exact publishedSet_withdraw ha datasourceId

theorem gone_of_without {reg reg' : DatasourceRegistry} {datasourceId : Name}
    (hhidden : ∀ id, hidden id → id = datasourceId)
    (h : publishedSet reg' = without (publishedSet reg) datasourceId) : Gone hidden reg' := by
  intro t ht hid
  rw [h] at ht
  exact ht.2 (hhidden t.1 hid)

/-- **Persisting and withdrawing**: a change that leaves nothing of one id enabled. -/
theorem leads_persistWithdrawal {env : Surroundings} {s : Service v} {operation : Operation v}
    {datasourceId : Name} (hs : Live crypto limits s) (hfresh : Fresh s.store operation)
    (hallowed : allowed operation) (hplain : Raises Plain (resolution operation))
    (hhidden : ∀ id, hidden id → id = datasourceId)
    (hwithout : ∀ change, operation.change crypto s.store = .ok change →
      enabledSet change.records = without (enabledSet s.store.records) datasourceId) :
    Leads (persistWithdrawal crypto env datasourceId operation) s
      (Returned crypto limits allowed hidden s) (Failed crypto limits allowed hidden s) := by
  refine leads_bind (leads_tryCatch (leads_persist hs.toSane hs.usable hfresh) ?_) ?_
  · intro failure s' h
    cases h with
    | refused error hchange =>
        -- a refusal is never uncertain, so nothing is withdrawn
        have hcertain : ServiceError.uncertain (.store error) = false :=
          beq_eq_false_iff_ne.mpr (plain_change hplain error hchange)
        simp only [Failure.uncertain, hcertain, Bool.false_eq_true, if_false]
        exact Or.inl ⟨⟨s.registry.reservations, .persisting, rfl⟩, hs.accounted, nofun, hcertain⟩
    | interrupted error disk =>
        cases huncertain : ServiceError.uncertain (.store error) with
        | false =>
            simp only [Failure.uncertain, huncertain, Bool.false_eq_true, if_false]
            exact Or.inr
              { sane := ⟨hs.open_, nofun, hs.accounted⟩, stage := Or.inr ⟨rfl, rfl⟩, closed := rfl
                moved := Or.inl rfl, gone := fun h => absurd (huncertain.symm.trans h) nofun }
        | true =>
            simp only [Failure.uncertain, huncertain, if_true]
            let s₁ := Service.block { s with
              disk, store := { s.store with poisoned := true }, stage := .persisting }
            refine leads_bind ((leads_withdrawing env s₁ datasourceId hs.accounted).imp ?_ ?_)
              (P := fun _ s' => Failed crypto limits allowed hidden s (.raised (.store error)) s')
              fun _ _ h => leads_throw h
            · rintro - s' ⟨reg, rfl, haccounted, hset⟩
              exact Or.inr
                { sane := ⟨hs.open_, nofun, haccounted⟩, stage := Or.inr ⟨rfl, rfl⟩, closed := rfl
                  moved := Or.inl rfl, gone := fun _ => gone_of_without hhidden hset }
            · rintro failure s' ⟨raised, rfl, rfl⟩
              exact Or.inr
                { sane := ⟨hs.open_, nofun, hs.accounted⟩, stage := Or.inr ⟨rfl, rfl⟩, closed := rfl
                  moved := Or.inl rfl, gone := nofun }
    | stopped => trivial
  · rintro answer s' ⟨change, disk, hchange, rfl, hagrees, rfl⟩
    have hmoved : Moved crypto allowed s.store (committed crypto change s.store) :=
      ⟨operation, change, hallowed, hfresh, hchange, rfl⟩
    let s₁ := { s with disk, store := committed crypto change s.store, stage := .persisted }
    refine leads_bind (P := fun _ s' => Returned crypto limits allowed hidden s
      (change.answer (committed crypto change s.store)) s')
      ((leads_withdrawing env s₁ datasourceId hs.accounted).imp ?_ ?_) fun _ _ h => leads_pure h
    · rintro - s' ⟨reg, rfl, haccounted, hset⟩
      refine Or.inr { live := ?_, stage := rfl, closed := rfl, moved := hmoved,
                      gone := gone_of_without hhidden hset }
      refine { open_ := hs.open_, agrees := fun _ => hagrees, accounted := haccounted,
               usable := hs.usable, unblocked := hs.unblocked, sealed := hs.sealed, shows := ?_ }
      calc publishedSet reg = without (publishedSet s.registry) datasourceId := hset
        _ = enabledSet change.records := by rw [hs.shows, hwithout change hchange]
        _ = enabledSet (committed crypto change s.store).records :=
            (enabledSet_congr fun _ => mem_committed).symm
    · rintro failure s' ⟨error, rfl, rfl⟩
      exact Or.inr { sane := ⟨hs.open_, fun _ => hagrees, hs.accounted⟩, stage := Or.inl rfl,
                     closed := rfl, moved := Or.inr hmoved, gone := nofun }

end

end MaskGateway.Proofs.DatasourceService
