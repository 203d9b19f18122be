import MaskGateway.Proofs.Runtime.DatasourceService

/-!
# `MaskGateway.Proofs.Runtime.DatasourcePinned`: enabled records can be written again

An enabled record was resolved once, and its secret was opened or sealed once. So its own addresses
resolve to themselves under its own policy (`Settled`), and its secret opens (`Opens`), without any
question to the outside. `Pinned` says this of every enabled record; the start of a service makes it
true and every event keeps it (`pinned_run`).

What `ipaddress` says of a text does not change: all calls of a run have the same `Addressing`, and
the canonical form of an address is an address whose canonical form is itself (`Lawful`).
-/

set_option autoImplicit false

namespace MaskGateway.Proofs.DatasourceService

open MaskGateway.Lib
open MaskGateway.Datasource MaskGateway.Runtime.Datasources
open MaskGateway.Runtime.Candidate MaskGateway.Runtime.DatasourceService
open MaskGateway.Proofs.Datasource hiding Event
open MaskGateway.Proofs.Datasources

/-- What is relied on of `ipaddress`: `.compressed` is an address, and its own `.compressed`. -/
structure Lawful (v : Validators) (net : Addressing) : Prop where
  again : ∀ {text address}, net.canonical text = some address → net.canonical address = some address
  parses : ∀ {text address}, net.canonical text = some address → v.isAddress address = true

section

variable {v : Validators} {crypto : Crypto} {net : Addressing} {env : Surroundings}
  {limits : RegistryLimits}

/-! ### Addresses -/

/-- These addresses are accepted for a host without a resolver. -/
def Settled (v : Validators) (net : Addressing) (host : Name) (policy : DestinationPolicy)
    (addresses : List Name) : Prop :=
  ∃ resolved, canonicalAddresses net addresses = .ok resolved ∧
    ∀ address ∈ resolved, validateAddress v net address host policy = .ok ()

/-- What `_canonical_addresses` returns is canonical. -/
theorem canonical_of_mem {addresses resolved : List Name} {address : Name}
    (h : canonicalAddresses net addresses = .ok resolved) (hmem : address ∈ resolved) :
    ∃ text, net.canonical text = some address := by
  simp only [canonicalAddresses, bind_eq_ok, pure_eq_ok] at h
  obtain ⟨normalized, hmap, -, -, rfl⟩ := h
  rw [(List.perm_insertionSort _ _).mem_iff, List.mem_dedup] at hmem
  obtain ⟨text, -, htext⟩ := exists_of_mem_mapM hmap hmem
  rw [canonicalAddress] at htext
  split at htext
  · rename_i found hfound
    obtain rfl := Except.ok.inj htext
    exact ⟨text, hfound⟩
  · cases htext

/-- The order of `sorted`, on texts: the one of the core library. -/
abbrev TextOrder (a b : Name) : Prop := @LE.le Name List.instLE a b

theorem textOrder_total : Std.Total TextOrder := ⟨fun _ _ => List.le_total _ _⟩

theorem textOrder_trans : IsTrans Name TextOrder := ⟨fun _ _ _ => List.le_trans⟩

/-- The addresses are in order, each once. -/
theorem sorted_canonicalAddresses {addresses resolved : List Name}
    (h : canonicalAddresses net addresses = .ok resolved) :
    resolved.Pairwise TextOrder ∧ resolved.Nodup ∧ resolved ≠ [] := by
  have htotal := textOrder_total
  have htrans := textOrder_trans
  simp only [canonicalAddresses, bind_eq_ok, pure_eq_ok, refuseIf_eq_ok] at h
  obtain ⟨normalized, -, -, hne, rfl⟩ := h
  refine ⟨List.pairwise_insertionSort TextOrder _, ?_, ?_⟩
  · exact (List.perm_insertionSort _ _).nodup_iff.mpr (List.nodup_dedup normalized)
  · intro hempty
    have hlength := congrArg List.length hempty
    rw [(List.perm_insertionSort _ _).length_eq, List.length_nil, List.length_eq_zero_iff,
      List.dedup_eq_nil] at hlength
    exact hne hlength

/-- The canonical addresses resolve to themselves. -/
theorem canonicalAddresses_again (hnet : Lawful v net) {addresses resolved : List Name}
    (h : canonicalAddresses net addresses = .ok resolved) :
    canonicalAddresses net resolved = .ok resolved := by
  obtain ⟨hsorted, hnodup, hne⟩ := sorted_canonicalAddresses h
  have hmap : resolved.mapM (canonicalAddress net) = .ok resolved := by
    rw [mapM_eq_ok, List.forall₂_same]
    intro address hmem
    obtain ⟨text, htext⟩ := canonical_of_mem h hmem
    rw [canonicalAddress, hnet.again htext]
  simp only [canonicalAddresses, bind_eq_ok, pure_eq_ok, refuseIf_eq_ok]
  refine ⟨resolved, hmap, (), hne, ?_⟩
  rw [hnodup.dedup]
  exact hsorted.insertionSort_eq

/-- **What was resolved for a host is settled for it**, and so is what it was pinned to. -/
theorem settled_of_resolve (hnet : Lawful v net) {host : Name} {port : Nat}
    {policy : DestinationPolicy} {resolver : Name → Nat → Except StoreError (List Name)}
    {expected : Option (List Name)} {addresses : List Name}
    (h : resolveDestination v net host port policy resolver expected = .ok addresses) :
    Settled v net host policy addresses ∧
      ∀ stored ∈ expected, Settled v net host policy stored := by
  simp only [resolveDestination, bind_eq_ok, pure_eq_ok, refuseIf_eq_ok] at h
  obtain ⟨-, -, -, -, answer, -, resolved, hresolved, _, hvalid, _, hpinned, rfl⟩ := h
  have hvalid' := forM_eq_ok.mp hvalid
  refine ⟨⟨resolved, canonicalAddresses_again hnet hresolved, hvalid'⟩, ?_⟩
  rintro stored rfl
  rw [checkPinned] at hpinned
  split at hpinned
  · cases hpinned
  · rename_i again hagain
    rw [refuseIf_eq_ok, not_not] at hpinned
    exact ⟨again, hagain, hpinned ▸ hvalid'⟩

/-! ### Records -/

/-- An enabled record can be written again as it is. -/
structure Rewritable (crypto : Crypto) (net : Addressing) (key : Key) (record : CatalogRecord v) :
    Prop where
  settled : Settled v net record.1.host record.1.destinationPolicy record.1.resolvedAddresses
  opens : ∃ secret, openSecret crypto record.1.upstreamSecret key record.1.id record.1.revision =
    .ok secret

/-- Every enabled record of a catalog can. -/
def Pinned (crypto : Crypto) (net : Addressing) (store : CatalogStore v) : Prop :=
  ∀ record ∈ store.records, record.1.enabled = true →
    Rewritable crypto net store.masterKey record

/-- The operations of the service: what they enable was resolved. -/
def Resolves (net : Addressing) : Operation v → Prop
  | .create draft _ _ resolved _ _ | .update _ draft _ resolved _ =>
      draft.1.enabled = true → ∀ addresses, resolved = .ok addresses →
        Settled v net draft.1.host draft.1.destinationPolicy addresses
  | .rotateSecret .. | .remove .. => True
  | .rotateMasterKey .. => False

/-- Pinning addresses changes nothing else. -/
theorem withAddresses_ok {draft draft' : ValidDraft v} {addresses : List Name}
    (h : draft.withAddresses addresses = .ok draft') :
    draft'.1 = { draft.1 with resolvedAddresses := addresses } := by
  rw [ValidDraft.withAddresses] at h
  split at h
  · cases h
    rfl
  · split at h <;> cases h

/-- A record made of a draft that was resolved, under a secret that was sealed. -/
theorem rewritable_makeRecord {key : Key} {draft draft' : ValidDraft v} {addresses : List Name}
    {id : { id : Name // validDatasourceId id = true }} {previous : Nat} {nonce : Nonce}
    {plaintext : Name} {envelope : EncryptedSecret}
    (hdraft : draft.withAddresses addresses = .ok draft')
    (hseal : sealSecret crypto nonce plaintext key id.1 (previous + 1) = .ok envelope)
    (hsettled : draft.1.enabled = true →
      Settled v net draft.1.host draft.1.destinationPolicy addresses)
    (henabled : (makeRecord draft' id previous envelope).1.enabled = true) :
    Rewritable crypto net key (makeRecord draft' id previous envelope) := by
  have hsame := withAddresses_ok hdraft
  refine ⟨?_, plaintext, openSecret_seal hseal⟩
  simp only [makeRecord, hsame] at henabled ⊢
  exact hsettled henabled

/-- Replacing a record by one that can be written again. -/
theorem pinned_replaceRecord {key : Key} {records : List (CatalogRecord v)}
    {updated : CatalogRecord v}
    (h : ∀ record ∈ records, record.1.enabled = true → Rewritable crypto net key record)
    (hupdated : updated.1.enabled = true → Rewritable crypto net key updated) :
    ∀ record ∈ replaceRecord records updated, record.1.enabled = true →
      Rewritable crypto net key record := by
  intro record hrecord
  rcases mem_replaceRecord.mp hrecord with ⟨hold, -⟩ | ⟨rfl, -⟩
  · exact h record hold
  · exact hupdated

/-- **Every operation of the service keeps it.** -/
theorem pinned_change {store : CatalogStore v} {operation : Operation v} {change : Change v}
    (hstore : Pinned crypto net store) (hresolves : Resolves net operation)
    (h : operation.change crypto store = .ok change) :
    Pinned crypto net (committed crypto change store) := by
  intro record hrecord
  rw [mem_committed] at hrecord
  revert record
  cases operation with
  | create draft upstreamSecret expectedRevision resolved datasourceId nonce =>
      simp only [Operation.change, CatalogStore.create, bind_eq_ok, pure_eq_ok] at h
      obtain ⟨-, -, -, -, addresses, hresolved, envelope, hseal, draft', hdraft, rfl⟩ := h
      intro record hrecord
      rcases List.mem_append.mp hrecord with hmem | hmem
      · exact hstore record hmem
      · rw [List.mem_singleton.mp hmem]
        exact rewritable_makeRecord hdraft hseal fun henabled =>
          hresolves henabled addresses hresolved
  | update datasourceId draft expectedRevision resolved nonce =>
      simp only [Operation.change, CatalogStore.update, bind_eq_ok, pure_eq_ok] at h
      obtain ⟨-, -, current, -, -, -, addresses, hresolved, plaintext, -, envelope, hseal, draft',
        hdraft, rfl⟩ := h
      refine pinned_replaceRecord hstore ?_
      exact rewritable_makeRecord hdraft hseal fun henabled =>
        hresolves henabled addresses hresolved
  | rotateSecret datasourceId upstreamSecret expectedRevision nonce =>
      simp only [Operation.change, CatalogStore.rotateSecret, bind_eq_ok, pure_eq_ok] at h
      obtain ⟨-, -, current, hcurrent, envelope, hseal, rfl⟩ := h
      refine pinned_replaceRecord hstore fun henabled => ?_
      -- the addresses are those of the record before
      have hold := hstore current (getRecord_ok hcurrent).1 henabled
      exact ⟨hold.settled, upstreamSecret, openSecret_seal hseal⟩
  | rotateMasterKey => exact hresolves.elim
  | remove datasourceId expectedRevision =>
      simp only [Operation.change, CatalogStore.remove, bind_eq_ok, pure_eq_ok] at h
      obtain ⟨-, -, _, -, rfl⟩ := h
      intro record hrecord
      exact hstore record (List.mem_filter.mp hrecord).1

/-! ### Programs -/

/-- The invariant of a service. -/
def Holds (crypto : Crypto) (net : Addressing) (s : Service v) : Prop := Pinned crypto net s.store

/-- A call leaves the store, makes it unusable, or commits its change. -/
theorem run_store (operation : Operation v) (disk : Disk) (store : CatalogStore v)
    (faults : Faults) :
    (operation.run crypto disk store faults).2.1 = store ∨
    (operation.run crypto disk store faults).2.1 = { store with poisoned := true } ∨
    ∃ change, operation.change crypto store = .ok change ∧
      (operation.run crypto disk store faults).2.1 = committed crypto change store := by
  rw [Operation.run]
  cases hopen : store.ensureOpen with
  | error error => exact Or.inl rfl
  | ok _ =>
      cases hchange : operation.change crypto store with
      | error error => exact Or.inl rfl
      | ok change =>
          simp only [commit]
          by_cases hexpected : change.expectedRevision = store.revision
          · rw [if_neg (not_not.mpr hexpected)]
            cases hstore : disk.store with
            | none => exact Or.inr (Or.inl rfl)
            | some oldData =>
                simp only
                rcases runSteps (change.steps crypto store oldData) faults.outcomes false disk
                  with ⟨disk', _ | ⟨attempted, error⟩ | _⟩
                · exact Or.inr (Or.inr ⟨change, rfl, rfl⟩)
                · exact Or.inr (Or.inl rfl)
                · exact Or.inr (Or.inl rfl)
          · rw [if_pos hexpected]
            exact Or.inl rfl

theorem preserves_persist {operation : Operation v} (hresolves : Resolves net operation) :
    Preserves (Holds crypto net) (persist crypto env operation) := by
  intro s hs
  have hstore : Pinned crypto net (operation.run crypto s.disk s.store env.faults).2.1 := by
    rcases run_store operation s.disk s.store env.faults with hsame | hpoisoned | ⟨change, hchange, hmoved⟩
    · rw [hsame]
      exact hs
    · rw [hpoisoned]
      exact hs
    · rw [hmoved]
      exact pinned_change hs hresolves hchange
  rw [Leads, persist]
  rcases hrun : operation.run crypto s.disk s.store env.faults with ⟨disk, store, answer | error | _⟩
  · rw [hrun] at hstore
    exact hstore
  · rw [hrun] at hstore
    show Holds crypto net (if store.poisoned then _ else _)
    split
    · exact hstore
    · exact hstore
  · rw [hrun] at hstore
    exact hstore

theorem preserves_withdrawing (datasourceId : Name) :
    Preserves (Holds (v := v) crypto net) (withdrawing env datasourceId) := by
  intro s hs
  rw [Leads, withdrawing]
  cases env.withdrawFails with
  | some error => exact hs
  | none => exact hs

theorem preserves_persistWithdrawal {operation : Operation v} {datasourceId : Name}
    (hresolves : Resolves net operation) :
    Preserves (Holds crypto net) (persistWithdrawal crypto env datasourceId operation) := by
  refine preserves_bind (preserves_tryCatch (preserves_persist hresolves) fun failure => ?_)
    fun answer => preserves_bind (preserves_withdrawing datasourceId) fun _ => preserves_pure answer
  cases failure.uncertain with
  | true =>
      exact preserves_bind (preserves_withdrawing datasourceId) fun _ => preserves_throw failure
  | false => exact preserves_throw failure

theorem preserves_publishRecord {id : ReservationId} {prepared : PreparedRuntime}
    {record : CatalogRecord v} :
    Preserves (Holds crypto net) (publishRecord env id prepared record) := by
  intro s hs
  rw [Leads, publishRecord]
  split
  · rename_i hrun
    split at hrun
    · cases hrun
    · cases hrun
    · split at hrun
      · cases hrun
      · split at hrun
        · cases hrun
        · cases hrun
          exact hs
  · rename_i hrun
    split at hrun
    · cases hrun
      exact hs
    · cases hrun
      exact hs
    · split at hrun
      · cases hrun
        exact hs
      · split at hrun
        · cases hrun
          exact hs
        · cases hrun

theorem preserves_publishAnswer {id : ReservationId} {prepared : PreparedRuntime}
    (answer : Answer v) :
    Preserves (Holds crypto net) (publishAnswer env id prepared answer) := by
  cases answer with
  | record record => exact preserves_publishRecord
  | snapshot | nothing => exact preserves_pure ()

theorem preserves_reserving {key : Name} {datasourceId : Option Name} {publish : Bool}
    {body : ReservationId → Call v (Answer v)} (hbody : ∀ id, Preserves (Holds crypto net) (body id)) :
    Preserves (Holds crypto net) (reserving env key datasourceId publish body) := by
  refine preserves_bind ?_ fun id => preserves_ensuring (hbody id) fun s hs => ?_
  · intro s hs
    rw [Leads, take]
    split
    · rename_i hrun
      split at hrun <;> cases hrun
      exact hs
    · rename_i hrun
      split at hrun <;> cases hrun <;> exact hs
  · rw [giveBack]
    split <;> exact hs

/-- A transition touches the store only through its body. -/
theorem preserves_transition {body : Call v (Answer v)}
    (hbody : Preserves (Holds crypto net) body) :
    Preserves (Holds crypto net) (transition env body) := by
  intro s hs
  have hleads := hbody { s with stage := .none } hs
  rw [Leads, transition]
  rcases hrun : body { s with stage := .none } with ⟨answer, s₁⟩ | ⟨_ | _, s₁⟩
  · have h₁ : Holds crypto net s₁ := hleads.of_ok hrun
    simp only
    split
    · rename_i hout
      split at hout
      · cases hout
        exact h₁
      · split at hout
        · split at hout
          · cases hout
          · cases hout
            exact h₁
        · cases hout
    · rename_i hout
      split at hout
      · cases hout
      · split at hout
        · split at hout
          · cases hout
            exact h₁
          · cases hout
        · cases hout
          exact h₁
  · have h₁ : Holds crypto net s₁ := hleads.of_error hrun
    simp only
    show Holds crypto net (if _ then _ else _)
    split
    · exact h₁
    · exact h₁
  · exact hleads.of_error hrun

/-! ### Calls -/

/-- What is persisted with the answer of the resolver is settled. -/
theorem settled_resolvedFor (hnet : Lawful v net) (henv : env.net = net) (draft : ValidDraft v)
    (addresses : List Name) (h : resolvedFor env env.resolver draft = .ok addresses) :
    Settled v net draft.1.host draft.1.destinationPolicy addresses := by
  rw [resolvedFor, henv] at h
  exact (settled_of_resolve hnet h).1

theorem preserves_updateLocked (hnet : Lawful v net) (henv : env.net = net) (datasourceId : Name)
    (draft : ValidDraft v) (expectedRevision : Int) :
    Preserves (Holds crypto net)
      (Service.updateLocked crypto env datasourceId draft expectedRevision) := by
  refine preserves_bind (preserves_reading _) fun current =>
    preserves_bind (preserves_reading _) fun _ => ?_
  cases henabled : draft.1.enabled with
  | true =>
      rw [if_pos rfl]
      refine preserves_bind (preserves_reading _) fun secret => preserves_reserving fun id =>
        preserves_bind (preserves_reading _) fun candidate =>
        preserves_bind (preserves_reading _) fun pinned =>
        preserves_bind (preserves_persist fun _ => settled_resolvedFor hnet henv pinned)
          fun answer => preserves_bind (preserves_publishAnswer answer) fun _ =>
        preserves_pure answer
  | false =>
      rw [if_neg Bool.false_ne_true]
      refine preserves_bind (preserves_reading _) fun _ => preserves_persistWithdrawal ?_
      intro henabled'
      rw [henabled] at henabled'
      cases henabled'

/-- **Every call keeps it.** -/
theorem preserves_perform (hnet : Lawful v net) (henv : env.net = net) (request : Request v) :
    Preserves (Holds crypto net) (request.perform crypto env) := by
  cases request with
  | create draft secret expectedRevision =>
      refine preserves_transition (preserves_bind (preserves_reading _) fun _ =>
        preserves_bind (preserves_reading _) fun _ =>
        preserves_bind (preserves_reading _) fun _ => ?_)
      split
      · refine preserves_reserving fun id => preserves_bind (preserves_reading _) fun candidate =>
          preserves_bind (preserves_reading _) fun pinned =>
          preserves_bind (preserves_persist fun _ => settled_resolvedFor hnet henv pinned)
            fun answer => preserves_bind (preserves_publishAnswer answer) fun _ =>
          preserves_pure answer
      · exact preserves_bind (preserves_reading _) fun _ =>
          preserves_persist fun _ => settled_resolvedFor hnet henv draft
  | update datasourceId draft expected =>
      exact preserves_transition (preserves_bind (preserves_reading _) fun _ =>
        preserves_bind (preserves_reading _) fun _ =>
        preserves_bind (preserves_reading _) fun _ => preserves_updateLocked hnet henv _ _ _)
  | setEnabled datasourceId enabled expected =>
      refine preserves_transition (preserves_bind (preserves_reading _) fun _ =>
        preserves_bind (preserves_reading _) fun _ =>
        preserves_bind (preserves_reading _) fun current => ?_)
      split
      · exact preserves_pure _
      · exact preserves_updateLocked hnet henv _ _ _
  | rotateSecret datasourceId secret expected =>
      refine preserves_transition (preserves_bind (preserves_reading _) fun _ =>
        preserves_bind (preserves_reading _) fun _ =>
        preserves_bind (preserves_reading _) fun current => ?_)
      split
      · exact preserves_reserving fun id => preserves_bind (preserves_reading _) fun candidate =>
          preserves_bind (preserves_persist trivial) fun answer =>
          preserves_bind (preserves_publishAnswer answer) fun _ => preserves_pure answer
      · exact preserves_persist trivial
  | remove datasourceId expected confirm =>
      exact preserves_transition (preserves_bind (preserves_reading _) fun _ =>
        preserves_bind (preserves_reading _) fun _ =>
        preserves_bind (preserves_reading _) fun _ =>
        preserves_bind (preserves_reading _) fun _ => preserves_persistWithdrawal trivial)
  | testDraft draft secret =>
      exact preserves_bind (preserves_reading _) fun _ => preserves_reserving fun _ =>
        preserves_bind (preserves_reading _) fun _ => preserves_pure _
  | testDatasource datasourceId =>
      exact preserves_bind (preserves_reading _) fun _ => preserves_bind (preserves_reading _)
        fun _ => preserves_reserving fun _ =>
        preserves_bind (preserves_reading _) fun _ => preserves_pure _

/-! ### Runs -/

/-- The calls of a run have one and the same `ipaddress`. -/
def Addressed (net : Addressing) (event : Event v) : Prop :=
  ∀ env request, event = .request env request → env.net = net

/-- Every event keeps it. -/
theorem pinned_step (hnet : Lawful v net) {s s' : System v} {event : Event v}
    (hevent : Addressed net event) (hs : Holds crypto net s.service)
    (h : Runtime.DatasourceService.step crypto s event = some s') :
    Holds crypto net s'.service := by
  have hsection : ∀ (event : Event v),
      ((event.section?.bind (Runtime.Datasources.step s.service.registry)).map fun reg =>
        { s with service := { s.service with registry := reg } }) = some s' →
      Holds crypto net s'.service := by
    intro event h
    obtain ⟨reg, -, rfl⟩ := Option.map_eq_some_iff.mp h
    exact hs
  cases event with
  | request env request =>
      have hkeeps : Preserves (Holds crypto net) (request.perform crypto env) :=
        preserves_perform hnet (hevent env request rfl) request
      have hleads := hkeeps s.service hs
      simp only [Runtime.DatasourceService.step] at h
      split at h
      · cases h
      · split at h
        · rename_i hrun
          rw [← Option.some.inj h]
          exact hleads.of_ok hrun
        · rename_i hrun
          rw [← Option.some.inj h]
          exact hleads.of_error hrun
        · cases h
  | blockUnknown =>
      rw [← Option.some.inj h]
      exact hs
  | close =>
      rw [← Option.some.inj h]
      exact hs
  | openSession alias_ => exact hsection (.openSession alias_) h
  | release id => exact hsection (.release id) h
  | dispose g => exact hsection (.dispose g) h
  | beginShutdown => exact hsection .beginShutdown h

/-- **It holds along every run.** -/
theorem pinned_run (hnet : Lawful v net) {events : List (Event v)} :
    ∀ {s s' : System v}, (∀ event ∈ events, Addressed net event) → Holds crypto net s.service →
      run (Runtime.DatasourceService.step crypto) s events = some s' →
      Holds crypto net s'.service := by
  induction events with
  | nil =>
      intro s s' _ hs hrun
      rw [← Option.some.inj hrun]
      exact hs
  | cons event rest ih =>
      intro s s' hevents hs hrun
      obtain ⟨s₁, hstep, hrest⟩ := Option.bind_eq_some_iff.mp hrun
      exact ih (fun event hevent => hevents event (List.mem_cons_of_mem _ hevent))
        (pinned_step hnet (hevents event List.mem_cons_self) hs hstep) hrest

end

end MaskGateway.Proofs.DatasourceService
