import MaskGateway.Proofs.Runtime.DatasourcePinned

/-!
# `MaskGateway.Proofs.Runtime.DatasourceOff`: a datasource can always be turned off

`set_enabled(False)` and `remove` ask nothing of the resolver, of the verifier, of the policy
compiler or of the limits of the registry. At a service that is open and not blocked they succeed
for every enabled record, whatever the outside does, as long as the store writes (`turn_off`).

A closed service refuses both, as it refuses every write (`closed_refuses`).
-/

set_option autoImplicit false

namespace MaskGateway.Proofs.DatasourceService

open MaskGateway.Lib
open MaskGateway.Datasource MaskGateway.Runtime.Datasources
open MaskGateway.Runtime.Candidate MaskGateway.Runtime.DatasourceService
open MaskGateway.Proofs.Datasource hiding Event
open MaskGateway.Proofs.Datasources

section

variable {v : Validators} {crypto : Crypto} {net : Addressing} {env : Surroundings}
  {limits : RegistryLimits} {s : Service v}

/-! ### The start -/

/-- The record that a place in the catalog names is the one with its id. -/
theorem find_record {records : List (CatalogRecord v)} {record : CatalogRecord v}
    (hnodup : (records.map fun record => record.1.id).Nodup) (hmem : record ∈ records) :
    (records.find? fun other => other.1.id == record.1.id) = some record := by
  cases hfind : records.find? fun other => other.1.id == record.1.id with
  | none => exact absurd (beq_self_eq_true _) (List.find?_eq_none.mp hfind record hmem)
  | some found =>
      have hid : found.1.id = record.1.id := by simpa using List.find?_some hfind
      exact congrArg some
        (List.inj_on_of_nodup_map hnodup (List.mem_of_find?_eq_some hfind) hmem hid)

/-- A secret that was read opens. -/
theorem readSecret_ok {record : CatalogRecord v} {secret : Name}
    (hnodup : (s.store.records.map fun record => record.1.id).Nodup)
    (hmem : record ∈ s.store.records) (h : readSecret crypto record.1.id s = .ok secret) :
    openSecret crypto record.1.upstreamSecret s.store.masterKey record.1.id record.1.revision =
      .ok secret := by
  simp only [readSecret, fromStore, mapError_eq_ok, CatalogStore.readUpstreamSecretOf,
    CatalogStore.getRecord, find_record hnodup hmem, bind_eq_ok, pure_eq_ok] at h
  obtain ⟨-, -, _, ⟨-, -, rfl⟩, h⟩ := h
  rw [CatalogStore.readUpstreamSecret] at h
  split at h
  · rename_i hopen
    rw [hopen, h]
  · cases h

/-- A candidate of a record that was built. -/
theorem build_settled (hnet : Lawful v net) (henv : env.net = net) {record : CatalogRecord v}
    {secret : Name} {candidate : Candidate}
    (h : build env (.fromRecord record.1 secret) s = .ok candidate) :
    Settled v net record.1.host record.1.destinationPolicy record.1.resolvedAddresses := by
  simp only [build, mapError_eq_ok, buildCandidate, bind_eq_ok] at h
  obtain ⟨built, htarget, -⟩ := h
  rw [target, henv] at htarget
  split at htarget
  · cases htarget
  · rename_i hresolve
    exact (settled_of_resolve hnet hresolve).2 _ rfl

/-- One record of the loop of `open_datasource_runtime`, which does not touch the store. -/
theorem leads_publishBuilt (hnet : Lawful v net) (henv : env.net = net) {record : CatalogRecord v}
    {secret : Name} :
    Leads (reserving env record.1.id (some record.1.id) true fun reservation => do
        let candidate ← reading (build env (.fromRecord record.1 secret))
        publishRecord env reservation candidate.prepared record)
      s
      (fun _ s' => s'.store = s.store ∧
        Settled v net record.1.host record.1.destinationPolicy record.1.resolvedAddresses)
      (fun _ _ => True) := by
  refine leads_bind (leads_take fun _ => trivial) ?_
  rintro id s₁ ⟨reg, -, rfl⟩
  refine leads_ensuring (leads_bind (P := fun _ s₁ => s₁ = { s with registry := reg } ∧
    Settled v net record.1.host record.1.destinationPolicy record.1.resolvedAddresses) ?_ ?_)
  · exact leads_reading (fun _ hbuild => ⟨rfl, build_settled hnet henv hbuild⟩) fun _ _ => trivial
  · rintro candidate s₁ ⟨rfl, hsettled⟩
    rw [Leads]
    split
    · rename_i s₂ hpublish
      refine ⟨?_, hsettled⟩
      rw [publishRecord] at hpublish
      split at hpublish
      · cases hpublish
      · cases hpublish
      · split at hpublish
        · cases hpublish
        · split at hpublish
          · cases hpublish
          · cases hpublish
            rw [giveBack]
            split <;> rfl
    · trivial

/-- The loop of `open_datasource_runtime` has read and built every enabled record. -/
theorem pinned_publishEnabled (hnet : Lawful v net) {envs : Name → Surroundings}
    (henvs : ∀ id, (envs id).net = net) {store : CatalogStore v}
    (hnodup : (store.records.map fun record => record.1.id).Nodup) :
    ∀ {records : List (CatalogRecord v)} {s s' : Service v}, s.store = store →
      (∀ record ∈ records, record ∈ store.records) →
      publishEnabled crypto envs records s = .ok () s' →
      s'.store = store ∧ ∀ record ∈ records, record.1.enabled = true →
        Rewritable crypto net store.masterKey record := by
  intro records
  induction records with
  | nil =>
      intro s s' hstore _ h
      cases h
      exact ⟨hstore, fun _ hmem => absurd hmem List.not_mem_nil⟩
  | cons record rest ih =>
      intro s s' hstore hrecords h
      rw [publishEnabled] at h
      have hrest : ∀ record ∈ rest, record ∈ store.records :=
        fun other hother => hrecords other (List.mem_cons_of_mem _ hother)
      cases henabled : record.1.enabled with
      | false =>
          simp only [henabled, Bool.false_eq_true, if_false] at h
          obtain ⟨hstore', hall⟩ := ih hstore hrest h
          refine ⟨hstore', fun other hother => ?_⟩
          rcases List.mem_cons.mp hother with rfl | hmem
          · rw [henabled]
            intros
            contradiction
          · exact hall other hmem
      | true =>
          simp only [henabled, if_true] at h
          obtain ⟨secret, hsecret, h⟩ := reading_bind_ok h
          obtain ⟨_, s₁, hone, h⟩ := bind_ok h
          obtain ⟨hstore', hsettled⟩ := (leads_publishBuilt hnet (henvs record.1.id)).of_ok hone
          obtain ⟨hstore'', hall⟩ := ih (hstore'.trans hstore) hrest h
          refine ⟨hstore'', fun other hother => ?_⟩
          rcases List.mem_cons.mp hother with rfl | hmem
          · subst hstore
            exact fun _ => ⟨hsettled, secret,
              readSecret_ok hnodup (hrecords other List.mem_cons_self) hsecret⟩
          · exact hall other hmem

/-- **At the start every enabled record can be written again.** -/
theorem pinned_start (hnet : Lawful v net) {disk : Disk} {key : Key} {faults : Faults}
    {envs : Name → Surroundings} {service : Service v} (henvs : ∀ id, (envs id).net = net)
    (h : openDatasourceRuntime crypto limits disk key faults envs = some service) :
    Holds crypto net service := by
  rw [openDatasourceRuntime] at h
  split at h
  · rename_i disk' store hopen
    have hdistinct := (agrees_open hopen).1.distinct
    split at h
    · rename_i s hpublish
      obtain ⟨hstore, hall⟩ := pinned_publishEnabled hnet henvs hdistinct.ids rfl
        (fun _ hmem => hmem) hpublish
      obtain ⟨view, -, rfl⟩ := Option.map_eq_some_iff.mp h
      show Pinned crypto net s.store
      rw [hstore]
      exact hall
    · cases h
  · cases h

/-! ### A store that writes -/

/-- The store writes what it is asked to write, and a withdrawal and a view, which ask nothing of
anything outside, are not made to fail. Everything else is left open. -/
structure Writes (env : Surroundings) : Prop where
  steps : ∀ outcome ∈ env.faults.outcomes, outcome = .done
  withdraws : env.withdrawFails = none
  seals : env.sealFails = false

theorem runSteps_done (steps : List Datasource.Step) :
    ∀ {outcomes : List Outcome} {attempted : Bool} {disk : Disk},
      (∀ outcome ∈ outcomes, outcome = .done) →
      runSteps steps outcomes attempted disk = (applyAll steps disk, .finished) := by
  induction steps with
  | nil => exact fun _ => rfl
  | cons step rest ih =>
      intro outcomes attempted disk hdone
      have hhead : outcomes.headD .done = .done := by
        cases outcomes with
        | nil => rfl
        | cons outcome later => exact hdone outcome List.mem_cons_self
      rw [runSteps, hhead]
      exact ih fun outcome hmem => hdone outcome (List.mem_of_mem_tail hmem)

/-- A change that the store makes is persisted. -/
theorem persist_ok {operation : Operation v} {change : Change v} (hs : Live crypto limits s)
    (hwrites : Writes env) (hfresh : Fresh s.store operation)
    (hchange : operation.change crypto s.store = .ok change) :
    ∃ disk, persist crypto env operation s = .ok (change.answer (committed crypto change s.store))
      { s with disk, store := committed crypto change s.store, stage := .persisted } := by
  have hagrees := hs.agrees hs.usable
  have hexpected : change.expectedRevision = s.store.revision :=
    (change_ok hfresh hagrees.distinct hchange).expected
  obtain ⟨oldData, _, _, hstore, -⟩ := readPair_ok.mp hagrees.reads
  have hcommit : commit crypto change s.disk s.store env.faults =
      (cleanupManaged env.faults (applyAll (change.steps crypto s.store oldData) s.disk),
        { s.store with records := (change.target crypto s.store).records
                       revision := (change.target crypto s.store).revision
                       digest := (change.target crypto s.store).digest }, .returned ()) := by
    simp only [commit, hexpected, ne_eq, not_true_eq_false, if_false, hstore,
      runSteps_done _ hwrites.steps]
  refine ⟨cleanupManaged env.faults (applyAll (change.steps crypto s.store oldData) s.disk), ?_⟩
  simp only [persist, Operation.run, ensureOpen_ok hs.open_ hs.usable, hchange, hcommit]
  rfl

/-- Then the generation is withdrawn. -/
theorem persistWithdrawal_ok {operation : Operation v} {change : Change v} (datasourceId : Name)
    (hs : Live crypto limits s) (hwrites : Writes env) (hfresh : Fresh s.store operation)
    (hchange : operation.change crypto s.store = .ok change) :
    ∃ disk reg, persistWithdrawal crypto env datasourceId operation s =
      .ok (change.answer (committed crypto change s.store))
        { s with disk, store := committed crypto change s.store, stage := .persisted
                 registry := reg } := by
  obtain ⟨disk, hpersist⟩ := persist_ok hs hwrites hfresh hchange
  let s₁ := { s with disk, store := committed crypto change s.store, stage := .persisted }
  have htry : ∀ handler, (tryCatch (persist crypto env operation) handler : Call v (Answer v)) s =
      .ok (change.answer (committed crypto change s.store)) s₁ := by
    intro handler
    show EStateM.tryCatch (persist crypto env operation) handler s = _
    rw [EStateM.tryCatch, hpersist]
  have hwithdraw : withdrawing env datasourceId s₁ = .ok ()
      { s₁ with registry := disposeOf (withdraw s₁.registry datasourceId).2.2
                  (withdraw s₁.registry datasourceId).2.1 } := by
    rw [withdrawing, hwrites.withdraws]
  refine ⟨disk, disposeOf (withdraw s₁.registry datasourceId).2.2
    (withdraw s₁.registry datasourceId).2.1, ?_⟩
  rw [persistWithdrawal, bind_of_ok (htry _), bind_of_ok hwithdraw]
  rfl

/-- A transition whose body persisted. -/
theorem transition_persisted {body : Call v (Answer v)} {answer : Answer v} {s₁ : Service v}
    (hseals : env.sealFails = false) (hbody : body { s with stage := .none } = .ok answer s₁)
    (hstage : s₁.stage = .persisted) (hopen : s₁.store.ensureOpen = .ok ())
    (hsealed : s₁.withdrawn = false) :
    ∃ s', transition env body s = .ok answer s' ∧ s'.store = s₁.store := by
  have hseal : { s₁ with stage := .none }.seal = .ok (viewOf s₁.store s₁.registry) := by
    rw [Service.seal, hopen]
    rfl
  refine ⟨{ s₁ with stage := .none, view := some (viewOf s₁.store s₁.registry) }, ?_, rfl⟩
  have hshown : ¬ s₁.withdrawn = true := by
    rw [hsealed]
    exact Bool.false_ne_true
  simp only [transition, hbody, hstage, reduceCtorEq, if_false, hseal, hseals, if_neg hshown]

/-! ### What the calls look at -/

mutual

/-- A value is the same as itself. -/
theorem same_refl : ∀ value : Json, value.same value = true
  | .null => rfl
  | .bool _ | .int _ | .float _ | .str _ => by simp [Json.same]
  | .arr items => by rw [Json.same, sameItems_refl]
  | .obj fields => by rw [Json.same, sameFields_refl]

theorem sameItems_refl : ∀ items : List Json, Json.sameItems items items = true
  | [] => rfl
  | item :: rest => by rw [Json.sameItems, same_refl item, sameItems_refl rest]; rfl

theorem sameFields_refl : ∀ fields : List (Name × Json), Json.sameFields fields fields = true
  | [] => rfl
  | (name, value) :: rest => by
      rw [Json.sameFields, same_refl value, sameFields_refl rest, beq_self_eq_true]
      rfl

end

/-- The right expected revision, of the catalog or of the datasource. -/
inductive Right (store : CatalogStore v) (record : CatalogRecord v) : Expected → Prop
  | catalog : Right store record { revision := some (store.revision : Int) }
  | datasource : Right store record { datasourceRevision := some (record.1.revision : Int) }

theorem snapshot_ok (hs : Live crypto limits s) : snapshot s = .ok s.store.records := by
  rw [snapshot, ensureOpen_ok hs.open_ hs.usable]
  rfl

theorem storeRevision_ok (hs : Live crypto limits s) : storeRevision s = .ok s.store.revision := by
  rw [storeRevision, ensureOpen_ok hs.open_ hs.usable]
  rfl

theorem get_record {record : CatalogRecord v} (hs : Live crypto limits s)
    (hmem : record ∈ s.store.records) : get record.1.id s = .ok record := by
  rw [Runtime.DatasourceService.get, snapshot_ok hs, bind_eq_ok]
  refine ⟨s.store.records, rfl, ?_⟩
  rw [find_record (hs.agrees hs.usable).distinct.ids hmem]
  rfl

theorem guard_right {record : CatalogRecord v} {expected : Expected} (hs : Live crypto limits s)
    (hmem : record ∈ s.store.records) (hright : Right s.store record expected) :
    Runtime.DatasourceService.guard record.1.id expected s = .ok (s.store.revision : Int) := by
  cases hright with
  | catalog =>
      simp only [Runtime.DatasourceService.guard, checkRevision, bind_eq_ok, refuseIf_eq_ok]
      exact ⟨(), ⟨s.store.revision, storeRevision_ok hs, not_not.mpr rfl⟩, rfl⟩
  | datasource =>
      simp only [Runtime.DatasourceService.guard, bind_eq_ok, refuseIf_eq_ok]
      exact ⟨record, get_record hs hmem, (), not_not.mpr rfl, s.store.revision, storeRevision_ok hs,
        rfl⟩

theorem ensureOpen_live (hs : Live crypto limits s) (hclosed : s.closed = false) :
    ensureOpen false s = .ok () := by
  simp [ensureOpen, hclosed, hs.unblocked, refuseIf]

/-! ### The change of a disabling -/

/-- The record that was disabled: its next revision, and nothing else but the spelling of its
addresses. -/
structure Disabled (record updated : CatalogRecord v) : Prop where
  id : updated.1.id = record.1.id
  revision : updated.1.revision = record.1.revision + 1
  same : updated.1.toDatasourceDraft =
    { record.1.toDatasourceDraft with
      enabled := false, resolvedAddresses := updated.1.resolvedAddresses }

/-- The stored addresses resolve, whatever the resolver would say. -/
theorem resolvedFor_stored (henv : env.net = net) {record : CatalogRecord v} {resolved : List Name}
    (hresolved : canonicalAddresses net record.1.resolvedAddresses = .ok resolved)
    (hvalid : ∀ address ∈ resolved,
      validateAddress v net address record.1.host record.1.destinationPolicy = .ok ()) :
    resolvedFor env (fun _ _ => .ok record.1.resolvedAddresses) (draftFromRecord record false) =
      .ok resolved := by
  have hdraft := record.2.draft
  simp only [DatasourceDraft.valid, Bool.and_eq_true, decide_eq_true_eq] at hdraft
  obtain ⟨⟨⟨⟨⟨⟨⟨⟨⟨-, -⟩, hhost⟩, hport⟩, -⟩, -⟩, -⟩, -⟩, -⟩, -⟩ := hdraft
  have hpinned : checkPinned net resolved (pinned record.1.resolvedAddresses) = .ok () := by
    cases haddresses : record.1.resolvedAddresses with
    | nil => rfl
    | cons address rest =>
        rw [haddresses] at hresolved
        simp only [pinned, checkPinned, hresolved, refuseIf_eq_ok, not_not]
  show resolveDestination v env.net record.1.host record.1.port record.1.destinationPolicy
    (fun _ _ => .ok record.1.resolvedAddresses) (pinned record.1.resolvedAddresses) = .ok resolved
  simp only [henv, resolveDestination, bind_eq_ok, pure_eq_ok, refuseIf_eq_ok]
  refine ⟨(), ?_, (), not_not.mpr hport, _, rfl, resolved, hresolved, (), forM_eq_ok.mpr hvalid, (),
    hpinned, rfl⟩
  rw [hhost]
  rintro ⟨⟩

/-- The addresses that were resolved fit into the draft. -/
theorem withAddresses_resolved (hnet : Lawful v net) (draft : ValidDraft v)
    {addresses resolved : List Name} (h : canonicalAddresses net addresses = .ok resolved) :
    ∃ draft', draft.withAddresses resolved = .ok draft' := by
  have hvalid : { draft.1 with resolvedAddresses := resolved }.valid v = true := by
    have hdraft := draft.2.1
    simp only [DatasourceDraft.valid, Bool.and_eq_true, decide_eq_true_eq] at hdraft ⊢
    obtain ⟨⟨⟨⟨hrest, -⟩, -⟩, htls⟩, hpolicy⟩ := hdraft
    refine ⟨⟨⟨⟨hrest, (sorted_canonicalAddresses h).2.1⟩, ?_⟩, htls⟩, hpolicy⟩
    rw [List.all_eq_true]
    intro address hmem
    obtain ⟨text, htext⟩ := canonical_of_mem h hmem
    exact hnet.parses htext
  rw [ValidDraft.withAddresses]
  exact ⟨_, dif_pos hvalid⟩

/-- What a secret opens to is not empty. -/
theorem openSecret_ne_nil {envelope : EncryptedSecret} {key : Key} {id plaintext : Name}
    {revision : Nat} (h : openSecret crypto envelope key id revision = .ok plaintext) :
    plaintext ≠ [] := by
  rw [openSecret] at h
  split at h
  · rw [← Except.ok.inj h]
    exact List.cons_ne_nil _ _
  · cases h

/-- **The store makes the change that disables a record.** -/
theorem update_off (hnet : Lawful v net) (henv : env.net = net) {record : CatalogRecord v}
    (hdistinct : Distinct s.store.records) (hmem : record ∈ s.store.records)
    (hrecord : Rewritable crypto net s.store.masterKey record) :
    ∃ updated change, s.store.update crypto record.1.id (draftFromRecord record false)
        s.store.revision (resolvedFor env (fun _ _ => .ok record.1.resolvedAddresses)
          (draftFromRecord record false)) env.nonce = .ok change ∧
      change.records = replaceRecord s.store.records updated ∧
      (∀ after, change.answer after = .record updated) ∧ Disabled record updated := by
  obtain ⟨⟨resolved, hresolved, hvalid⟩, plaintext, hopens⟩ := hrecord
  obtain ⟨draft', hdraft⟩ := withAddresses_resolved hnet (draftFromRecord record false) hresolved
  let envelope : EncryptedSecret := ⟨env.nonce.1, crypto.encrypt s.store.masterKey env.nonce.1
    plaintext (aad record.1.id (record.1.revision + 1)), env.nonce.2, crypto.encrypt_length ..⟩
  let updated := makeRecord draft' (idOf record) record.1.revision envelope
  have hget : s.store.getRecord record.1.id = .ok record := by
    simp only [CatalogStore.getRecord, bind_eq_ok, refuseIf_eq_ok, find_record hdistinct.ids hmem,
      pure_eq_ok]
    refine ⟨(), ?_, trivial⟩
    rw [record.2.id]
    rintro ⟨⟩
  have hread : s.store.readUpstreamSecret crypto record = .ok plaintext := by
    rw [CatalogStore.readUpstreamSecret, hopens]
  have hseal : sealSecret crypto env.nonce plaintext s.store.masterKey record.1.id
      (record.1.revision + 1) = .ok envelope := by
    rw [sealSecret, if_neg (openSecret_ne_nil hopens)]
  refine ⟨updated, { records := replaceRecord s.store.records updated
                     expectedRevision := s.store.revision, answer := fun _ => .record updated }, ?_,
    rfl, fun _ => rfl, rfl, rfl, ?_⟩
  · simp only [CatalogStore.update, CatalogStore.checkRevision, bind_eq_ok, refuseIf_eq_ok,
      pure_eq_ok]
    refine ⟨(), ?_, record, hget, (), ?_, resolved, resolvedFor_stored henv hresolved hvalid,
      plaintext, hread, envelope, hseal, draft', hdraft, rfl⟩
    · rintro ⟨value, ⟨⟩, hne⟩
      exact hne rfl
    · -- the alias is its own, and aliases are distinct
      rintro ⟨other, hother, halias, hid⟩
      exact hid (congrArg (fun record => record.1.id)
        (List.inj_on_of_nodup_map hdistinct.aliases hother hmem halias))
  · show draft'.1 = { record.1.toDatasourceDraft with
      enabled := false, resolvedAddresses := draft'.1.resolvedAddresses }
    rw [withAddresses_ok hdraft]
    rfl

/-! ### The two calls -/

/-- What is left when a datasource was turned off: the catalog moved by one revision and is on disk,
nothing of the datasource is published, the view shows both, and the other records are untouched. -/
structure TurnedOff (crypto : Crypto) (s : Service v) (id : Name) (s' : Service v) : Prop where
  persisted : readPair v crypto s'.disk s'.store.masterKey = .ok (inMemory s'.store)
  revision : s'.store.revision = s.store.revision + 1
  withdrawn : Gone (fun other => other = id) s'.registry
  view : s'.view = some (viewOf s'.store s'.registry)
  others : ∀ record : CatalogRecord v, record.1.id ≠ id →
    (record ∈ s'.store.records ↔ record ∈ s.store.records)

/-- A call whose body persisted a change that leaves nothing of a datasource enabled. -/
theorem turnedOff_of_body (request : Request v) (id : Name) {body : Call v (Answer v)}
    {answer : Answer v} {s₁ : Service v} {change : Datasource.Change v}
    (hs : Coherent crypto limits s)
    (hblocked : s.blocked = false) (hwrites : Writes env)
    (hdraws : request.draws env = none) (hlocked : request.locked crypto env = some body)
    (hbody : body { s with stage := .none } = .ok answer s₁) (hstage : s₁.stage = .persisted)
    (hsealed : s₁.withdrawn = s.withdrawn)
    (hstore : s₁.store = committed crypto change s.store)
    (hoff : ∀ record ∈ change.records, record.1.id = id → record.1.enabled = false)
    (hothers : ∀ record : CatalogRecord v, record.1.id ≠ id →
      (record ∈ change.records ↔ record ∈ s.store.records)) :
    ∃ s', request.perform crypto env s = .ok answer s' ∧ s'.store = s₁.store ∧
      TurnedOff crypto s id s' := by
  have hlive := hs.live hblocked
  have hopen : s₁.store.ensureOpen = .ok () := by
    rw [hstore]
    exact ensureOpen_ok hlive.open_ hlive.usable
  obtain ⟨s', hperform, hsame⟩ := transition_persisted hwrites.seals hbody hstage hopen
    (hsealed.trans hlive.sealed)
  rw [← perform_locked hlocked] at hperform
  have hended := (leads_perform hs (by rw [hdraws]; exact nofun)).of_ok hperform
  have hcoherent := hended.coherent
  have hlive' := hcoherent.live ((hended.confirmed rfl).trans hblocked)
  have hrecords : ∀ record, record ∈ s'.store.records ↔ record ∈ change.records := by
    intro record
    rw [hsame, hstore]
    exact mem_committed
  refine ⟨s', hperform, hsame, ?_⟩
  refine { persisted := (hlive'.agrees hlive'.usable).reads, revision := ?_, withdrawn := ?_
           view := hcoherent.view hlive'.unblocked, others := ?_ }
  · rw [hsame, hstore]
    rfl
  · intro t ht hid
    have hshown : t ∈ enabledSet s'.store.records := hlive'.shows ▸ ht
    obtain ⟨record, hmem, henabled, rfl⟩ := hshown
    rw [hoff record ((hrecords record).mp hmem) hid] at henabled
    cases henabled
  · exact fun record hid => (hrecords record).trans (hothers record hid)

/-- `set_enabled(False)` of an enabled record. -/
theorem setEnabled_off (hnet : Lawful v net) (henv : env.net = net) (hs : Coherent crypto limits s)
    (hpinned : Holds crypto net s) (hblocked : s.blocked = false) (hclosed : s.closed = false)
    (hwrites : Writes env) {record : CatalogRecord v} (hmem : record ∈ s.store.records)
    (henabled : record.1.enabled = true) {expected : Expected} (hright : Right s.store record expected) :
    ∃ updated s', (Request.setEnabled record.1.id false expected).perform crypto env s =
        .ok (.record updated) s' ∧
      TurnedOff crypto s record.1.id s' ∧ updated ∈ s'.store.records ∧ Disabled record updated := by
  have hlive := hs.live hblocked
  have hdistinct := (hlive.agrees hlive.usable).distinct
  obtain ⟨updated, change, hchange, hrecords, hanswer, hdisabled⟩ :=
    update_off hnet henv hdistinct hmem (hpinned record hmem henabled)
  let operation : Operation v := .update record.1.id (draftFromRecord record false) s.store.revision
    (resolvedFor env (fun _ _ => .ok record.1.resolvedAddresses) (draftFromRecord record false))
    env.nonce
  have hfresh : Fresh s.store operation := trivial
  obtain ⟨disk, reg, hpersist⟩ := persistWithdrawal_ok record.1.id hlive hwrites hfresh hchange
  have hlocked : Service.updateLocked crypto env record.1.id (draftFromRecord record false)
      s.store.revision { s with stage := .none } = .ok (.record updated)
        { s with disk, store := committed crypto change s.store, stage := .persisted
                 registry := reg } := by
    have halias : refuseIf ((draftFromRecord record false).1.alias_ ≠ record.1.alias_)
        (Failure.raised .rename) = .ok () := refuseIf_eq_ok.mpr (not_not.mpr rfl)
    rw [Service.updateLocked, reading_bind_of_ok (get_record hlive hmem),
      reading_bind_of_const halias,
      if_neg (show ¬ (draftFromRecord record false).1.enabled = true from Bool.false_ne_true)]
    -- the policy is the stored one, and the destination too
    have hpolicy : (Json.obj (draftFromRecord record false).1.policy).same
        (.obj record.1.policy) = true := same_refl _
    have hplace : ((draftFromRecord record false).1.host, (draftFromRecord record false).1.port) =
        (record.1.host, record.1.port) := rfl
    simp only [hpolicy, hplace, if_true]
    rw [reading_bind_of_const rfl]
    rw [hpersist, hanswer]
  have hbody : Service.setEnabled crypto env record.1.id false expected { s with stage := .none } =
      .ok (.record updated)
        { s with disk, store := committed crypto change s.store, stage := .persisted
                 registry := reg } := by
    have hdiffers : ¬ record.1.enabled = false := by
      rw [henabled]
      exact nofun
    rw [Service.setEnabled, reading_bind_of_ok (ensureOpen_live hlive hclosed),
      reading_bind_of_ok (guard_right hlive hmem hright), reading_bind_of_ok (get_record hlive hmem),
      if_neg hdiffers]
    exact hlocked
  have hoff : ∀ other ∈ change.records, other.1.id = record.1.id → other.1.enabled = false := by
    intro other hother hid
    rw [hrecords, mem_replaceRecord] at hother
    rcases hother with ⟨-, hne⟩ | ⟨rfl, -⟩
    · exact absurd (hid.trans hdisabled.id.symm) hne
    · rw [hdisabled.same]
  have hothers : ∀ other : CatalogRecord v, other.1.id ≠ record.1.id →
      (other ∈ change.records ↔ other ∈ s.store.records) := by
    intro other hid
    rw [hrecords, mem_replaceRecord]
    constructor
    · rintro (⟨hold, -⟩ | ⟨rfl, -⟩)
      · exact hold
      · exact absurd hdisabled.id hid
    · exact fun hold => Or.inl ⟨hold, fun heq => hid (heq.trans hdisabled.id)⟩
  obtain ⟨s', hperform, hstore, hturned⟩ := turnedOff_of_body
    (.setEnabled record.1.id false expected) record.1.id hs hblocked hwrites rfl rfl hbody rfl rfl
    rfl hoff hothers
  refine ⟨updated, s', hperform, hturned, ?_, hdisabled⟩
  rw [hstore, mem_committed, hrecords, mem_replaceRecord]
  exact Or.inr ⟨rfl, record, hmem, hdisabled.id.symm⟩

/-- `remove` of a record. -/
theorem remove_off (hs : Coherent crypto limits s) (hblocked : s.blocked = false)
    (hclosed : s.closed = false) (hwrites : Writes env) {record : CatalogRecord v}
    (hmem : record ∈ s.store.records) {expected : Expected} (hright : Right s.store record expected)
    {confirm : CatalogRecord v → Bool} (hconfirm : confirm record = true) :
    ∃ s', (Request.remove record.1.id expected confirm).perform crypto env s = .ok .nothing s' ∧
      TurnedOff crypto s record.1.id s' ∧ ∀ other ∈ s'.store.records, other.1.id ≠ record.1.id := by
  have hlive := hs.live hblocked
  have hdistinct := (hlive.agrees hlive.usable).distinct
  let change : Datasource.Change v :=
    { records := s.store.records.filter fun other => other.1.id != record.1.id
      expectedRevision := s.store.revision }
  have hchange : s.store.remove record.1.id s.store.revision = .ok change := by
    simp only [CatalogStore.remove, CatalogStore.checkRevision, CatalogStore.getRecord, bind_eq_ok,
      refuseIf_eq_ok, find_record hdistinct.ids hmem, pure_eq_ok]
    refine ⟨(), ?_, record, ⟨(), ?_, rfl⟩, rfl⟩
    · rintro ⟨value, ⟨⟩, hne⟩
      exact hne rfl
    · rw [record.2.id]
      rintro ⟨⟩
  have hkept : ∀ other : CatalogRecord v,
      other ∈ change.records ↔ other ∈ s.store.records ∧ other.1.id ≠ record.1.id := by
    intro other
    rw [List.mem_filter, bne_iff_ne]
  have hfresh : Fresh s.store (Operation.remove record.1.id s.store.revision) := trivial
  obtain ⟨disk, reg, hpersist⟩ := persistWithdrawal_ok record.1.id hlive hwrites hfresh hchange
  have hbody : Service.remove crypto env record.1.id expected confirm { s with stage := .none } =
      .ok .nothing
        { s with disk, store := committed crypto change s.store, stage := .persisted
                 registry := reg } := by
    have hasked : refuseIf (confirm record = false) (Failure.raised .caller) = .ok () := by
      refine refuseIf_eq_ok.mpr ?_
      rw [hconfirm]
      rintro ⟨⟩
    rw [Service.remove, reading_bind_of_ok (ensureOpen_live hlive hclosed),
      reading_bind_of_ok (guard_right hlive hmem hright), reading_bind_of_ok (get_record hlive hmem),
      reading_bind_of_const hasked]
    exact hpersist
  obtain ⟨s', hperform, hstore, hoff⟩ := turnedOff_of_body (.remove record.1.id expected confirm)
    record.1.id hs hblocked hwrites rfl rfl hbody rfl rfl rfl
    (fun other hother hid => absurd hid ((hkept other).mp hother).2)
    fun other hid => (hkept other).trans (and_iff_left hid)
  refine ⟨s', hperform, hoff, fun other hother => ?_⟩
  rw [hstore, mem_committed] at hother
  exact ((hkept other).mp hother).2

/-- A closed service refuses every write, and changes nothing. -/
theorem perform_closed {request : Request v} {body : Call v (Answer v)} (hclosed : s.closed = true)
    (hlocked : request.locked crypto env = some body) :
    request.perform crypto env s = .error (.raised .closed) { s with stage := .none } := by
  obtain ⟨k, rfl⟩ := locked_eq hlocked
  have hrefused : ensureOpen false { s with stage := .none } = .error (.raised .closed) := by
    simp [ensureOpen, hclosed, refuseIf, bind, Except.bind]
  have hbody := @reading_bind_error _ _ _ _ (ensureOpen false) k _ _ hrefused
  rw [perform_locked hlocked]
  simp [transition, hbody]

/-- **A datasource can always be turned off.** In every state that a service reaches, unless it is
blocked or closed, `set_enabled(False)` and `remove` of an enabled record succeed, are persisted, and
withdraw the generation. Of the outside only the store has to work. -/
theorem turn_off (hnet : Lawful v net) {disk : Disk} {key : Key} {faults : Faults}
    {envs : Name → Surroundings} {service : Service v} {events : List (Event v)} {s : System v}
    (henvs : ∀ id, (envs id).net = net)
    (hstart : openDatasourceRuntime crypto limits disk key faults envs = some service)
    (hevents : ∀ event ∈ events, Addressed net event)
    (hrun : run (Runtime.DatasourceService.step crypto) (System.start service) events = some s)
    (hblocked : s.service.blocked = false) (hclosed : s.service.closed = false)
    {record : CatalogRecord v} (hmem : record ∈ s.service.store.records)
    (henabled : record.1.enabled = true) {expected : Expected}
    (hright : Right s.service.store record expected) {env : Surroundings} (henv : env.net = net)
    (hwrites : Writes env) :
    (∃ updated s', (Request.setEnabled record.1.id false expected).perform crypto env s.service =
        .ok (.record updated) s' ∧
      TurnedOff crypto s.service record.1.id s' ∧ updated ∈ s'.store.records ∧
      Disabled record updated) ∧
    ∀ confirm : CatalogRecord v → Bool, confirm record = true →
      ∃ s', (Request.remove record.1.id expected confirm).perform crypto env s.service =
          .ok .nothing s' ∧
        TurnedOff crypto s.service record.1.id s' ∧
        ∀ other ∈ s'.store.records, other.1.id ≠ record.1.id := by
  have hsound := (sound_run (sound_start hstart) hrun).coherent
  have hpinned := pinned_run hnet hevents (s := System.start service)
    (pinned_start hnet henvs hstart) hrun
  exact ⟨setEnabled_off hnet henv hsound hpinned hblocked hclosed hwrites hmem henabled hright,
    fun confirm hconfirm =>
      remove_off hsound hblocked hclosed hwrites hmem hright hconfirm⟩

end

/-! ### A datasource whose world is down -/

theorem lawful_crmNet : Lawful crmValidators crmNet where
  again := by
    intro text address h
    simp only [crmNet, Option.ite_none_right_eq_some, Option.some.injEq] at h ⊢
    obtain ⟨htext, rfl⟩ := h
    exact ⟨htext, trivial⟩
  parses := by
    intro text address h
    simp only [crmNet, Option.ite_none_right_eq_some, Option.some.injEq] at h
    obtain ⟨rfl, rfl⟩ := h
    exact beq_self_eq_true _

/-- The resolver is down, no policy compiles, every connection fails, and the registry is full. -/
def crmDown : Surroundings where
  net := crmNet
  answers _ _ := .error (.system "resolver")
  compiles _ _ := false
  verify _ := .error (.failed .connection)
  datasourceId := crmId
  nonce := ⟨List.replicate 12 1, rfl⟩
  reserveFails := some .busy
  publishFails := some .notEntitled

theorem writes_crmDown : Writes crmDown := ⟨fun _ h => (by cases h), rfl, rfl⟩

/-- The state after `create`. -/
theorem crm_created : ∃ service s record, crmStart = some service ∧
    run (Runtime.DatasourceService.step crmCrypto) (System.start service) crmCreated = some s ∧
    s.service.blocked = false ∧ s.service.closed = false ∧ record ∈ s.service.store.records ∧
    record.1.enabled = true := by
  have hreached : ∃ s record, (crmStart.bind fun service =>
      run (Runtime.DatasourceService.step crmCrypto) (System.start service) crmCreated) = some s ∧
      s.service.blocked = false ∧ s.service.closed = false ∧
      s.service.store.records = [record] ∧ record.1.enabled = true :=
    ⟨_, _, rfl, rfl, rfl, rfl, rfl⟩
  obtain ⟨s, record, hs, hblocked, hclosed, hrecords, henabled⟩ := hreached
  obtain ⟨service, hstart, hrun⟩ := Option.bind_eq_some_iff.mp hs
  refine ⟨service, s, record, hstart, hrun, hblocked, hclosed, ?_, henabled⟩
  rw [hrecords]
  exact List.mem_singleton.mpr rfl

theorem addressed_crmCreated : ∀ event ∈ crmCreated, Addressed crmNet event := by
  intro event hevent env request heq
  rw [List.mem_singleton.mp hevent] at heq
  cases heq
  rfl

/-- With everything down but the store, the datasource is turned off. -/
theorem turn_off_down : ∃ service s record, crmStart = some service ∧
    run (Runtime.DatasourceService.step crmCrypto) (System.start service) crmCreated = some s ∧
    record ∈ s.service.store.records ∧ record.1.enabled = true ∧
    (∃ updated s', (Request.setEnabled record.1.id false
        { datasourceRevision := some (record.1.revision : Int) }).perform crmCrypto crmDown
          s.service = .ok (.record updated) s' ∧
      TurnedOff crmCrypto s.service record.1.id s' ∧ updated ∈ s'.store.records ∧
      Disabled record updated) ∧
    ∃ s', (Request.remove record.1.id { revision := some (s.service.store.revision : Int) }
        fun _ => true).perform crmCrypto crmDown s.service = .ok .nothing s' ∧
      TurnedOff crmCrypto s.service record.1.id s' ∧
      ∀ other ∈ s'.store.records, other.1.id ≠ record.1.id := by
  obtain ⟨service, s, record, hstart, hrun, hblocked, hclosed, hmem, henabled⟩ := crm_created
  refine ⟨service, s, record, hstart, hrun, hmem, henabled, ?_, ?_⟩
  · exact (turn_off lawful_crmNet (fun _ => rfl) hstart addressed_crmCreated hrun hblocked hclosed
      hmem henabled .datasource rfl writes_crmDown).1
  · exact (turn_off lawful_crmNet (fun _ => rfl) hstart addressed_crmCreated hrun hblocked hclosed
      hmem henabled .catalog rfl writes_crmDown).2 (fun _ => true) rfl

/-- A service that was closed is not blocked, and refuses to turn the datasource off. -/
theorem closed_refuses : ∃ service s record, crmStart = some service ∧
    run (Runtime.DatasourceService.step crmCrypto) (System.start service) (crmCreated ++ [.close]) =
      some s ∧
    s.service.blocked = false ∧ record ∈ s.service.store.records ∧ record.1.enabled = true ∧
    ∀ (env : Surroundings) (expected : Expected),
      (Request.setEnabled record.1.id false expected).perform crmCrypto env s.service =
        .error (.raised .closed) { s.service with stage := .none } ∧
      (Request.remove record.1.id expected fun _ => true).perform crmCrypto env s.service =
        .error (.raised .closed) { s.service with stage := .none } := by
  obtain ⟨service, s, record, hstart, hrun, hblocked, -, hmem, henabled⟩ := crm_created
  refine ⟨service, { s with service := { s.service with closed := true } }, record, hstart, ?_,
    hblocked, hmem, henabled, fun env expected => ⟨?_, ?_⟩⟩
  · rw [run_append, hrun]
    rfl
  · exact perform_closed rfl rfl
  · exact perform_closed rfl rfl

end MaskGateway.Proofs.DatasourceService
