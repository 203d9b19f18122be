import MaskGateway.Proofs.Runtime.DatasourceService
import MaskGateway.Runtime.DatasourceTests

/-!
# `MaskGateway.Proofs.Runtime.DatasourceTests`: which secret goes where

A test reads the record and the secret of a datasource one after the other, and a write can come
between. The secret that it then sends to the old destination belongs to that destination in some
catalog, unless the secret was rotated after the destination had changed.

`steady` excludes that one write. Where it holds, `connections_belong` shows for every run that the
destination and the secret of every verification connection are those of one record of one catalog.
The invariant is `Fair`: it says of a worker that holds a record which secrets the record's datasource
can still give.

Without `steady`, `crossed_connection` is a run of two calls between the two reads after which
the new secret goes to the old destination.
-/

set_option autoImplicit false

namespace MaskGateway.Proofs.DatasourceTests

open MaskGateway.Lib
open MaskGateway.Datasource MaskGateway.Runtime.Datasources
open MaskGateway.Runtime.Candidate MaskGateway.Runtime.DatasourceService
open MaskGateway.Runtime.DatasourceTests
open MaskGateway.Proofs.Datasource hiding Event
open MaskGateway.Proofs.DatasourceService

/-! ### Destinations -/

/-- Where a record says that its datasource is. -/
structure Destination where
  host : Name
  port : Nat
  database : Name
  username : Name
  resolvedAddresses : List Name
  deriving DecidableEq

/-- The destination of a record. -/
def destinationOf (record : DatasourceRecord) : Destination where
  host := record.host
  port := record.port
  database := record.database
  username := record.username
  resolvedAddresses := record.resolvedAddresses

section

variable {v : Validators}

/-- The secret of a datasource is rotated only where no worker holds a record of it with another
destination than the one that it has in the catalog. -/
def steady (s : Workers v) : Action v → Bool
  | .service (.request _ (.rotateSecret datasourceId _ _)) =>
      s.phases.all fun phase =>
        match phase with
        | .holding record =>
            record.1.id != datasourceId || s.system.service.store.records.all fun current =>
              current.1.id != datasourceId || destinationOf current.1 == destinationOf record.1
        | _ => true
  | _ => true

variable (crypto : Crypto) (net : Addressing)

/-- Some record of some catalog has both the destination and the secret. -/
def Paired (catalogs : List (CatalogStore v)) (destination : Destination) (secret : Name) : Prop :=
  ∃ catalog ∈ catalogs, ∃ record ∈ catalog.records, destinationOf record.1 = destination ∧
    catalog.readUpstreamSecret crypto record = .ok secret

/-- The connection uses the destination and the secret of one record of one catalog. -/
def Belongs (catalogs : List (CatalogStore v)) (connection : Connection) : Prop :=
  ∃ catalog ∈ catalogs, ∃ record ∈ catalog.records,
    connection.spec.host = record.1.host ∧ connection.spec.port = record.1.port ∧
    connection.spec.database = record.1.database ∧ connection.spec.username = record.1.username ∧
    canonicalAddresses net record.1.resolvedAddresses = .ok connection.candidate.addresses ∧
    catalog.readUpstreamSecret crypto record = .ok connection.spec.secret ∧
    connection.candidate.conninfo = buildConninfo connection.spec connection.candidate.addresses

/-- What is known of a worker. -/
def Fits (s : Workers v) : Phase v → Prop
  | .idle => True
  | .holding record => record.1.id ∈ s.system.used ∧
      ∀ current ∈ s.system.service.store.records, current.1.id = record.1.id → ∀ secret,
        s.system.service.store.readUpstreamSecret crypto current = .ok secret →
        Paired crypto s.catalogs (destinationOf record.1) secret
  | .armed record secret => Paired crypto s.catalogs (destinationOf record.1) secret

/-- The invariant of a run. -/
structure Fair (limits : RegistryLimits) (s : Workers v) : Prop where
  sound : Sound crypto limits s.system
  listed : s.system.service.store ∈ s.catalogs
  phases : ∀ phase ∈ s.phases, Fits crypto s phase
  connections : ∀ connection ∈ s.connections, Belongs crypto net s.catalogs connection

end

section

variable {v : Validators} {crypto : Crypto} {net : Addressing} {limits : RegistryLimits}

/-- Catalogs are only added. -/
theorem Paired.mono {catalogs catalogs' : List (CatalogStore v)} {destination : Destination}
    {secret : Name} (h : Paired crypto catalogs destination secret) (hsub : catalogs ⊆ catalogs') :
    Paired crypto catalogs' destination secret := by
  obtain ⟨catalog, hcatalog, hrest⟩ := h
  exact ⟨catalog, hsub hcatalog, hrest⟩

theorem Belongs.mono {catalogs catalogs' : List (CatalogStore v)} {connection : Connection}
    (h : Belongs crypto net catalogs connection) (hsub : catalogs ⊆ catalogs') :
    Belongs crypto net catalogs' connection := by
  obtain ⟨catalog, hcatalog, hrest⟩ := h
  exact ⟨catalog, hsub hcatalog, hrest⟩

/-! ### What a write does to the secrets -/

/-- What the store reads back from a record that it has sealed. -/
theorem readUpstreamSecret_seal {store : CatalogStore v} {record : CatalogRecord v} {nonce : Nonce}
    {plaintext secret : Name} (hseal : sealSecret crypto nonce plaintext store.masterKey record.1.id
      record.1.revision = .ok record.1.upstreamSecret)
    (hread : store.readUpstreamSecret crypto record = .ok secret) : secret = plaintext := by
  rw [CatalogStore.readUpstreamSecret, openSecret_seal hseal] at hread
  exact (Except.ok.inj hread).symm

/-- Where the secret of a record comes from that an operation has left: from a record of the datasource
before it, from `rotate_secret`, which keeps the destination, or from `create`. -/
inductive Comes (crypto : Crypto) (env : Surroundings) (request : Request v)
    (store : CatalogStore v) (record : CatalogRecord v) (secret : Name) : Prop
  | kept (old : CatalogRecord v) (hold : old ∈ store.records) (hid : old.1.id = record.1.id)
      (hread : store.readUpstreamSecret crypto old = .ok secret)
  | rotated (given : Name) (expected : Expected) (old : CatalogRecord v) (hold : old ∈ store.records)
      (hid : old.1.id = record.1.id) (hsame : destinationOf record.1 = destinationOf old.1)
      (hrequest : request = .rotateSecret record.1.id given expected)
  | created (hdraws : request.draws env = some record.1.id)

/-- **Where the secrets of a catalog come from.** -/
theorem comes_of_moved {env : Surroundings} {request : Request v} {store store' : CatalogStore v}
    (h : Moved crypto (Serves env request) store store') {record : CatalogRecord v}
    (hrecord : record ∈ store'.records) {secret : Name}
    (hread : store'.readUpstreamSecret crypto record = .ok secret) :
    Comes crypto env request store record secret := by
  obtain ⟨operation, change, hserves, -, hchange, rfl⟩ := h
  rw [mem_committed] at hrecord
  cases hserves with
  | create draft resolved nonce =>
      simp only [Operation.change, CatalogStore.create, bind_eq_ok, pure_eq_ok] at hchange
      obtain ⟨-, -, -, -, _, -, envelope, -, draft', -, rfl⟩ := hchange
      rcases List.mem_append.mp hrecord with hmem | hmem
      · exact .kept record hmem rfl hread
      · rw [List.mem_singleton.mp hmem]
        exact .created rfl
  | update draft expectedRevision resolved nonce | setEnabled draft expectedRevision resolved nonce =>
      simp only [Operation.change, CatalogStore.update, bind_eq_ok, pure_eq_ok] at hchange
      obtain ⟨-, -, current, hcurrent, -, -, _, -, plaintext, hplain, envelope, hseal, draft', -, rfl⟩ :=
        hchange
      rcases mem_replaceRecord.mp hrecord with ⟨hmem, -⟩ | ⟨rfl, -⟩
      · exact .kept record hmem rfl hread
      · -- the secret is read under the old revision and sealed under the new one
        obtain rfl := readUpstreamSecret_seal hseal hread
        exact .kept current (getRecord_ok hcurrent).1 rfl hplain
  | rotateSecret expectedRevision nonce =>
      simp only [Operation.change, CatalogStore.rotateSecret, bind_eq_ok, pure_eq_ok] at hchange
      obtain ⟨-, -, current, hcurrent, envelope, -, rfl⟩ := hchange
      obtain ⟨hmem, hid⟩ := getRecord_ok hcurrent
      rcases mem_replaceRecord.mp hrecord with ⟨hmem', -⟩ | ⟨rfl, -⟩
      · exact .kept record hmem' rfl hread
      · exact .rotated _ _ current hmem rfl rfl (by rw [← hid]; rfl)
  | remove expectedRevision =>
      simp only [Operation.change, CatalogStore.remove, bind_eq_ok, pure_eq_ok] at hchange
      obtain ⟨-, -, _, -, rfl⟩ := hchange
      exact .kept record (List.mem_filter.mp hrecord).1 rfl hread

/-- The same for a call, however it ends. -/
theorem comes_of_ended {env : Surroundings} {request : Request v} {hidden : Name → Prop}
    {s s' : Service v} {error : Option ServiceError}
    (h : Ended crypto limits (Serves env request) hidden s error s') {record : CatalogRecord v}
    (hrecord : record ∈ s'.store.records) {secret : Name}
    (hread : s'.store.readUpstreamSecret crypto record = .ok secret) :
    Comes crypto env request s.store record secret := by
  rcases h.outcome with ⟨_, _, rfl⟩ | ⟨hstore | hmoved, -⟩
  · exact .kept record hrecord rfl hread
  · -- a store that gave up has the records and the key of before
    rw [hstore] at hrecord hread
    exact .kept record hrecord rfl hread
  · exact comes_of_moved hmoved hrecord hread

/-- Only a call changes the store. -/
theorem store_of_step {s s' : System v} {event : Event v}
    (hcall : ∀ env request, event ≠ .request env request)
    (h : Runtime.DatasourceService.step crypto s event = some s') :
    s'.used = s.used ∧ s'.service.store = s.service.store := by
  cases event with
  | request env request => exact absurd rfl (hcall env request)
  | blockUnknown | close =>
      rw [← Option.some.inj h]
      exact ⟨rfl, rfl⟩
  | openSession | release | dispose | beginShutdown =>
      simp only [Runtime.DatasourceService.step, Option.map_eq_some_iff] at h
      obtain ⟨reg, -, rfl⟩ := h
      exact ⟨rfl, rfl⟩

/-! ### One step -/

/-- What `steady` says of a worker that holds a record. -/
theorem steady_rotate {s : Workers v} {env : Surroundings} {datasourceId secret : Name}
    {expected : Expected}
    (h : steady s (.service (.request env (.rotateSecret datasourceId secret expected))) = true)
    {record current : CatalogRecord v} (hholds : .holding record ∈ s.phases)
    (hid : record.1.id = datasourceId) (hcurrent : current ∈ s.system.service.store.records)
    (hcurrentId : current.1.id = datasourceId) :
    destinationOf current.1 = destinationOf record.1 := by
  have hall := List.all_eq_true.mp h _ hholds
  simp only [hid, bne_self_eq_false, Bool.false_or] at hall
  have hsame := List.all_eq_true.mp hall current hcurrent
  simpa only [hcurrentId, bne_self_eq_false, Bool.false_or, beq_iff_eq] using hsame

/-- What is known of a worker stays known when the service takes a step. -/
theorem fits_service {s : Workers v} {event : Event v} {system : System v}
    (hs : Sound crypto limits s.system) (hsteady : steady s (.service event) = true)
    (h : Runtime.DatasourceService.step crypto s.system event = some system) {phase : Phase v}
    (hmem : phase ∈ s.phases) (hfits : Fits crypto s phase) :
    Fits crypto { s with system := system, catalogs := s.catalogs ++ [system.service.store] } phase := by
  have hsub : s.catalogs ⊆ s.catalogs ++ [system.service.store] := List.subset_append_left _ _
  cases phase with
  | idle => trivial
  | armed record secret => exact Paired.mono hfits hsub
  | holding record =>
      obtain ⟨hused, hgives⟩ := hfits
      by_cases hcall : ∀ env request, event ≠ .request env request
      · obtain ⟨husedSame, hstore⟩ := store_of_step hcall h
        refine ⟨husedSame ▸ hused, ?_⟩
        show ∀ current ∈ system.service.store.records, _
        rw [hstore]
        intro current hcurrent hid secret hread
        exact (hgives current hcurrent hid secret hread).mono (hstore ▸ hsub)
      · obtain ⟨env, request, rfl⟩ : ∃ env request, event = .request env request := by
          simpa only [not_forall, not_not] using hcall
        obtain ⟨hdrawn, error, service, rfl, hended⟩ := ended_of_step hs h
        refine ⟨List.mem_append_right _ hused, fun current hcurrent hid secret hread => ?_⟩
        cases comes_of_ended hended hcurrent hread with
        | kept old hold hsame hreadOld =>
            exact (hgives old hold (hsame.trans hid) secret hreadOld).mono hsub
        | rotated given expected old hold hsame hdestination hrequest =>
            -- the record is of the destination that the new secret is for
            subst hrequest
            have hheld := steady_rotate hsteady hmem hid.symm hold hsame
            exact ⟨service.store, List.mem_append_right _ (List.mem_singleton.mpr rfl), current,
              hcurrent, hdestination.trans hheld, hread⟩
        | created hdraws => exact absurd hused (hid ▸ hdrawn _ hdraws)

/-- The record that a test reads is the only one of its datasource. -/
theorem fits_testRecord {s : Workers v} (hs : Fair crypto net limits s) {datasourceId : Name}
    {record : CatalogRecord v} (h : testRecord datasourceId s.system.service = .ok record) :
    Fits crypto s (.holding record) := by
  simp only [testRecord, bind_eq_ok, pure_eq_ok] at h
  obtain ⟨-, -, found, hget, -, -, rfl⟩ := h
  have hmem := List.mem_of_find?_eq_some (get_ok hget)
  -- a store that answers is not poisoned, so its ids are distinct
  have husable : s.system.service.store.poisoned = false := by
    cases hpoisoned : s.system.service.store.poisoned with
    | false => rfl
    | true =>
        rw [Runtime.DatasourceService.get, snapshot] at hget
        simp [fromStore, CatalogStore.ensureOpen, hs.sound.coherent.open_, hpoisoned, refuseIf,
          bind, Except.bind, Except.mapError] at hget
  have hdistinct := (hs.sound.coherent.agrees husable).distinct
  refine ⟨hs.sound.used found hmem, fun current hcurrent hid secret hread => ?_⟩
  obtain rfl := List.inj_on_of_nodup_map hdistinct.ids hcurrent hmem hid
  exact ⟨_, hs.listed, current, hcurrent, rfl, hread⟩

/-- The secret that it reads then is one that its datasource can give. -/
theorem fits_readSecret {s : Workers v} {record : CatalogRecord v}
    (hfits : Fits crypto s (.holding record)) {secret : Name}
    (h : readSecret crypto record.1.id s.system.service = .ok secret) :
    Fits crypto s (.armed record secret) := by
  rw [readSecret, fromStore] at h
  cases hread : s.system.service.store.readUpstreamSecretOf crypto record.1.id with
  | error error =>
      rw [hread] at h
      cases h
  | ok found =>
      rw [hread] at h
      obtain rfl := Except.ok.inj h
      simp only [CatalogStore.readUpstreamSecretOf, bind_eq_ok] at hread
      obtain ⟨-, -, current, hcurrent, hread⟩ := hread
      obtain ⟨hmem, hid⟩ := getRecord_ok hcurrent
      exact hfits.2 current hmem hid found hread

/-- A candidate of a record goes to the record's addresses. -/
theorem target_fromRecord {env : Surroundings} {record : DatasourceRecord} {secret : Name}
    {candidate : Candidate} (h : target v env (.fromRecord record secret) = .ok candidate) :
    canonicalAddresses env.net record.resolvedAddresses = .ok candidate.addresses ∧
      candidate.conninfo = buildConninfo (.fromRecord record secret) candidate.addresses := by
  rw [target] at h
  split at h
  · cases h
  · rename_i addresses hresolve
    split at h
    · rw [← Except.ok.inj h]
      refine ⟨?_, rfl⟩
      simp only [resolveDestination, bind_eq_ok, pure_eq_ok, CandidateSpec.fromRecord] at hresolve
      obtain ⟨-, -, -, -, _, -, resolved, -, -, -, _, hpinned, rfl⟩ := hresolve
      simp only [checkPinned] at hpinned
      split at hpinned
      · cases hpinned
      · rename_i expected hexpected
        rw [refuseIf_eq_ok, not_not] at hpinned
        rw [hpinned, hexpected]
    · cases h

/-- Where a worker goes on. -/
theorem fair_goto {s : Workers v} (hs : Fair crypto net limits s) (worker : WorkerId)
    {phase : Phase v} (hfits : Fits crypto s phase) :
    Fair crypto net limits (s.goto worker phase) where
  sound := hs.sound
  listed := hs.listed
  phases other hother := by
    rcases List.mem_or_eq_of_mem_set hother with hmem | rfl
    · exact hs.phases other hmem
    · exact hfits
  connections := hs.connections

/-- The end of a test opens no connection but one to where the secret belongs. -/
theorem fair_connect {s : Workers v} (hs : Fair crypto net limits s) {env : Surroundings}
    {record : CatalogRecord v} {secret : Name} (hfits : Fits crypto s (.armed record secret)) :
    Fair crypto net limits (s.connect net env (.fromRecord record.1 secret) record.1.id) := by
  rw [Workers.connect]
  split
  · exact hs
  · rename_i id service htake
    -- the reservation and its end leave the published part of the registry alone
    have hservice : Sound crypto limits { s.system with service := giveBack id service } ∧
        (giveBack id service).store = s.system.service.store := by
      obtain ⟨reg, hreserve, rfl⟩ := (leads_take (R := fun _ _ => True) fun _ => trivial).of_ok htake
      obtain ⟨hsame, haccounted⟩ := tested_giveBack hs.sound.coherent.accounted hreserve
      have hcoherent := coherent_unchanged hs.sound.coherent hsame haccounted
      obtain ⟨_, _, hback⟩ := hsame
      rw [hback] at hcoherent ⊢
      exact ⟨⟨hcoherent, hs.sound.used⟩, rfl⟩
    obtain ⟨hsound, hstore⟩ := hservice
    have hkept : Fair crypto net limits
        { s with system := { s.system with service := giveBack id service } } :=
      { sound := hsound
        listed := hstore ▸ hs.listed
        phases := fun phase hphase => by
          have hold := hs.phases phase hphase
          cases phase with
          | idle => trivial
          | armed record secret => exact hold
          | holding record => exact ⟨hold.1, by simpa only [hstore] using hold.2⟩
        connections := hs.connections }
    split
    · exact hkept
    · rename_i candidate htarget
      obtain ⟨haddresses, hconninfo⟩ := target_fromRecord htarget
      obtain ⟨catalog, hcatalog, other, hother, hsame, hread⟩ := hfits
      refine { hkept with connections := fun connection hconnection => ?_ }
      rcases List.mem_append.mp hconnection with hmem | hmem
      · exact hs.connections connection hmem
      · rw [List.mem_singleton.mp hmem]
        obtain ⟨hhost, hport, hdatabase, husername, hresolved⟩ := Destination.mk.inj hsame
        exact ⟨catalog, hcatalog, other, hother, hhost.symm, hport.symm, hdatabase.symm,
          husername.symm, hresolved ▸ haddresses, hread, hconninfo⟩

/-! ### Runs -/

/-- **Every step that `steady` allows keeps the invariant.** -/
theorem fair_step {s s' : Workers v} {action : Action v} (hs : Fair crypto net limits s)
    (hsteady : steady s action = true)
    (h : Runtime.DatasourceTests.step crypto net s action = some s') : Fair crypto net limits s' := by
  cases action with
  | service event =>
      simp only [Runtime.DatasourceTests.step, Option.map_eq_some_iff] at h
      obtain ⟨system, hstep, rfl⟩ := h
      have hsound := sound_happened hs.sound (happened_of_step hs.sound hstep)
      have hlisted : system.service.store ∈ s.catalogs ++ [system.service.store] :=
        List.mem_append_right _ (List.mem_singleton.mpr rfl)
      exact { sound := hsound, listed := hlisted
              phases := fun phase hphase =>
                fits_service hs.sound hsteady hstep hphase (hs.phases phase hphase)
              connections := fun connection hconnection =>
                (hs.connections connection hconnection).mono (List.subset_append_left _ _) }
  | readRecord worker datasourceId =>
      simp only [Runtime.DatasourceTests.step] at h
      split at h
      · split at h
        · -- the test raised, and is over
          rw [← Option.some.inj h]
          exact hs
        · rename_i record hrecord
          rw [← Option.some.inj h]
          exact fair_goto hs worker (fits_testRecord hs hrecord)
      · cases h
  | readSecret worker =>
      simp only [Runtime.DatasourceTests.step] at h
      split at h
      · rename_i record hphase
        have hfits := hs.phases _ (List.mem_of_getElem? hphase)
        split at h
        · rw [← Option.some.inj h]
          exact fair_goto hs worker trivial
        · rename_i secret hsecret
          rw [← Option.some.inj h]
          exact fair_goto hs worker (fits_readSecret hfits hsecret)
      · cases h
  | connect worker env =>
      simp only [Runtime.DatasourceTests.step] at h
      split at h
      · rename_i record secret hphase
        have hfits := hs.phases _ (List.mem_of_getElem? hphase)
        rw [← Option.some.inj h]
        exact fair_goto (fair_connect hs hfits) worker trivial
      · cases h

/-- The workers of a service that was just opened. -/
theorem fair_start {system : System v} (count : Nat) (hs : Sound crypto limits system) :
    Fair crypto net limits (Workers.start count system) where
  sound := hs
  listed := List.mem_singleton.mpr rfl
  phases phase hphase := by
    rw [List.eq_of_mem_replicate hphase]
    trivial
  connections _ hconnection := by cases hconnection

/-- **A secret goes only where it belongs.** In every run from the start of a service, with any number
of workers, in which no secret is rotated while a worker holds a record with another destination, the
destination and the secret of every verification connection are those of one record of one catalog. -/
theorem connections_belong {disk : Disk} {key : Key} {faults : Faults} {env : Name → Surroundings}
    {service : Service v} {count : Nat} {actions : List (Action v)} {s : Workers v}
    (hstart : openDatasourceRuntime crypto limits disk key faults env = some service)
    (hrun : run (guarded (Runtime.DatasourceTests.step crypto net) steady)
      (Workers.start count (System.start service)) actions = some s) :
    ∀ connection ∈ s.connections, Belongs crypto net s.catalogs connection := by
  have hfair : Fair crypto net limits s := by
    refine run_invariant (fun hs hstep => ?_) hrun (fair_start count (sound_start hstart))
    obtain ⟨hsteady, hstep⟩ := guarded_eq_some.mp hstep
    exact fair_step hs hsteady hstep
  exact hfair.connections

end

/-! ### A datasource that moves -/

/-- A call of AES-GCM, and what it gives. -/
structure Sealing where
  nonce : List UInt8
  code : List Nat × List Nat × List Nat × Nat
  ciphertext : List UInt8

/-- Encryption by a table; what is not in it becomes long, and tells everything apart. -/
def tableEncrypt (table : List Sealing) (nonce : List UInt8)
    (code : List Nat × List Nat × List Nat × Nat) : List UInt8 :=
  match table.find? fun entry => entry.nonce = nonce ∧ entry.code = code with
  | some entry => entry.ciphertext
  | none => List.replicate (1000 + Encodable.encode code) 0

/-- The call that made a ciphertext. -/
def tableCode (table : List Sealing) (nonce ciphertext : List UInt8) :
    Option (List Nat × List Nat × List Nat × Nat) :=
  match table.find? fun entry => entry.nonce = nonce ∧ entry.ciphertext = ciphertext with
  | some entry => some entry.code
  | none => Encodable.decode (ciphertext.length - 1000)

/-- A table of distinct short ciphertexts can be read both ways. -/
theorem tableCode_tableEncrypt {table : List Sealing}
    (hdistinct : (table.map Sealing.ciphertext).Nodup)
    (hshort : ∀ entry ∈ table, entry.ciphertext.length < 1000) (nonce : List UInt8)
    (code : List Nat × List Nat × List Nat × Nat) :
    tableCode table nonce (tableEncrypt table nonce code) = some code := by
  rw [tableEncrypt]
  cases hfind : table.find? fun entry => entry.nonce = nonce ∧ entry.code = code with
  | some entry =>
      have hmem := List.mem_of_find?_eq_some hfind
      obtain ⟨hnonce, hcode⟩ : entry.nonce = nonce ∧ entry.code = code := by
        simpa using List.find?_some hfind
      rw [tableCode]
      cases hback : table.find? fun other => other.nonce = nonce ∧
          other.ciphertext = entry.ciphertext with
      | none =>
          have hnone := List.find?_eq_none.mp hback entry hmem
          simp [hnonce] at hnone
      | some other =>
          have hsame : other.nonce = nonce ∧ other.ciphertext = entry.ciphertext := by
            simpa using List.find?_some hback
          have hentry : other = entry := List.inj_on_of_nodup_map hdistinct
            (List.mem_of_find?_eq_some hback) hmem hsame.2
          simp only [hentry, hcode]
  | none =>
      simp only [tableCode]
      cases hback : table.find? fun other => other.nonce = nonce ∧
          other.ciphertext = List.replicate (1000 + Encodable.encode code) 0 with
      | none =>
          simp only [List.length_replicate, Nat.add_sub_cancel_left]
          exact Encodable.encodek code
      | some other =>
          -- an entry of the table is too short for this
          have hlength := hshort other (List.mem_of_find?_eq_some hback)
          have hsame : other.nonce = nonce ∧
              other.ciphertext = List.replicate (1000 + Encodable.encode code) 0 := by
            simpa using List.find?_some hback
          rw [hsame.2, List.length_replicate] at hlength
          omega

/-- The three secrets of the datasource that moves, as AES-GCM encrypts them under the key of zeros:
its password at revisions 1 and 2, and another one at revision 3. -/
def movedTable : List Sealing :=
  [{ nonce := List.replicate 12 0, code := sealCode (constantKey 0) "pw".toList (aad crmId.1 1)
     ciphertext := [190, 208, 199, 35, 225, 230, 190, 103, 6, 122, 219, 140, 254, 152, 162, 37, 184,
       20] },
   { nonce := List.replicate 12 1, code := sealCode (constantKey 0) "pw".toList (aad crmId.1 2)
     ciphertext := [5, 55, 143, 62, 134, 162, 144, 218, 68, 14, 235, 51, 163, 156, 29, 49, 142,
       153] },
   { nonce := List.replicate 12 2, code := sealCode (constantKey 0) "pw2".toList (aad crmId.1 3)
     ciphertext := [52, 143, 62, 249, 149, 144, 52, 117, 62, 89, 39, 188, 39, 116, 58, 145, 22, 184,
       212] }]

/-- The tags of the catalogs at revisions 1 to 4, and of the journals that lead to them. -/
def movedTag : Json → Name
  | .obj [(_, .int 1), _, _, _] =>
      hexText 0xff8797b0d598546b599f000f693012b7ec00834178a9e555fe12f74885c63308
  | .obj [(_, .int 2), _, _, _] =>
      hexText 0x10120db7688e81f800b57831c9d92b0b1f09a6b57d50b51559a75a2ba068b656
  | .obj [(_, .int 3), _, _, _] =>
      hexText 0x0701f2ea9efdd1d8fd4c3170fbbaf4dead08062308192c015e6f063d88f4cca9
  | .obj [(_, .int _), _, _, _] =>
      hexText 0x0a38ecf76652b6fbcbb9bfd2af8948cc098b508cea2a0e2a39e28707296160a3
  | .obj [_, _, (_, .int 1), _, _] =>
      hexText 0xad78bbddc94ca051abd64fc21e050d642bbda78ae94c9b86e26b345b8304fd58
  | .obj [_, _, (_, .int 2), _, _] =>
      hexText 0x7c7061f72a25edc8f7c75ba4965a294d413f8262e73c503378cd8a66a4117c19
  | .obj [_, _, (_, .int 3), _, _] =>
      hexText 0x8076c78e9bb270f5fd2f39989d9306180b179d2d3cbb5300013e79fe0f7a9d54
  | _ => hexText 0xb18beb5897da2f8972be255f80ce6f11335869a052c33a9b82e2bccba00549ac

/-- The digests of the catalogs at revisions 1 to 4. -/
def movedDigest : Json → Name
  | .obj [(_, .int 1), _, _, _] =>
      hexText 0x432e6b12ca024bf6b61c9f886b4877470293008229c37bd72b182ef905137eae
  | .obj [(_, .int 2), _, _, _] =>
      hexText 0x30a4b5c49c985c46317d8ac58ec6d2e59cacc7d8af30c6b8f098d78f4887dc58
  | .obj [(_, .int 3), _, _, _] =>
      hexText 0x0ac43c9c1f5be137cff7c0a82893a929aa861a53af5d3667b186ee072d7a9f15
  | _ => hexText 0x9acb4afdfd5806e08f8a30ded0325fc4c44abe5572636dc5fac3f2a78cac3bb2

/-- Primitives that agree with the real ones on the catalogs of the datasource that moves. -/
def movedCrypto : Crypto where
  tag _ := movedTag
  digest := movedDigest
  encrypt key nonce text data := tableEncrypt movedTable nonce (sealCode key text data)
  decrypt key nonce ciphertext data :=
    ((tableCode movedTable nonce ciphertext).filter fun code =>
      code.1 == key.1.map UInt8.toNat && code.2.2 == aadCode data).map fun code =>
        code.2.1.map Char.ofNat
  tag_hex _ payload := by
    unfold movedTag
    split <;> exact fixedHex_hexText _
  digest_hex payload := by
    unfold movedDigest
    split <;> exact fixedHex_hexText _
  encrypt_length key nonce text data := by
    rw [tableEncrypt]
    split
    · rename_i entry hfind
      have hlong : ∀ entry ∈ movedTable, 16 ≤ entry.ciphertext.length := by decide
      exact hlong entry (List.mem_of_find?_eq_some hfind)
    · rw [List.length_replicate]
      omega
  decrypt_encrypt key nonce text data := by
    rw [tableCode_tableEncrypt (by decide) (by decide)]
    simp [sealCode, Function.comp_def, Char.ofNat_toNat]

/-- The addresses of the datasource before and after it moves. -/
def movedHost (moved : Bool) : Name := if moved then "10.0.0.6".toList else "10.0.0.5".toList

/-- Checks that agree with the real ones on the datasource that moves. -/
def movedValidators : Validators where
  isAddress text := text == movedHost false || text == movedHost true
  isTimestamp _ := false
  isSpace c := c == ' '
  lower := id
  policy _ := some plainPolicy
  policy_dump _ _ h := h

/-- What `ipaddress` says of the two addresses. -/
def movedNet : Addressing where
  canonical text := if text = movedHost false ∨ text = movedHost true then some text else none
  isLoopback _ := false
  isUnspecified _ := false
  isLinkLocal _ := false
  isMulticast _ := false
  isPrivate _ := true
  isGlobal _ := false

/-- The draft of the datasource, before and after. -/
def movedDraft (moved : Bool) : ValidDraft movedValidators :=
  ⟨{ alias_ := "crm".toList, displayName := "CRM".toList, host := movedHost moved, port := 5432
     database := "app".toList, username := "gw".toList, enabled := true, tls := ⟨.disable, none⟩
     policy := plainPolicy
     limits := crmLimits
     destinationPolicy := ⟨false, false, []⟩
     resolvedAddresses := [movedHost moved] }, by revert moved; decide +kernel, rfl⟩

/-- A resolver that answers with the address it is asked for, and the nonce that is drawn next. -/
def movedSurroundings (nonce : UInt8) : Surroundings where
  net := movedNet
  answers host _ := .ok [host]
  compiles _ _ := true
  verify _ := .ok ()
  datasourceId := crmId
  nonce := ⟨List.replicate 12 nonce, rfl⟩

/-- A service over the empty catalog. -/
def movedStart : Option (Service movedValidators) :=
  openDatasourceRuntime movedCrypto plainLimits
    (initializeStore movedValidators movedCrypto emptyDisk (constantKey 0) {}).1 (constantKey 0) {}
    fun _ => movedSurroundings 0

/-- `create`, and what a worker reads then. -/
def readFirst : List (Action movedValidators) :=
  [.service (.request (movedSurroundings 0) (.create (movedDraft false) "pw".toList 1)),
   .readRecord 0 crmId.1]

/-- The other worker moves the datasource and gives it another secret. -/
def moveAndRotate : List (Action movedValidators) :=
  [.service (.request (movedSurroundings 1)
     (.update crmId.1 (.draft (movedDraft true)) { datasourceRevision := some 1 })),
   .service (.request (movedSurroundings 2)
     (.rotateSecret crmId.1 "pw2".toList { datasourceRevision := some 2 }))]

/-- The end of the test. -/
def connectLast : List (Action movedValidators) :=
  [.readSecret 0, .connect 0 (movedSurroundings 3)]

/-- A test that nothing disturbs opens one connection, and it is where the secret belongs. -/
theorem connections_belong_undisturbed :
    ∃ service s connection, movedStart = some service ∧
      run (guarded (Runtime.DatasourceTests.step movedCrypto movedNet) steady)
        (Workers.start 2 (System.start service)) (readFirst ++ connectLast) = some s ∧
      s.connections = [connection] ∧ Belongs movedCrypto movedNet s.catalogs connection := by
  have hreached : ∃ s connection, (movedStart.bind fun service =>
      run (guarded (Runtime.DatasourceTests.step movedCrypto movedNet) steady)
        (Workers.start 2 (System.start service)) (readFirst ++ connectLast)) = some s ∧
      s.connections = [connection] := ⟨_, _, rfl, rfl⟩
  obtain ⟨s, connection, hs, hopened⟩ := hreached
  obtain ⟨service, hstart, hrun⟩ := Option.bind_eq_some_iff.mp hs
  refine ⟨service, s, connection, hstart, hrun, hopened, ?_⟩
  exact connections_belong hstart hrun connection (hopened ▸ List.mem_singleton.mpr rfl)

/-- No record of these catalogs has both the host and the secret. -/
def apart {v : Validators} (crypto : Crypto) (catalogs : List (CatalogStore v))
    (host secret : Name) : Bool :=
  catalogs.all fun catalog => catalog.records.all fun record =>
    record.1.host != host || match catalog.readUpstreamSecret crypto record with
      | .ok other => other != secret
      | .error _ => true

theorem not_belongs_of_apart {v : Validators} {crypto : Crypto} {net : Addressing}
    {catalogs : List (CatalogStore v)} {connection : Connection}
    (h : apart crypto catalogs connection.spec.host connection.spec.secret = true) :
    ¬ Belongs crypto net catalogs connection := by
  rintro ⟨catalog, hcatalog, record, hrecord, hhost, -, -, -, -, hread, -⟩
  have hthere := List.all_eq_true.mp (List.all_eq_true.mp h catalog hcatalog) record hrecord
  simp [hhost, hread] at hthere

/-- With two calls between the two reads of a test, the new secret goes to the old destination: no
record of any catalog has both. -/
theorem crossed_connection :
    ∃ service s connection, movedStart = some service ∧
      run (Runtime.DatasourceTests.step movedCrypto movedNet)
        (Workers.start 2 (System.start service)) (readFirst ++ moveAndRotate ++ connectLast) =
          some s ∧
      connection ∈ s.connections ∧ connection.spec.host = movedHost false ∧
      connection.spec.secret = "pw2".toList ∧
      ¬ Belongs movedCrypto movedNet s.catalogs connection := by
  have hreached : ∃ s connection, (movedStart.bind fun service =>
      run (Runtime.DatasourceTests.step movedCrypto movedNet)
        (Workers.start 2 (System.start service)) (readFirst ++ moveAndRotate ++ connectLast)) =
          some s ∧
      s.connections = [connection] ∧ connection.spec.host = movedHost false ∧
      connection.spec.secret = "pw2".toList ∧
      apart movedCrypto s.catalogs connection.spec.host connection.spec.secret = true :=
    ⟨_, _, rfl, rfl, rfl, rfl, rfl⟩
  obtain ⟨s, connection, hs, hopened, hhost, hsecret, hapart⟩ := hreached
  obtain ⟨service, hstart, hrun⟩ := Option.bind_eq_some_iff.mp hs
  exact ⟨service, s, connection, hstart, hrun, hopened ▸ List.mem_singleton.mpr rfl, hhost, hsecret,
    not_belongs_of_apart hapart⟩

end MaskGateway.Proofs.DatasourceTests
