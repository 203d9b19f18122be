import MaskGateway.Proofs.Runtime.DatasourceCalls

/-!
# `MaskGateway.Proofs.Runtime.DatasourceService`: catalog, registry and view over whole runs

Between two calls the service is `Coherent`: unless it is blocked, the registry publishes what the
catalog enables, and the view is the two of them. A call keeps that, and ends in one of three ways:
nothing changed, done, or blocked (`Ended`). A blocked service stays blocked.

`service_guarantees` collects what follows for every run from the start of a service.
-/

set_option autoImplicit false

namespace MaskGateway.Proofs.DatasourceService

open MaskGateway.Lib
open MaskGateway.Datasource MaskGateway.Runtime.Datasources
open MaskGateway.Runtime.Candidate MaskGateway.Runtime.DatasourceService
open MaskGateway.Proofs.Datasource hiding Event
open MaskGateway.Proofs.Datasources

section

variable {v : Validators}

/-! ### Between two calls -/

/-- The invariant of a service. -/
structure Coherent (crypto : Crypto) (limits : RegistryLimits) (s : Service v) : Prop
    extends Sane crypto limits s where
  poisoned : s.store.poisoned = true → s.blocked = true
  unseen : s.blocked = true → s.view = none
  marked : s.withdrawn = s.blocked
  shows : s.blocked = false → publishedSet s.registry = enabledSet s.store.records
  view : s.blocked = false → s.view = some (viewOf s.store s.registry)

variable {crypto : Crypto} {limits : RegistryLimits} {env : Surroundings} {s s' : Service v}

/-- A service that is not blocked can write. -/
theorem Coherent.live (h : Coherent crypto limits s) (hblocked : s.blocked = false) :
    Live crypto limits { s with stage := .none } where
  open_ := h.open_
  agrees := h.agrees
  accounted := h.accounted
  usable := by
    cases hpoisoned : s.store.poisoned with
    | false => rfl
    | true =>
        have := h.poisoned hpoisoned
        rw [hblocked] at this
        cases this
  unblocked := hblocked
  sealed := h.marked.trans hblocked
  shows := h.shows hblocked

/-- Nothing that counts has changed. -/
theorem coherent_unchanged (h : Coherent crypto limits s) (hsame : Unchanged s s')
    (haccounted : Accounted limits s'.registry) : Coherent crypto limits s' := by
  obtain ⟨reservations, stage, rfl⟩ := hsame
  exact { open_ := h.open_, agrees := h.agrees, accounted := haccounted, poisoned := h.poisoned
          unseen := h.unseen, marked := h.marked, shows := h.shows, view := h.view }

/-- A service that gives up. -/
theorem coherent_block (h : Sane crypto limits s) :
    Coherent crypto limits { s with stage := .none }.block where
  open_ := h.open_
  agrees := h.agrees
  accounted := h.accounted
  poisoned _ := rfl
  unseen _ := rfl
  marked := rfl
  shows := nofun
  view := nofun

/-! ### The transition -/

/-- How a call ends: with nothing changed; or, where it returns, with the catalog moved and
everything in step; or, where it raises, with the service blocked. -/
structure Ended (crypto : Crypto) (limits : RegistryLimits) (allowed : Operation v → Prop)
    (hidden : Name → Prop) (s : Service v) (error : Option ServiceError) (s' : Service v) : Prop where
  coherent : Coherent crypto limits s'
  closed : s'.closed = s.closed
  outcome : Unchanged s s' ∨
    ((s'.store = { s.store with poisoned := true } ∨ Moved crypto allowed s.store s'.store) ∧
      s'.blocked = error.isSome)
  gone : (∃ raised ∈ error, raised.uncertain = true) → Gone hidden s'.registry
  confirmed : error = none → s'.blocked = s.blocked

theorem Unchanged.stage (h : Unchanged { s with stage := .none } s') (stage : Stage) :
    Unchanged s { s' with stage := stage } := by
  obtain ⟨reservations, _, rfl⟩ := h
  exact ⟨reservations, stage, rfl⟩

/-- **How a transition ends.** -/
theorem leads_transition {body : Call v (Answer v)} {allowed : Operation v → Prop}
    {hidden : Name → Prop} (hs : Coherent crypto limits s) (hblocked : s.blocked = false)
    (hbody : Leads body { s with stage := .none }
      (Returned crypto limits allowed hidden { s with stage := .none })
      (Failed crypto limits allowed hidden { s with stage := .none })) :
    Leads (transition env body) s (fun _ => Ended crypto limits allowed hidden s none)
      (fun failure s' => ∀ error, failure = .raised error →
        Ended crypto limits allowed hidden s (some error) s') := by
  rw [Leads, transition]
  cases hrun : body { s with stage := .none } with
  | ok answer s₁ =>
      rcases hbody.of_ok hrun with rfl | hwritten
      · -- nothing was written: the view stays
        simp only [if_true]
        exact { coherent := coherent_unchanged hs ⟨_, _, rfl⟩ hs.accounted, closed := rfl
                outcome := Or.inl ⟨_, _, rfl⟩, gone := (by intros; contradiction), confirmed := fun _ => rfl }
      · have hlive := hwritten.live
        have hmoved := hwritten.moved
        have hseal : { s₁ with stage := .none }.seal = .ok (viewOf s₁.store s₁.registry) := by
          rw [Service.seal, ensureOpen_ok hlive.open_ hlive.usable]
          rfl
        have hsealed : ¬ s₁.withdrawn = true := by
          rw [hlive.sealed]
          exact Bool.false_ne_true
        simp only [hwritten.stage, reduceCtorEq, if_false, hseal, if_neg hsealed]
        cases env.sealFails with
        | false =>
            refine { coherent := ?_, closed := hwritten.closed
                     outcome := Or.inr ⟨Or.inr hmoved, hlive.unblocked⟩, gone := (by intros; contradiction)
                     confirmed := fun _ => hlive.unblocked.trans hblocked.symm }
            exact { open_ := hlive.open_, agrees := hlive.agrees, accounted := hlive.accounted
                    poisoned := fun h => absurd (hlive.usable.symm.trans h) Bool.false_ne_true
                    unseen := fun h => absurd (hlive.unblocked.symm.trans h) Bool.false_ne_true
                    marked := hlive.sealed.trans hlive.unblocked.symm
                    shows := fun _ => hlive.shows, view := fun _ => rfl }
        | true =>
            rintro error ⟨⟩
            exact { coherent := coherent_block hlive.toSane, closed := hwritten.closed
                    outcome := Or.inr ⟨Or.inr hmoved, rfl⟩, gone := fun _ => hwritten.gone
                    confirmed := (by intros; contradiction) }
  | error failure s₁ =>
      cases failure with
      | stopped => rintro error ⟨⟩
      | raised error =>
          rintro error ⟨⟩
          rcases hbody.of_error hrun with ⟨hsame, haccounted, hstage, hcertain⟩ | hdoomed
          · -- the store is the one of before, so it is not poisoned
            have hstore : s₁.store = s.store := by
              obtain ⟨_, _, rfl⟩ := hsame
              rfl
            have husable : s₁.store.poisoned = false := by
              rw [hstore]
              exact (hs.live hblocked).usable
            have hno : ¬ (s₁.stage = .persisted ∨
                (s₁.stage = .persisting ∧ s₁.store.poisoned = true)) := by
              rw [husable]
              exact fun h => h.elim hstage fun h => by cases h.2
            rw [if_neg hno]
            have hunchanged := hsame.stage .none
            have hclosed : s₁.closed = s.closed := by
              obtain ⟨_, _, rfl⟩ := hsame
              rfl
            refine { coherent := coherent_unchanged hs hunchanged haccounted, closed := hclosed
                     outcome := Or.inl hunchanged, gone := ?_, confirmed := (by intros; contradiction) }
            rintro ⟨raised, ⟨⟩, huncertain⟩
            exact absurd (hcertain.symm.trans huncertain) Bool.false_ne_true
          · rw [if_pos hdoomed.stage]
            refine { coherent := coherent_block hdoomed.sane, closed := hdoomed.closed
                     outcome := Or.inr ⟨hdoomed.moved, rfl⟩, gone := ?_, confirmed := (by intros; contradiction) }
            rintro ⟨raised, ⟨⟩, huncertain⟩
            exact hdoomed.gone huncertain

/-! ### Calls -/

/-- A write is its body in a transition. -/
theorem perform_locked {request : Request v} {body : Call v (Answer v)}
    (h : request.locked crypto env = some body) :
    request.perform crypto env = transition env body := by
  cases request with
  | create | update | setEnabled | rotateSecret | remove =>
      cases h
      rfl
  | testDraft | testDatasource => cases h

/-- A write begins with `_ensure_open`. -/
theorem locked_eq {request : Request v} {body : Call v (Answer v)}
    (h : request.locked crypto env = some body) :
    ∃ k, body = reading (ensureOpen false) >>= k := by
  cases request with
  | create | update | setEnabled | rotateSecret | remove => exact ⟨_, (Option.some.inj h).symm⟩
  | testDraft | testDatasource => cases h

/-- **A blocked service refuses every write** and changes nothing. -/
theorem perform_blocked {request : Request v} {body : Call v (Answer v)} (hblocked : s.blocked = true)
    (h : request.locked crypto env = some body) :
    ∃ error, (error = .closed ∨ error = .blocked) ∧
      request.perform crypto env s = .error (.raised error) { s with stage := .none } := by
  obtain ⟨k, rfl⟩ := locked_eq h
  rw [perform_locked h]
  have hrefused : ∃ error, (error = .closed ∨ error = .blocked) ∧
      ensureOpen false { s with stage := .none } = .error (.raised error) := by
    cases hclosed : s.closed with
    | true =>
        refine ⟨.closed, Or.inl rfl, ?_⟩
        simp [ensureOpen, refuseIf, bind, Except.bind]
    | false =>
        refine ⟨.blocked, Or.inr rfl, ?_⟩
        simp [ensureOpen, hblocked, refuseIf, bind, Except.bind]
  obtain ⟨error, herror, hopen⟩ := hrefused
  refine ⟨error, herror, ?_⟩
  have hbody := @reading_bind_error _ _ _ _ (ensureOpen false) k _ _ hopen
  simp [transition, hbody]

/-- What a test leaves: nothing that counts has changed. -/
def Tested (limits : RegistryLimits) (s s' : Service v) : Prop :=
  Unchanged s s' ∧ Accounted limits s'.registry

/-- A check of a test. -/
theorem leads_check_test {α β : Type} {f : Service v → Except Failure α} {k : α → Call v β}
    {Q : β → Service v → Prop} (ha : Accounted limits s.registry) (hcertain : Raises Certain (f s))
    (hrest : ∀ a, f s = .ok a →
      Leads (k a) s Q (fun failure s' => Certain failure ∧ Tested limits s s')) :
    Leads (reading f >>= k) s Q (fun failure s' => Certain failure ∧ Tested limits s s') := by
  refine leads_bind (P := fun a s' => f s = .ok a ∧ s' = s) ?_ ?_
  · exact leads_reading (fun a ha => ⟨ha, rfl⟩) fun failure hfailure =>
      ⟨hcertain failure hfailure, Unchanged.refl s, ha⟩
  · rintro a s' ⟨ha, rfl⟩
    exact hrest a ha

/-- A place that is taken and given back. -/
theorem tested_giveBack {key : Name} {datasourceId : Option Name} {publish : Bool}
    {id : ReservationId} {reg : DatasourceRegistry} (ha : Accounted limits s.registry)
    (h : reserve s.registry key datasourceId publish = .ok (id, reg)) :
    Tested limits s (giveBack id { s with registry := reg }) := by
  obtain ⟨-, -, reservations, haccounted, hback⟩ := @giveBack_reserve v limits _ _ _ _ _ _ ha h
  rw [hback _ rfl]
  exact ⟨⟨reservations, s.stage, rfl⟩, haccounted⟩

/-- A candidate that is built and given up. -/
theorem leads_candidate {key : Name} {datasourceId : Option Name} {publish : Bool}
    {spec : CandidateSpec} (ha : Accounted limits s.registry) :
    Leads (reserving env key datasourceId publish fun _ => do
        let _ ← reading (build env spec)
        return (.nothing : Answer v))
      s (fun _ => Tested limits s) (fun failure s' => Certain failure ∧ Tested limits s s') := by
  refine leads_bind (leads_take fun error => ⟨certain_raised rfl, Unchanged.refl s, ha⟩) ?_
  rintro id s' ⟨reg, hreserve, rfl⟩
  have htested := tested_giveBack ha hreserve
  refine leads_ensuring (leads_bind (P := fun _ s' => s' = { s with registry := reg }) ?_ ?_)
  · exact leads_reading (fun _ _ => rfl) fun failure hfailure =>
      ⟨certain_mapError failure hfailure, htested⟩
  · rintro - s' rfl
    exact leads_pure htested

/-- **A test changes nothing.** -/
theorem leads_test {request : Request v} (ha : Accounted limits s.registry)
    (h : request.locked crypto env = none) :
    Leads (request.perform crypto env) s (fun _ => Tested limits s)
      (fun failure s' => Certain failure ∧ Tested limits s s') := by
  cases request with
  | testDraft draft secret =>
      exact leads_check_test ha (certain_ensureOpen true s) fun _ _ => leads_candidate ha
  | testDatasource datasourceId =>
      refine leads_check_test ha ?_ fun record _ =>
        leads_check_test ha (certain_readSecret datasourceId s) fun _ _ => leads_candidate ha
      exact raises_bind (certain_ensureOpen true s) fun _ =>
        raises_bind (certain_get datasourceId s) fun _ =>
        raises_bind (raises_refuseIf (certain_raised rfl)) fun _ => raises_ok
  | create | update | setEnabled | rotateSecret | remove => cases h

/-- **How a call ends**, whatever the state of the service. -/
theorem leads_perform {request : Request v} (hs : Coherent crypto limits s)
    (hfresh : ∀ id ∈ request.draws env, ∀ record ∈ s.store.records, record.1.id ≠ id) :
    Leads (request.perform crypto env) s
      (fun _ => Ended crypto limits (Serves env request) (hides s request) s none)
      (fun failure s' => ∀ error, failure = .raised error →
        Ended crypto limits (Serves env request) (hides s request) s (some error) s') := by
  cases hlocked : request.locked crypto env with
  | none =>
      refine (leads_test hs.accounted hlocked).imp ?_ ?_
      · rintro - s' ⟨hsame, haccounted⟩
        have hcoherent := coherent_unchanged hs hsame haccounted
        obtain ⟨_, _, rfl⟩ := hsame
        exact { coherent := hcoherent, closed := rfl, outcome := Or.inl ⟨_, _, rfl⟩
                gone := (by rintro ⟨_, ⟨⟩, _⟩), confirmed := fun _ => rfl }
      · rintro failure s' ⟨⟨error, rfl, hcertain⟩, hsame, haccounted⟩ error' ⟨⟩
        have hcoherent := coherent_unchanged hs hsame haccounted
        obtain ⟨_, _, rfl⟩ := hsame
        refine { coherent := hcoherent, closed := rfl, outcome := Or.inl ⟨_, _, rfl⟩, gone := ?_
                 confirmed := nofun }
        rintro ⟨raised, ⟨⟩, huncertain⟩
        exact absurd (hcertain.symm.trans huncertain) nofun
  | some body =>
      cases hblocked : s.blocked with
      | false =>
          rw [perform_locked hlocked]
          refine leads_transition hs hblocked ?_
          have hbody := leads_locked (hs.live hblocked) rfl hfresh hlocked
          -- the stage is no part of what a call reads
          have hhides : hides { s with stage := .none } request = hides s request := by
            cases request with
            | update datasourceId draft expected => cases draft <;> rfl
            | create | setEnabled | rotateSecret | remove | testDraft | testDatasource => rfl
          rwa [hhides] at hbody
      | true =>
          obtain ⟨error, herror, hperform⟩ := perform_blocked hblocked hlocked
          rw [Leads, hperform]
          rintro error' ⟨⟩
          refine { coherent := coherent_unchanged hs ⟨_, _, rfl⟩ hs.accounted, closed := rfl
                   outcome := Or.inl ⟨_, _, rfl⟩, gone := ?_, confirmed := nofun }
          rintro ⟨raised, ⟨⟩, huncertain⟩
          rcases herror with rfl | rfl <;> cases huncertain

/-! ### What a call does to the records -/

/-- The records after a call: those it is not about, the next revision of the one it is about, or a
new one under the id that was drawn. -/
theorem records_of_moved {request : Request v} {store store' : CatalogStore v}
    (h : Moved crypto (Serves env request) store store') :
    ∃ operation, Serves env request operation ∧ ∀ record ∈ store'.records,
      (record ∈ store.records ∧ Operation.touches operation record.1.id = false) ∨
      (∃ old ∈ store.records, old.1.id = record.1.id ∧
        record.1.revision = old.1.revision + 1) ∨
      request.draws env = some record.1.id := by
  obtain ⟨operation, change, hserves, -, hchange, rfl⟩ := h
  refine ⟨operation, hserves, fun record hrecord => ?_⟩
  rw [mem_committed] at hrecord
  cases hserves with
  | create draft' resolved nonce =>
      simp only [Operation.change, CatalogStore.create, bind_eq_ok, pure_eq_ok] at hchange
      obtain ⟨-, -, -, -, _, -, envelope, -, draft', -, rfl⟩ := hchange
      rcases List.mem_append.mp hrecord with hmem | hmem
      · by_cases hid : record.1.id = env.datasourceId.1
        · exact Or.inr (Or.inr (congrArg some hid.symm))
        · exact Or.inl ⟨hmem, beq_eq_false_iff_ne.mpr hid⟩
      · rw [List.mem_singleton.mp hmem]
        exact Or.inr (Or.inr rfl)
  | update draft' expectedRevision resolved nonce | setEnabled draft' expectedRevision resolved nonce =>
      simp only [Operation.change, CatalogStore.update, bind_eq_ok, pure_eq_ok] at hchange
      obtain ⟨-, -, current, hcurrent, -, -, _, -, _, -, envelope, -, draft', -, rfl⟩ := hchange
      obtain ⟨hmem, hid⟩ := getRecord_ok hcurrent
      rcases mem_replaceRecord.mp hrecord with ⟨hold, hne⟩ | ⟨rfl, -⟩
      · exact Or.inl ⟨hold, beq_eq_false_iff_ne.mpr fun heq => hne (heq.trans hid.symm)⟩
      · exact Or.inr (Or.inl ⟨current, hmem, rfl, rfl⟩)
  | rotateSecret expectedRevision nonce =>
      simp only [Operation.change, CatalogStore.rotateSecret, bind_eq_ok, pure_eq_ok] at hchange
      obtain ⟨-, -, current, hcurrent, envelope, -, rfl⟩ := hchange
      obtain ⟨hmem, hid⟩ := getRecord_ok hcurrent
      rcases mem_replaceRecord.mp hrecord with ⟨hold, hne⟩ | ⟨rfl, -⟩
      · exact Or.inl ⟨hold, beq_eq_false_iff_ne.mpr fun heq => hne (heq.trans hid.symm)⟩
      · exact Or.inr (Or.inl ⟨current, hmem, rfl, rfl⟩)
  | remove expectedRevision =>
      simp only [Operation.change, CatalogStore.remove, bind_eq_ok, pure_eq_ok] at hchange
      obtain ⟨-, -, _, -, rfl⟩ := hchange
      obtain ⟨hold, hne⟩ := List.mem_filter.mp hrecord
      exact Or.inl ⟨hold, beq_eq_false_iff_ne.mpr (by simpa using hne)⟩

/-- The same for a call, however it ends. -/
theorem Ended.records {request : Request v} {error : Option ServiceError}
    (h : Ended crypto limits (Serves env request) (hides s request) s error s') :
    ∀ record ∈ s'.store.records, record ∈ s.store.records ∨
      (∃ old ∈ s.store.records, old.1.id = record.1.id ∧
        record.1.revision = old.1.revision + 1) ∨
      request.draws env = some record.1.id := by
  intro record hrecord
  rcases h.outcome with ⟨_, _, rfl⟩ | ⟨hstore | hmoved, -⟩
  · exact Or.inl hrecord
  · rw [hstore] at hrecord
    exact Or.inl hrecord
  · obtain ⟨_, -, hrecords⟩ := records_of_moved hmoved
    exact (hrecords record hrecord).imp_left fun h => h.1

/-! ### Runs -/

/-- The invariant of a run. -/
structure Sound (crypto : Crypto) (limits : RegistryLimits) (s : System v) : Prop where
  coherent : Coherent crypto limits s.service
  used : ∀ record ∈ s.service.store.records, record.1.id ∈ s.used

/-- What an event does: a call ends, or sessions move, or the service is closed or blocked. -/
inductive Happened (crypto : Crypto) (limits : RegistryLimits) (s : System v) : System v → Prop
  | called (env : Surroundings) (request : Request v) (error : Option ServiceError)
      (service : Service v)
      (hdrawn : ∀ id ∈ request.draws env, id ∉ s.used)
      (hended : Ended crypto limits (Serves env request) (hides s.service request) s.service error
        service) :
      Happened crypto limits s ⟨service, (request.draws env).toList ++ s.used⟩
  | sessions (reg : DatasourceRegistry) (haccounted : Accounted limits reg)
      (hpublished : reg.published = s.service.registry.published) :
      Happened crypto limits s { s with service := { s.service with registry := reg } }
  | blocked : Happened crypto limits s { s with service := s.service.block }
  | closed : Happened crypto limits s { s with service := { s.service with closed := true } }

/-- The sections of a session leave the dict alone. -/
theorem section_published {event : Event v} {e : Section} {reg reg' : DatasourceRegistry}
    (he : event.section? = some e) (h : Runtime.Datasources.step reg e = some reg') :
    reg'.published = reg.published := by
  cases event with
  | openSession alias_ =>
      obtain rfl := Option.some.inj he
      simp only [Runtime.Datasources.step] at h
      split at h
      · rw [← Option.some.inj h]
      · rename_i id reg₁ hopen
        obtain ⟨g, -, -, -, -, -, -, -, rfl⟩ := openSession_ok hopen
        rw [← Option.some.inj h]
        rfl
  | release id =>
      obtain rfl := Option.some.inj he
      simp only [Runtime.Datasources.step, Option.map_eq_some_iff] at h
      obtain ⟨lease, -, rfl⟩ := h
      rw [Runtime.Datasources.release]
      split
      · rfl
      · exact takeClosable_published _ _
  | dispose g =>
      obtain rfl := Option.some.inj he
      simp only [Runtime.Datasources.step] at h
      split at h
      · rw [← Option.some.inj h]
        rfl
      · cases h
  | beginShutdown =>
      obtain rfl := Option.some.inj he
      rw [← Option.some.inj h]
      rfl
  | request | blockUnknown | close => cases he

/-- What a call of a run does. -/
theorem ended_of_step {s s' : System v} {env : Surroundings} {request : Request v}
    (hs : Sound crypto limits s)
    (h : Runtime.DatasourceService.step crypto s (.request env request) = some s') :
    (∀ id ∈ request.draws env, id ∉ s.used) ∧ ∃ error service,
      s' = ⟨service, (request.draws env).toList ++ s.used⟩ ∧
      Ended crypto limits (Serves env request) (hides s.service request) s.service error service := by
  simp only [Runtime.DatasourceService.step] at h
  split at h
  · cases h
  · rename_i hfresh
    have hdrawn : ∀ id ∈ request.draws env, id ∉ s.used := fun id hid hin => hfresh ⟨id, hid, hin⟩
    have hends := @leads_perform v crypto limits env s.service request hs.coherent
      fun id hid record hrecord heq => hdrawn id hid (heq ▸ hs.used record hrecord)
    refine ⟨hdrawn, ?_⟩
    split at h
    · rename_i answer service hrun
      exact ⟨none, service, (Option.some.inj h).symm, hends.of_ok hrun⟩
    · rename_i error service hrun
      exact ⟨some error, service, (Option.some.inj h).symm, hends.of_error hrun error rfl⟩
    · cases h

/-- **What an event of a run does.** -/
theorem happened_of_step {s s' : System v} {event : Event v} (hs : Sound crypto limits s)
    (h : Runtime.DatasourceService.step crypto s event = some s') :
    Happened crypto limits s s' := by
  have hsection : ∀ (event : Event v) {e : Section}, event.section? = some e →
      ((event.section?.bind (Runtime.Datasources.step s.service.registry)).map fun reg =>
        { s with service := { s.service with registry := reg } }) = some s' →
      Happened crypto limits s s' := by
    intro event e he h
    rw [he, Option.map_eq_some_iff] at h
    obtain ⟨reg, hreg, rfl⟩ := h
    exact .sessions reg (accounted_step hs.coherent.accounted hreg) (section_published he hreg)
  cases event with
  | request env request =>
      obtain ⟨hdrawn, error, service, rfl, hended⟩ := ended_of_step hs h
      exact .called env request error service hdrawn hended
  | blockUnknown =>
      rw [← Option.some.inj h]
      exact .blocked
  | close =>
      rw [← Option.some.inj h]
      exact .closed
  | openSession alias_ => exact hsection (.openSession alias_) rfl h
  | release id => exact hsection (.release id) rfl h
  | dispose g => exact hsection (.dispose g) rfl h
  | beginShutdown => exact hsection .beginShutdown rfl h

/-- Every event keeps the invariant. -/
theorem sound_happened {s s' : System v} (hs : Sound crypto limits s)
    (h : Happened crypto limits s s') : Sound crypto limits s' := by
  have hc := hs.coherent
  cases h with
  | called env request error service hdrawn hended =>
      refine ⟨hended.coherent, fun record hrecord => ?_⟩
      rw [List.mem_append]
      rcases hended.records record hrecord with hold | ⟨old, hold, hid, -⟩ | hdraws
      · exact Or.inr (hs.used record hold)
      · rw [← hid]
        exact Or.inr (hs.used old hold)
      · rw [hdraws]
        exact Or.inl (List.mem_singleton.mpr rfl)
  | sessions reg haccounted hpublished =>
      have hview : viewOf s.service.store reg = viewOf s.service.store s.service.registry := by
        rw [viewOf, viewOf, statusPublished, statusPublished, hpublished]
      refine ⟨?_, hs.used⟩
      exact { open_ := hc.open_, agrees := hc.agrees, accounted := haccounted
              poisoned := hc.poisoned, unseen := hc.unseen, marked := hc.marked
              shows := fun h => (publishedSet_congr hpublished).trans (hc.shows h)
              view := fun h => (hc.view h).trans (congrArg some hview.symm) }
  | blocked =>
      refine ⟨?_, hs.used⟩
      exact { open_ := hc.open_, agrees := hc.agrees, accounted := hc.accounted
              poisoned := fun _ => rfl, unseen := fun _ => rfl, marked := rfl, shows := nofun
              view := nofun }
  | closed =>
      refine ⟨?_, hs.used⟩
      exact { open_ := hc.open_, agrees := hc.agrees, accounted := hc.accounted
              poisoned := hc.poisoned, unseen := hc.unseen, marked := hc.marked
              shows := hc.shows, view := hc.view }

/-- **The invariant holds along every run.** -/
theorem sound_run {s s' : System v} {events : List (Event v)} (hs : Sound crypto limits s)
    (hrun : run (Runtime.DatasourceService.step crypto) s events = some s') :
    Sound crypto limits s' :=
  run_invariant (fun hs hstep => sound_happened hs (happened_of_step hs hstep)) hrun hs

/-! ### The start -/

/-- One record of the loop of `open_datasource_runtime`. -/
theorem leads_publishOne {record : CatalogRecord v} {secret : Name} (hs : Sane crypto limits s) :
    Leads (reserving env record.1.id (some record.1.id) true fun reservation => do
        let candidate ← reading (build env (.fromRecord record.1 secret))
        publishRecord env reservation candidate.prepared record)
      s
      (fun _ s' => ∃ reg, s' = { s with registry := reg } ∧ Accounted limits reg ∧
        publishedSet reg = without (publishedSet s.registry) record.1.id ∪
          {(record.1.id, record.1.alias_, record.1.revision)})
      (fun _ _ => True) := by
  refine leads_bind (leads_take fun _ => trivial) ?_
  rintro id s₁ ⟨reg, hreserve, rfl⟩
  obtain ⟨haccounted, hpublished, -⟩ := @giveBack_reserve v limits _ _ _ _ _ _ hs.accounted hreserve
  refine leads_ensuring (leads_bind (P := fun _ s₁ => s₁ = { s with registry := reg }) ?_ ?_)
  · exact leads_reading (fun _ _ => rfl) fun _ _ => trivial
  · rintro candidate s₁ rfl
    refine (leads_publishRecord haccounted).imp ?_ fun _ _ _ => trivial
    rintro - s₂ ⟨reg', rfl, haccounted', hset⟩
    obtain ⟨reg'', hgive, haccounted'', hsame⟩ :=
      giveBack_spec (s := { s with registry := reg' }) haccounted' id
    refine ⟨reg'', hgive, haccounted'', ?_⟩
    rw [publishedSet_congr hsame, hset, publishedSet_congr hpublished]

/-- The loop of `open_datasource_runtime` publishes the records it has passed. -/
theorem leads_publishEnabled {env : Name → Surroundings} {records : List (CatalogRecord v)} :
    ∀ {done : List (CatalogRecord v)} {s : Service v}, Sane crypto limits s →
      ((done ++ records).map fun record => record.1.id).Nodup →
      publishedSet s.registry = enabledSet done →
      Leads (publishEnabled crypto env records) s
        (fun _ s' => ∃ reg, s' = { s with registry := reg } ∧ Accounted limits reg ∧
          publishedSet reg = enabledSet (done ++ records))
        (fun _ _ => True) := by
  induction records with
  | nil =>
      intro done s hs _ hset
      refine leads_pure ⟨s.registry, rfl, hs.accounted, ?_⟩
      rw [hset, List.append_nil]
  | cons record rest ih =>
      intro done s hs hnodup hset
      rw [List.append_cons] at hnodup
      -- the ids are distinct, so nothing of this one is published yet
      have hfresh : ∀ other ∈ done, other.1.id ≠ record.1.id := by
        rw [List.map_append, List.map_append] at hnodup
        have hpart := (List.nodup_append.mp hnodup).1
        intro other hother
        exact (List.nodup_append.mp hpart).2.2 _ (List.mem_map_of_mem hother) _ (by simp)
      have hrest : ∀ s' : Service v, (∃ reg, s' = { s with registry := reg } ∧ Accounted limits reg ∧
            publishedSet reg = enabledSet (done ++ [record])) →
          Leads (publishEnabled crypto env rest) s'
            (fun _ s' => ∃ reg, s' = { s with registry := reg } ∧ Accounted limits reg ∧
              publishedSet reg = enabledSet (done ++ record :: rest))
            (fun _ _ => True) := by
        rintro s' ⟨reg, rfl, haccounted, hset'⟩
        rw [List.append_cons]
        exact ih ⟨hs.open_, hs.agrees, haccounted⟩ hnodup hset'
      rw [publishEnabled]
      cases henabled : record.1.enabled with
      | true =>
          simp only [if_true]
          refine leads_bind (P := fun _ s' => s' = s)
            (leads_reading (fun _ _ => rfl) fun _ _ => trivial) ?_
          rintro secret s' rfl
          refine leads_bind (P := fun _ s₁ => ∃ reg, s₁ = { s' with registry := reg } ∧
            Accounted limits reg ∧ publishedSet reg = enabledSet (done ++ [record]))
            ((leads_publishOne hs).imp ?_ fun _ _ h => h) fun _ s₁ h => hrest s₁ h
          rintro - s₁ ⟨reg, rfl, haccounted, hset'⟩
          refine ⟨reg, rfl, haccounted, ?_⟩
          rw [enabledSet_append hfresh, shown_of_enabled henabled, hset', hset]
      | false =>
          simp only [Bool.false_eq_true, if_false]
          refine hrest s ⟨s.registry, rfl, hs.accounted, ?_⟩
          rw [enabledSet_append hfresh, shown_of_disabled henabled, Set.union_empty, hset]
          refine (without_of_not_shown ?_).symm
          rintro t ⟨other, hother, -, rfl⟩
          exact hfresh other hother

/-- The first state of a run. -/
def System.start (service : Service v) : System v :=
  ⟨service, service.store.records.map fun record => record.1.id⟩

/-- **A service starts in step.** -/
theorem sound_start {disk : Disk} {key : Key} {faults : Faults} {env : Name → Surroundings}
    {service : Service v}
    (h : openDatasourceRuntime crypto limits disk key faults env = some service) :
    Sound crypto limits (System.start service) := by
  rw [openDatasourceRuntime] at h
  split at h
  · rename_i disk' store hopen
    obtain ⟨hagrees, husable, hclosed, -⟩ := agrees_open hopen
    have hsane : Sane crypto limits (Service.mk (v := v) disk' store { limits := limits } .none false
        false false none) := ⟨hclosed, fun _ => hagrees, accounted_new limits⟩
    have hempty : publishedSet ({ limits := limits } : DatasourceRegistry) =
        enabledSet ([] : List (CatalogRecord v)) := by
      ext t
      simp [publishedSet, enabledSet]
    have hloop := @leads_publishEnabled v crypto limits env store.records [] _ hsane hagrees.distinct.ids hempty
    split at h
    · rename_i s hrun
      obtain ⟨reg, rfl, haccounted, hset⟩ := hloop.of_ok hrun
      have hseal : (Service.mk (v := v) disk' store reg .none false false false none).seal =
          .ok (viewOf store reg) := by
        rw [Service.seal, ensureOpen_ok hclosed husable]
        rfl
      simp only [hseal, Except.toOption, Option.map_some, Option.some.injEq] at h
      subst h
      refine ⟨?_, fun record hrecord => List.mem_map_of_mem hrecord⟩
      exact { open_ := hclosed, agrees := fun _ => hagrees, accounted := haccounted
              poisoned := fun h => absurd (husable.symm.trans h) Bool.false_ne_true, unseen := (by intros; contradiction)
              marked := rfl, shows := fun _ => hset, view := fun _ => rfl }
    · cases h
  · cases h

/-! ### Blocked for ever -/

/-- A blocked service stays blocked. -/
theorem blocked_happened {s s' : System v} (hblocked : s.service.blocked = true)
    (h : Happened crypto limits s s') : s'.service.blocked = true := by
  cases h with
  | called env request error service hdrawn hended =>
      rcases hended.outcome with ⟨_, _, rfl⟩ | ⟨-, hout⟩
      · exact hblocked
      · cases error with
        | none => exact (hended.confirmed rfl).trans hblocked
        | some error => exact hout
  | sessions => exact hblocked
  | blocked => rfl
  | closed => exact hblocked

theorem blocked_run {s s' : System v} {events : List (Event v)} (hs : Sound crypto limits s)
    (hblocked : s.service.blocked = true)
    (hrun : run (Runtime.DatasourceService.step crypto) s events = some s') :
    s'.service.blocked = true := by
  refine (run_invariant (P := fun s => Sound crypto limits s ∧ s.service.blocked = true) ?_ hrun
    ⟨hs, hblocked⟩).2
  rintro s s' e ⟨hs, hblocked⟩ hstep
  have hhappened := happened_of_step hs hstep
  exact ⟨sound_happened hs hhappened, blocked_happened hblocked hhappened⟩

/-! ### Revisions are spent once -/

/-- The datasource and the revision of it that a call is for. -/
def carries : Request v → Option (Name × Int)
  | .update datasourceId _ expected | .setEnabled datasourceId _ expected
  | .rotateSecret datasourceId _ expected | .remove datasourceId expected _ =>
      expected.datasourceRevision.map fun revision => (datasourceId, revision)
  | _ => none

/-- The revision that `_guard` lets pass. -/
theorem guard_ok {datasourceId : Name} {expected : Expected} {revision catalogRevision : Int}
    (hexpected : expected.datasourceRevision = some revision)
    (h : Runtime.DatasourceService.guard datasourceId expected s = .ok catalogRevision) :
    ∃ record ∈ s.store.records, record.1.id = datasourceId ∧ (record.1.revision : Int) = revision := by
  simp only [Runtime.DatasourceService.guard, hexpected] at h
  split at h
  · cases (‹some revision = none›)
  · rename_i revision' _ hrevision
    obtain rfl := Option.some.inj hrevision
    simp only [bind_eq_ok, refuseIf_eq_ok, not_not] at h
    obtain ⟨current, hcurrent, -, hsame, -⟩ := h
    have hfound := get_ok hcurrent
    exact ⟨current, List.mem_of_find?_eq_some hfound, by simpa using List.find?_some hfound, hsame⟩
  · cases h

/-- A transition that returns. -/
theorem transition_ok {body : Call v (Answer v)} {answer : Answer v}
    (h : transition env body s = .ok answer s') :
    ∃ s₁, body { s with stage := .none } = .ok answer s₁ := by
  rw [transition] at h
  cases hrun : body { s with stage := .none } with
  | error failure s₁ =>
      rw [hrun] at h
      cases failure <;> cases h
  | ok answer' s₁ =>
      simp only [hrun] at h
      refine ⟨s₁, congrArg (EStateM.Result.ok · s₁) ?_⟩
      split at h
      · exact (EStateM.Result.ok.inj h).1
      · split at h
        · split at h
          · cases h
          · exact (EStateM.Result.ok.inj h).1
        · cases h

/-- A call that succeeds was for the current revision. -/
theorem carries_current {request : Request v} {datasourceId : Name} {revision : Int}
    {answer : Answer v} (hcarries : carries request = some (datasourceId, revision))
    (h : request.perform crypto env s = .ok answer s') :
    ∃ record ∈ s.store.records, record.1.id = datasourceId ∧
      (record.1.revision : Int) = revision := by
  -- all four calls pass `_ensure_open` and `_guard` first
  have hguard : ∀ {expected : Expected} {k : Int → Call v (Answer v)},
      expected.datasourceRevision = some revision →
      transition env (reading (ensureOpen false) >>= fun _ =>
        reading (Runtime.DatasourceService.guard datasourceId expected) >>= k) s = .ok answer s' →
      ∃ record ∈ s.store.records, record.1.id = datasourceId ∧
        (record.1.revision : Int) = revision := by
    intro expected k hexpected h
    obtain ⟨s₁, hbody⟩ := transition_ok h
    obtain ⟨_, -, hrest⟩ := reading_bind_ok hbody
    obtain ⟨_, hguard, -⟩ := reading_bind_ok hrest
    exact guard_ok hexpected hguard
  cases request with
  | update id draft expected | setEnabled id draft expected | rotateSecret id draft expected
  | remove id expected draft =>
      simp only [carries, Option.map_eq_some_iff, Prod.mk.injEq] at hcarries
      obtain ⟨_, hexpected, rfl, rfl⟩ := hcarries
      exact hguard hexpected h
  | create | testDraft | testDatasource => cases hcarries

/-- What carries a revision is about its datasource. -/
theorem touches_of_carries {request : Request v} {operation : Operation v} {datasourceId : Name}
    {revision : Int} (hcarries : carries request = some (datasourceId, revision))
    (h : Serves env request operation) : Operation.touches operation datasourceId = true := by
  cases h with
  | create => cases hcarries
  | update | setEnabled | rotateSecret | remove =>
      simp only [carries, Option.map_eq_some_iff, Prod.mk.injEq] at hcarries
      obtain ⟨_, -, rfl, -⟩ := hcarries
      exact beq_self_eq_true _

/-- The id was in use, and no record of it is at the revision or before it. -/
def Past (datasourceId : Name) (revision : Int) (s : System v) : Prop :=
  datasourceId ∈ s.used ∧
    ∀ record ∈ s.service.store.records, record.1.id = datasourceId → revision < record.1.revision

/-- Revisions only grow, and an id does not come back. -/
theorem past_happened {s s' : System v} {datasourceId : Name} {revision : Int}
    (hpast : Past datasourceId revision s) (h : Happened crypto limits s s') :
    Past datasourceId revision s' := by
  cases h with
  | called env request error service hdrawn hended =>
      refine ⟨List.mem_append_right _ hpast.1, fun record hrecord hid => ?_⟩
      rcases hended.records record hrecord with hold | ⟨old, hold, hsame, hnext⟩ | hdraws
      · exact hpast.2 record hold hid
      · have hbefore := hpast.2 old hold (hsame.trans hid)
        rw [hnext, Int.natCast_add, Int.natCast_one]
        omega
      · rw [hid] at hdraws
        exact absurd hpast.1 (hdrawn datasourceId hdraws)
  | sessions => exact hpast
  | blocked => exact hpast
  | closed => exact hpast

/-- A call that wrote puts its revision into the past. -/
theorem past_of_write {s : System v} {request : Request v} {datasourceId : Name} {revision : Int}
    {answer : Answer v} {service : Service v} (hs : Sound crypto limits s)
    (hcarries : carries request = some (datasourceId, revision))
    (h : request.perform crypto env s.service = .ok answer service)
    (hwrote : service.store.revision ≠ s.service.store.revision) :
    Sound crypto limits ⟨service, s.used⟩ ∧ Past datasourceId revision ⟨service, s.used⟩ := by
  have hdraws : request.draws env = none := by
    cases request with
    | create => cases hcarries
    | update | setEnabled | rotateSecret | remove | testDraft | testDatasource => rfl
  have hended : Ended crypto limits (Serves env request) (hides s.service request) s.service none
      service := by
    refine (leads_perform hs.coherent ?_).of_ok h
    rw [hdraws]
    exact nofun
  have hsound : Sound crypto limits ⟨service, s.used⟩ := by
    have hout := sound_happened hs (.called env request none service (by rw [hdraws]; exact nofun)
      hended)
    rwa [hdraws] at hout
  obtain ⟨current, hcurrent, hid, hrevision⟩ := carries_current hcarries h
  refine ⟨hsound, hid ▸ hs.used current hcurrent, fun record hrecord hrecordId => ?_⟩
  rcases hended.outcome with ⟨_, _, rfl⟩ | ⟨hstore | hmoved, -⟩
  · exact absurd rfl hwrote
  · exact absurd (congrArg CatalogStore.revision hstore) hwrote
  · obtain ⟨operation, hserves, hrecords⟩ := records_of_moved hmoved
    rcases hrecords record hrecord with ⟨-, huntouched⟩ | ⟨old, hold, hsame, hnext⟩ | hdrawn
    · rw [hrecordId, touches_of_carries hcarries hserves] at huntouched
      cases huntouched
    · -- the record was at the revision that the call carried
      have hdistinct := (hs.coherent.agrees (by
        cases hpoisoned : s.service.store.poisoned with
        | false => rfl
        | true =>
            have hblocked := hs.coherent.poisoned hpoisoned
            obtain ⟨body, hbody⟩ : ∃ body, request.locked crypto env = some body := by
              cases request with
              | update | setEnabled | rotateSecret | remove => exact ⟨_, rfl⟩
              | create | testDraft | testDatasource => cases hcarries
            obtain ⟨error, -, hrefused⟩ := perform_blocked hblocked hbody
            rw [h] at hrefused
            cases hrefused)).distinct
      have hcurrentOld : old = current :=
        List.inj_on_of_nodup_map hdistinct.ids hold hcurrent
          ((hsame.trans hrecordId).trans hid.symm)
      rw [hnext, hcurrentOld, Int.natCast_add, Int.natCast_one]
      omega
    · rw [hdraws] at hdrawn
      cases hdrawn

/-- Once a call that carries a revision has written, no call that carries it succeeds. -/
theorem spent_run {s s' : System v} {events : List (Event v)} {request : Request v}
    {datasourceId : Name} {revision : Int} (hs : Sound crypto limits s)
    (hpast : Past datasourceId revision s)
    (hrun : run (Runtime.DatasourceService.step crypto) s events = some s')
    (hcarries : carries request = some (datasourceId, revision)) (answer : Answer v)
    (service : Service v) : request.perform crypto env s'.service ≠ .ok answer service := by
  intro h
  have hpast' := (run_invariant (P := fun s => Sound crypto limits s ∧ Past datasourceId revision s)
    (fun hs hstep => by
      have hhappened := happened_of_step hs.1 hstep
      exact ⟨sound_happened hs.1 hhappened, past_happened hs.2 hhappened⟩) hrun ⟨hs, hpast⟩).2
  obtain ⟨record, hrecord, hid, hrevision⟩ := carries_current hcarries h
  have hlater := hpast'.2 record hrecord hid
  rw [hrevision] at hlater
  exact Int.lt_irrefl _ hlater

/-! ### The guarantees -/

/-- The id that a call would draw is new. -/
def Drawn (s : System v) (env : Surroundings) (request : Request v) : Prop :=
  ∀ id ∈ request.draws env, id ∉ s.used

/-- The call raises, and has not come to `_persist`. A test never does. -/
def RaisesEarly (crypto : Crypto) (env : Surroundings) (request : Request v) (s : Service v) :
    Prop :=
  ∀ body, request.locked crypto env = some body →
    ∃ failure s₁, body { s with stage := .none } = .error failure s₁ ∧ s₁.stage = .none

/-- What a service promises between two calls. -/
structure Guarantees (crypto : Crypto) (s : System v) : Prop where
  /-- Unless the service is blocked, the registry publishes what the catalog enables, one generation
  each, the view is the two of them, and the catalog is what is on disk. -/
  inStep : s.service.blocked = false →
    publishedSet s.service.registry = enabledSet s.service.store.records ∧
    (s.service.registry.published.map fun entry => entry.2.datasourceId).Nodup ∧
    s.service.view = some (viewOf s.service.store s.service.registry) ∧
    readPair v crypto s.service.disk s.service.store.masterKey = .ok (inMemory s.service.store)
  /-- A call that raises before it began to persist changes nothing. -/
  early : ∀ (env : Surroundings) (request : Request v) (error : ServiceError) (service : Service v),
    Drawn s env request →
    request.perform crypto env s.service = .error (.raised error) service →
    RaisesEarly crypto env request s.service → Unchanged s.service service
  /-- A call that raises has changed nothing, or blocks the service. -/
  confirmed : ∀ (env : Surroundings) (request : Request v) (error : ServiceError)
      (service : Service v), Drawn s env request →
    request.perform crypto env s.service = .error (.raised error) service →
    Unchanged s.service service ∨ (service.blocked = true ∧ service.view = none)
  /-- A blocked service shows nothing and refuses every write, for ever. -/
  refused : s.service.blocked = true → ∀ (events : List (Event v)) (s' : System v),
    run (Runtime.DatasourceService.step crypto) s events = some s' →
    s'.service.blocked = true ∧ s'.service.view = none ∧
    ∀ (env : Surroundings) (request : Request v) (body : Call v (Answer v)),
      request.locked crypto env = some body →
      ∃ error, (error = .closed ∨ error = .blocked) ∧
        request.perform crypto env s'.service =
          .error (.raised error) { s'.service with stage := .none }
  /-- A disabling or a removal of uncertain outcome leaves the datasource unpublished. -/
  uncertain : ∀ (env : Surroundings) (request : Request v) (error : ServiceError)
      (service : Service v), Drawn s env request →
    request.perform crypto env s.service = .error (.raised error) service →
    error.uncertain = true → Gone (hides s.service request) service.registry
  /-- Of the calls that carry one revision of a datasource at most one writes, and none succeeds
  after it. -/
  once : ∀ (env : Surroundings) (request : Request v) (id : Name) (revision : Int)
      (answer : Answer v) (service : Service v), carries request = some (id, revision) →
    request.perform crypto env s.service = .ok answer service →
    service.store.revision ≠ s.service.store.revision →
    ∀ (events : List (Event v)) (s' : System v),
    run (Runtime.DatasourceService.step crypto) ⟨service, s.used⟩ events = some s' →
    ∀ (env' : Surroundings) (request' : Request v) (answer' : Answer v) (service' : Service v),
      carries request' = some (id, revision) →
      request'.perform crypto env' s'.service ≠ .ok answer' service'

/-- **Catalog, registry and view over whole runs.** -/
theorem service_guarantees {disk : Disk} {key : Key} {faults : Faults} {env : Name → Surroundings}
    {service : Service v} {events : List (Event v)} {s : System v}
    (hstart : openDatasourceRuntime crypto limits disk key faults env = some service)
    (hrun : run (Runtime.DatasourceService.step crypto) (System.start service) events = some s) :
    Guarantees crypto s := by
  have hs : Sound crypto limits s := sound_run (sound_start hstart) hrun
  have hends : ∀ {env request}, Drawn s env request → Leads (request.perform crypto env) s.service
      (fun _ => Ended crypto limits (Serves env request) (hides s.service request) s.service none)
      (fun failure s' => ∀ error, failure = .raised error → Ended crypto limits (Serves env request)
        (hides s.service request) s.service (some error) s') :=
    fun hdrawn => leads_perform hs.coherent
      fun id hid record hrecord heq => hdrawn id hid (heq ▸ hs.used record hrecord)
  have hconfirmed : ∀ env request error service', Drawn s env request →
      request.perform crypto env s.service = .error (.raised error) service' →
      Unchanged s.service service' ∨ (service'.blocked = true ∧ service'.view = none) := by
    intro env request error service' hdrawn hperform
    have hended := (hends hdrawn).of_error hperform error rfl
    exact hended.outcome.imp_right fun h => ⟨h.2, hended.coherent.unseen h.2⟩
  refine { inStep := ?_, early := ?_, confirmed := hconfirmed, refused := ?_, uncertain := ?_
           once := ?_ }
  · intro hblocked
    have husable := (hs.coherent.live hblocked).usable
    exact ⟨hs.coherent.shows hblocked, hs.coherent.accounted.kept.datasources_nodup,
      hs.coherent.view hblocked, (hs.coherent.agrees husable).reads⟩
  · intro env request error service' hdrawn hperform hearly
    cases hlocked : request.locked crypto env with
    | none =>
        obtain ⟨-, hsame, -⟩ := (leads_test hs.coherent.accounted hlocked).of_error hperform
        exact hsame
    | some body =>
        obtain ⟨failure, s₁, hbody, hnone⟩ := hearly body hlocked
        cases hblocked : s.service.blocked with
        | true =>
            obtain ⟨_, -, hrefused⟩ := perform_blocked hblocked hlocked
            rw [hrefused] at hperform
            rw [← (EStateM.Result.error.inj hperform).2]
            exact ⟨_, _, rfl⟩
        | false =>
            have hfailed := (leads_locked (hs.coherent.live hblocked) rfl
              (fun id hid record hrecord heq => hdrawn id hid (heq ▸ hs.used record hrecord))
              hlocked).of_error hbody
            rw [perform_locked hlocked, transition, hbody] at hperform
            cases failure with
            | stopped => cases hperform
            | raised raised =>
                rcases hfailed with ⟨hsame, -⟩ | hdoomed
                · simp only [hnone, reduceCtorEq, false_and, or_self, if_false] at hperform
                  rw [← (EStateM.Result.error.inj hperform).2]
                  exact hsame.stage .none
                · -- an effect that the transition answers by blocking is past the first stage
                  have hlate := hdoomed.stage
                  rw [hnone] at hlate
                  rcases hlate with hlate | ⟨hlate, -⟩ <;> cases hlate
  · intro hblocked events' s' hrun'
    have hs' := sound_run hs hrun'
    have hblocked' := blocked_run hs hblocked hrun'
    exact ⟨hblocked', hs'.coherent.unseen hblocked', fun env request body hbody =>
      perform_blocked hblocked' hbody⟩
  · intro env request error service' hdrawn hperform huncertain
    exact ((hends hdrawn).of_error hperform error rfl).gone ⟨error, rfl, huncertain⟩
  · intro env request id revision answer service' hcarries hperform hwrote events' s' hrun' env'
      request' answer' service'' hcarries'
    obtain ⟨hsound, hpast⟩ := past_of_write hs hcarries hperform hwrote
    exact spent_run hsound hpast hrun' hcarries' answer' service''

end

/-! ### A service with one datasource -/

/-- What `ipaddress` says of the one address. -/
def crmNet : Addressing where
  canonical text := if text = "10.0.0.5".toList then some text else none
  isLoopback _ := false
  isUnspecified _ := false
  isLinkLocal _ := false
  isMulticast _ := false
  isPrivate _ := true
  isGlobal _ := false

/-- A resolver that knows the address, and a server that keeps what it promises. -/
def crmSurroundings : Surroundings where
  net := crmNet
  answers _ _ := .ok ["10.0.0.5".toList]
  compiles _ _ := true
  verify _ := .ok ()
  datasourceId := crmId
  nonce := ⟨List.replicate 12 0, length_zeroNonce⟩

/-- The files of an empty catalog. -/
def crmDisk : Disk := (initializeStore crmValidators crmCrypto emptyDisk (constantKey 0) {}).1

/-- The limits of the registry, as they are by default. -/
def plainLimits : RegistryLimits := {}

/-- A service over the empty catalog. -/
def crmStart : Option (Service crmValidators) :=
  openDatasourceRuntime crmCrypto plainLimits crmDisk (constantKey 0) {} fun _ => crmSurroundings

/-- `create` of the datasource. -/
def crmCreated : List (Event crmValidators) :=
  [.request crmSurroundings (.create (crmDraft true) "pw".toList 1)]

/-- After `create` one generation is published, and the guarantees hold. -/
theorem service_guarantees_created :
    ∃ service s, crmStart = some service ∧
      run (Runtime.DatasourceService.step crmCrypto) (System.start service) crmCreated = some s ∧
      s.service.blocked = false ∧ s.service.registry.published.length = 1 ∧
      Guarantees crmCrypto s := by
  have hreached : ∃ s, (crmStart.bind fun service =>
      run (Runtime.DatasourceService.step crmCrypto) (System.start service) crmCreated) = some s ∧
      s.service.blocked = false ∧ s.service.registry.published.length = 1 := ⟨_, rfl, rfl, rfl⟩
  obtain ⟨s, hs, hblocked, hlength⟩ := hreached
  obtain ⟨service, hstart, hrun⟩ := Option.bind_eq_some_iff.mp hs
  exact ⟨service, s, hstart, hrun, hblocked, hlength, service_guarantees hstart hrun⟩

/-- `set_enabled` to the state that is in effect. -/
def keepEnabled : Request crmValidators :=
  .setEnabled crmId.1 true { datasourceRevision := some 1 }

/-- The service after `keepEnabled`, where it succeeds. -/
def kept (service : Service crmValidators) : Option (Answer crmValidators × Service crmValidators) :=
  match keepEnabled.perform crmCrypto crmSurroundings service with
  | .ok answer service => some (answer, service)
  | .error _ _ => none

theorem kept_eq_some {service service' : Service crmValidators} {answer : Answer crmValidators}
    (h : kept service = some (answer, service')) :
    keepEnabled.perform crmCrypto crmSurroundings service = .ok answer service' := by
  rw [kept] at h
  split at h
  · rename_i hrun
    obtain ⟨rfl, rfl⟩ := Prod.mk.inj (Option.some.inj h)
    exact hrun
  · cases h

/-- It writes nothing, and succeeds twice with one and the same expected revision. -/
theorem keepEnabled_succeeds_twice :
    ∃ service s answer₁ service₁ answer₂ service₂, crmStart = some service ∧
      run (Runtime.DatasourceService.step crmCrypto) (System.start service) crmCreated = some s ∧
      carries keepEnabled = some (crmId.1, 1) ∧
      keepEnabled.perform crmCrypto crmSurroundings s.service = .ok answer₁ service₁ ∧
      keepEnabled.perform crmCrypto crmSurroundings service₁ = .ok answer₂ service₂ := by
  have htwice : ∃ last, (crmStart.bind fun service =>
      (run (Runtime.DatasourceService.step crmCrypto) (System.start service) crmCreated).bind
        fun s => (kept s.service).bind fun first => kept first.2) = some last := ⟨_, rfl⟩
  obtain ⟨last, hlast⟩ := htwice
  obtain ⟨service, hstart, hlast⟩ := Option.bind_eq_some_iff.mp hlast
  obtain ⟨s, hrun, hlast⟩ := Option.bind_eq_some_iff.mp hlast
  obtain ⟨first, hfirst, hlast⟩ := Option.bind_eq_some_iff.mp hlast
  exact ⟨service, s, first.1, first.2, last.1, last.2, hstart, hrun, rfl, kept_eq_some hfirst,
    kept_eq_some hlast⟩

end MaskGateway.Proofs.DatasourceService
