import MaskGateway.Proofs.Runtime.DatasourceSafety

/-!
# `MaskGateway.Proofs.Runtime.DatasourceLifecycle`: generations and leases over whole runs

Every action of a thread is made of moves (`moves_of_step`), so what every move keeps holds along
every run. `Later` adds what never changes back: the generations that were published, the
generation of a lease and the end of admission. `generation_lifecycle` puts the parts together.

`close` of the registry can return while another thread has a generation left to dispose of: the
mark is set under the lock and `_dispose()` is called after it. `close_returns_before_disposal` is
such a run.
-/

set_option autoImplicit false

namespace MaskGateway.Proofs.DatasourceThreads

open MaskGateway.Lib
open MaskGateway.Runtime.Datasources hiding step
open MaskGateway.Runtime.DatasourceThreads
open MaskGateway.Proofs.Datasources

/-! ### An action is made of moves -/

section actions

variable {limits : RegistryLimits} {s : System} {t : ThreadId} {id : LeaseId}

/-- Going somewhere and then to close a lease is going to close it. -/
theorem startClose_goto (s : System) (t : ThreadId) (id : LeaseId) (p : Pc) (next : Next) :
    (s.goto t p).startClose t id next = s.startClose t id next := by
  simp only [System.startClose, System.goto, System.setSession, Function.update_idem]

/-- `_close_locked` by the holder of the lock. -/
theorem moves_startClose {next : Next} (hheld : held (s.pc t) = some id)
    (hquiet : Quiet (s.pc t)) (hshutting : decide (next ≠ .done) = shutting (s.pc t))
    (htodo : nextTodo next ⊆ todo (s.pc t)) :
    Moves limits t s (s.startClose t id next) := by
  rw [System.startClose]
  split
  · exact .single (.goto hquiet ⟨rfl, rfl⟩ ⟨hheld.symm, hshutting⟩ htodo (fun _ h => nomatch h))
  · rename_i hopen
    exact .single (.beginClose hheld hquiet (by simpa using hopen) hshutting htodo)

/-- Taking a lease's lock that is free, and closing the lease. -/
theorem moves_take_startClose {next : Next} (terminating : Bool)
    (hfree : (s.session id).lock = none) (hknown : id < s.registry.leases.length)
    (hheld : held (s.pc t) = none) (hquiet : Quiet (s.pc t))
    (hshutting : decide (next ≠ .done) = shutting (s.pc t))
    (htodo : nextTodo next ⊆ todo (s.pc t)) :
    Moves limits t s ((s.setSession id
      { s.session id with lock := some t, terminating := terminating }).startClose t id next) := by
  have htake : Move limits t s ((s.setSession id
      { s.session id with lock := some t, terminating := terminating }).goto t
        (.unlocking id next)) :=
    .take terminating hfree hknown hheld hquiet ⟨rfl, rfl⟩ rfl hshutting htodo
  rw [← startClose_goto _ t id (.unlocking id next)]
  refine .head htake ?_
  have hpc : ((s.setSession id
      { s.session id with lock := some t, terminating := terminating }).goto t
        (.unlocking id next)).pc t = .unlocking id next := Function.update_self ..
  exact moves_startClose (by rw [hpc]; rfl) (by rw [hpc]; exact ⟨rfl, rfl⟩) (by rw [hpc]; rfl)
    (by rw [hpc]; exact fun _ h => h)

/-- A section of the registry after which the thread is at rest again. -/
theorem moves_touch {reg' : DatasourceRegistry} (hpc : s.pc t = .idle)
    (htouched : Touched s.registry reg' []) (hleases : reg'.leases = s.registry.leases)
    (haccounted : Accounted limits s.registry → Accounted limits reg') :
    Moves limits t s { s with registry := reg' } := by
  have htouch : Move limits t s { s with
      registry := reg', pc := Function.update s.pc t .idle } :=
    .touch hpc htouched hleases haccounted rfl rfl (by rw [hpc]; exact ⟨rfl, rfl⟩) rfl
  rw [← hpc, Function.update_eq_self] at htouch
  exact .single htouch

/-- A section of the registry that may have a generation to dispose of. -/
theorem moves_afterSection {reg' : DatasourceRegistry} {toClose : Option Generation}
    (hpc : s.pc t = .idle) (htouched : Touched s.registry reg' toClose.toList)
    (hleases : reg'.leases = s.registry.leases)
    (haccounted : Accounted limits s.registry → Accounted limits reg') :
    Moves limits t s ({ s with registry := reg' }.goto t (afterSection toClose)) := by
  refine .single (.touch hpc htouched hleases haccounted ?_ ?_ ?_ ?_)
  · cases toClose <;> rfl
  · cases toClose <;> rfl
  · rw [hpc]
    cases toClose <;> exact ⟨rfl, rfl⟩
  · cases toClose <;> rfl

/-- What a thread at rest does is made of moves. -/
theorem moves_of_stepIdle {s' : System} {a : Action} (hs : Sound limits s)
    (hpc : s.pc t = .idle) (h : stepIdle s t a = some s') : Moves limits t s s' := by
  have hheld : held (s.pc t) = none := by rw [hpc]; rfl
  have hquiet : Quiet (s.pc t) := by rw [hpc]; exact ⟨rfl, rfl⟩
  have hdone : decide (Next.done ≠ .done) = shutting (s.pc t) := by rw [hpc]; rfl
  cases a with
  | reserve key datasourceId publish =>
      simp only [stepIdle] at h
      split at h
      · obtain rfl := Option.some.inj h
        exact .refl
      · rename_i rid reg' hout
        obtain rfl := Option.some.inj h
        have haccounted : Accounted limits s.registry → Accounted limits reg' := fun ha =>
          accounted_step (e := .reserve key datasourceId publish) ha (by
            simp only [MaskGateway.Runtime.Datasources.step, hout])
        obtain ⟨slot, -, -, rfl⟩ := reserve_ok hout
        exact moves_touch hpc (Touched.silent List.prefix_rfl (fun _ => rfl) (fun _ => rfl)
          (fun h => h) (fun h => h)) rfl haccounted
  | releaseReservation rid =>
      obtain ⟨r, hid, rfl⟩ := Option.map_eq_some_iff.mp h
      have haccounted : Accounted limits s.registry →
          Accounted limits (releaseReservation s.registry rid r) := fun ha =>
        accounted_step (e := .releaseReservation rid) ha (by
          rw [MaskGateway.Runtime.Datasources.step, hid]
          rfl)
      refine moves_touch hpc ?_ ?_ haccounted
      · rw [releaseReservation]
        split <;> exact Touched.silent List.prefix_rfl (fun _ => rfl) (fun _ => rfl)
          (fun h => h) (fun h => h)
      · rw [releaseReservation]
        split <;> rfl
  | publish rid datasourceId alias_ recordRevision prepared =>
      obtain ⟨r, hid, rfl⟩ := Option.map_eq_some_iff.mp h
      split
      · exact .refl
      · rename_i new toClose reg' hout
        simp only [publishAs, bind_eq_ok, refuseIf_eq_ok, exists_const] at hout
        obtain ⟨htouched, hleases⟩ := touched_publish hs.accounted hout.2
        exact moves_afterSection hpc htouched hleases (fun ha => accounted_publish ha hid hout.2)
  | withdraw datasourceId =>
      obtain rfl := Option.some.inj h
      obtain ⟨htouched, hleases⟩ := touched_withdraw hs.accounted datasourceId
      exact moves_afterSection hpc htouched hleases (fun ha => accounted_withdraw ha datasourceId)
  | beginShutdown =>
      obtain rfl := Option.some.inj h
      exact moves_touch hpc (Touched.silent List.prefix_rfl (fun _ => rfl) (fun _ => rfl)
        (fun _ => rfl) (fun h => h)) rfl accounted_closing
  | openSession alias_ =>
      simp only [stepIdle] at h
      split at h
      · obtain rfl := Option.some.inj h
        exact .refl
      · rename_i hout
        obtain rfl := Option.some.inj h
        exact .single (.enroll hpc hout)
  | use id =>
      simp only [stepIdle] at h
      split at h
      · cases h
      · rename_i hfree
        rw [not_or, Nat.not_le] at hfree
        have hnone : (s.session id).lock = none := by simpa using hfree.1
        split at h
        · obtain rfl := Option.some.inj h
          exact moves_take_startClose (s.session id).terminating hnone hfree.2 hheld hquiet hdone
            (fun _ h => by cases h)
        · obtain rfl := Option.some.inj h
          exact .single (.take (s.session id).terminating hnone hfree.2 hheld hquiet ⟨rfl, rfl⟩
            rfl (by rw [hpc]; rfl) (fun _ h => by cases h))
  | closeLease id =>
      simp only [stepIdle] at h
      split at h
      · cases h
      · rename_i hfree
        rw [not_or, Nat.not_le] at hfree
        have hnone : (s.session id).lock = none := by simpa using hfree.1
        obtain rfl := Option.some.inj h
        exact moves_take_startClose (s.session id).terminating hnone hfree.2 hheld hquiet hdone
          (fun _ h => by cases h)
  | close =>
      simp only [stepIdle] at h
      split at h
      · cases h
      · rename_i hfree
        have hfree : s.closeLock = none := by simpa using hfree
        split at h
        · -- the registry was closed before: `close` returns at once
          rename_i hbegin
          obtain rfl := Option.some.inj h
          rw [closeBegin] at hbegin
          split at hbegin
          · rename_i hclosed
            exact .single (.enterClose hpc hfree (.inr hclosed) rfl ⟨rfl, rfl⟩ rfl
              (fun _ h => by cases h) (fun _ _ => hclosed))
          · cases hbegin
        · rename_i leases reg' hbegin
          obtain rfl := Option.some.inj h
          rw [closeBegin] at hbegin
          split at hbegin
          · cases hbegin
          · obtain ⟨rfl, rfl⟩ := Prod.mk.inj (Option.some.inj hbegin)
            have hclosing : Moves limits t s
                { s with registry := { s.registry with closing := true } } :=
              moves_touch hpc (Touched.silent List.prefix_rfl (fun _ => rfl) (fun _ => rfl)
                (fun _ => rfl) (fun h => h)) rfl accounted_closing
            refine hclosing.tail (.enterClose hpc hfree (.inl rfl) rfl ⟨rfl, rfl⟩ rfl ?_ ?_)
            · intro i hi
              rcases List.mem_append.mp hi with h | h <;> exact h
            · exact fun _ h => by cases h
  | connect succeeds => cases h
  | checkTerminating => cases h
  | leave => cases h
  | closeAdapter raises => cases h
  | release => cases h
  | dispose => cases h
  | unlock => cases h
  | requestNext => cases h
  | finishNext => cases h
  | drain => cases h
  | closeReturn => cases h

/-- Leaving a `use` block, or `open_session`: the lease is closed if the shutdown asked for it. -/
theorem moves_leave {s' : System} {p : Pc} (hpc : s.pc t = p)
    (hp : p = .connected id ∨ p = .inUse id)
    (h : (if (s.session id).terminating then some (s.startClose t id .done)
      else some (s.goto t (.unlocking id .done))) = some s') : Moves limits t s s' := by
  have hplace : held (s.pc t) = some id ∧ Quiet (s.pc t) ∧ shutting (s.pc t) = false := by
    rw [hpc]
    rcases hp with rfl | rfl <;> exact ⟨rfl, ⟨rfl, rfl⟩, rfl⟩
  obtain ⟨hheld, hquiet, hshutting⟩ := hplace
  split at h
  · obtain rfl := Option.some.inj h
    exact moves_startClose hheld hquiet (by rw [hshutting]; rfl) (List.nil_subset _)
  · obtain rfl := Option.some.inj h
    exact .single (.goto hquiet ⟨rfl, rfl⟩ ⟨hheld.symm, by rw [hshutting]; rfl⟩
      (List.nil_subset _) (fun _ h => nomatch h))

/-- Giving a lease's lock back and going on. -/
theorem moves_resume {next : Next} (hpc : s.pc t = .unlocking id next) :
    Moves limits t s (s.resume t id next) := by
  cases next with
  | done =>
      exact .single (.unlock hpc rfl ⟨rfl, rfl⟩ (by rw [hpc]; rfl) (List.nil_subset _)
        (fun _ h => nomatch h))
  | request left all =>
      exact .single (.unlock hpc rfl ⟨rfl, rfl⟩ (by rw [hpc]; rfl) (by rw [hpc]; exact fun _ h => h)
        (fun _ h => nomatch h))
  | finish left =>
      exact .single (.unlock hpc rfl ⟨rfl, rfl⟩ (by rw [hpc]; rfl) (by rw [hpc]; exact fun _ h => h)
        (fun _ h => nomatch h))
  | abort =>
      -- the thread is inside `close` for a moment longer than the code lets it be
      have hunlock : Move limits t s ((s.setSession id { s.session id with lock := none }).goto t
          .draining) :=
        .unlock hpc rfl ⟨rfl, rfl⟩ (by rw [hpc]; rfl) (List.nil_subset _) (fun _ h => nomatch h)
      have hpc' : ((s.setSession id { s.session id with lock := none }).goto t .draining).pc t =
          .draining := Function.update_self ..
      have hleave := @Move.leaveClose limits t _ (by rw [hpc']; rfl)
        (by rw [hpc']; rfl) (by rw [hpc']; exact ⟨rfl, rfl⟩)
      refine .tail (.single hunlock) ?_
      simp only [System.resume, System.goto, System.setSession, Function.update_idem] at hleave ⊢
      exact hleave

/-- Every action is made of moves. -/
theorem moves_of_step {s' : System} {a : Action} (hs : Sound limits s)
    (h : step s (t, a) = some s') : Moves limits t s s' := by
  have hknown := hs.todo_known t
  -- the cases are the lines of `step`, in its order
  simp only [step] at h
  split at h
  case h_1 hpc => exact moves_of_stepIdle hs hpc h
  case h_2 id hpc =>
    obtain rfl := Option.some.inj h
    exact .single (.goto (by rw [hpc]; exact ⟨rfl, rfl⟩) ⟨rfl, rfl⟩
      (by rw [hpc]; exact ⟨rfl, rfl⟩) (List.nil_subset _) (fun _ h => nomatch h))
  case h_3 id hpc =>
    obtain rfl := Option.some.inj h
    exact moves_startClose (by rw [hpc]; rfl) (by rw [hpc]; exact ⟨rfl, rfl⟩)
      (by rw [hpc]; rfl) (List.nil_subset _)
  case h_4 id hpc => exact moves_leave hpc (.inl rfl) h
  case h_5 id hpc => exact moves_leave hpc (.inr rfl) h
  case h_6 id next raises hpc =>
    obtain rfl := Option.some.inj h
    refine .single (.closeAdapter hpc ?_ ?_)
    · cases raises <;> cases next <;> simp [Next.raised]
    · cases raises <;> cases next <;> simp [nextTodo, Next.raised]
  case h_7 id next hpc =>
    obtain ⟨l, hid, rfl⟩ := Option.map_eq_some_iff.mp h
    exact .single (.release hpc hid)
  case h_8 id g next hpc =>
    obtain rfl := Option.some.inj h
    exact .single (.dispose (by rw [hpc]; rfl) rfl (by rw [hpc]; exact ⟨rfl, rfl⟩)
      (by rw [hpc]; exact fun _ h => h) (fun _ h => nomatch h))
  case h_9 g hpc =>
    obtain rfl := Option.some.inj h
    exact .single (.dispose (by rw [hpc]; rfl) rfl (by rw [hpc]; exact ⟨rfl, rfl⟩)
      (List.nil_subset _) (fun _ h => nomatch h))
  case h_10 id next hpc =>
    obtain rfl := Option.some.inj h
    exact moves_resume hpc
  case h_11 all hpc =>
    obtain rfl := Option.some.inj h
    exact .single (.goto (by rw [hpc]; exact ⟨rfl, rfl⟩) ⟨rfl, rfl⟩
      (by rw [hpc]; exact ⟨rfl, rfl⟩) (by rw [hpc]; exact fun _ h => h)
      (fun _ h => nomatch h))
  case h_12 id left all hpc =>
    have hid : id < s.registry.leases.length := hknown id (by rw [hpc]; simp [todo])
    have hrest : left ++ all ⊆ todo (s.pc t) := by
      rw [hpc]
      exact List.subset_cons_self ..
    split at h
    · obtain rfl := Option.some.inj h
      refine .head (.mark id hid (by rw [hpc]; rfl)) (.single (.goto ?_ ⟨rfl, rfl⟩ ?_ ?_
        (fun _ h => nomatch h)))
      · exact hpc ▸ ⟨rfl, rfl⟩
      · exact hpc ▸ ⟨rfl, rfl⟩
      · exact hrest
    · rename_i hfree
      obtain rfl := Option.some.inj h
      exact moves_take_startClose true (by simpa using hfree) hid (by rw [hpc]; rfl)
        (by rw [hpc]; exact ⟨rfl, rfl⟩) (by rw [hpc]; rfl) hrest
  case h_13 hpc =>
    obtain rfl := Option.some.inj h
    exact .single (.goto (by rw [hpc]; exact ⟨rfl, rfl⟩) ⟨rfl, rfl⟩
      (by rw [hpc]; exact ⟨rfl, rfl⟩) (List.nil_subset _) (fun _ h => nomatch h))
  case h_14 id left hpc =>
    have hid : id < s.registry.leases.length := hknown id (by rw [hpc]; simp [todo])
    have hrest : left ⊆ todo (s.pc t) := by
      rw [hpc]
      exact List.subset_cons_self ..
    split at h
    · obtain rfl := Option.some.inj h
      exact .single (.mark id hid (by rw [hpc]; rfl))
    · rename_i hfree
      obtain rfl := Option.some.inj h
      exact moves_take_startClose true (by simpa using hfree) hid (by rw [hpc]; rfl)
        (by rw [hpc]; exact ⟨rfl, rfl⟩) (by rw [hpc]; rfl) hrest
  case h_15 hpc =>
    obtain ⟨⟨gs, reg'⟩, hfinish, rfl⟩ := Option.map_eq_some_iff.mp h
    exact .single (.drain hpc hfinish)
  case h_16 g gs hpc =>
    obtain rfl := Option.some.inj h
    exact .single (.dispose (by rw [hpc]; rfl) rfl (by rw [hpc]; exact ⟨rfl, rfl⟩)
      (List.nil_subset _) (fun _ _ => ⟨_, hpc⟩))
  case h_17 hpc =>
    obtain rfl := Option.some.inj h
    exact .single (.leaveClose (by rw [hpc]; rfl) (by rw [hpc]; rfl)
      (by rw [hpc]; exact ⟨rfl, rfl⟩))
  case h_18 => cases h

end actions

/-! ### Runs -/

/-- What moves keep, any action keeps. -/
theorem sound_moves {limits : RegistryLimits} {s s' : System} {t : ThreadId}
    (hs : Sound limits s) (h : Moves limits t s s') : Sound limits s' := by
  induction h with
  | refl => exact hs
  | tail _ hmove ih => exact sound_move ih hmove

/-- Every action keeps the invariant. -/
theorem sound_step {limits : RegistryLimits} {s s' : System} {e : ThreadId × Action}
    (hs : Sound limits s) (h : step s e = some s') : Sound limits s' :=
  sound_moves hs (moves_of_step hs h)

/-- A new registry, with every thread at rest. -/
theorem sound_new (limits : RegistryLimits) : Sound limits { registry := { limits := limits } } :=
  { accounted := accounted_new limits
    locks := { owner := fun _ _ => iff_of_false (fun h => nomatch h) (fun h => nomatch h)
               known := fun _ _ h => (nomatch h), fresh := fun _ _ => rfl
               shutter := fun _ => iff_of_false (fun h => nomatch h) (fun h => nomatch h) }
    adapters := { staged := fun _ _ _ h => (nomatch h), settled := fun _ _ h => by simp at h }
    disposals := { pending_closed := fun _ _ h => (nomatch h), pending_nodup := fun _ => List.nodup_nil
                   pending_unique := fun _ _ _ h => (nomatch h), counted := fun _ => rfl
                   closed := fun _ h => (nomatch h) }
    closing := fun h => (nomatch h)
    all := fun _ _ h => (nomatch h)
    todo_known := fun _ _ h => (nomatch h) }

/-- What never changes back: generations that were published, the generation of a lease, and the
end of admission. -/
structure Later (reg reg' : DatasourceRegistry) : Prop where
  ever : reg.everPublished <+: reg'.everPublished
  leases : ∀ (id : LeaseId) (l : Lease), reg.leases[id]? = some l →
    ∃ l' : Lease, reg'.leases[id]? = some l' ∧ l'.generation = l.generation
  closing : reg.closing = true →
    reg'.closing = true ∧ reg'.leases.length = reg.leases.length

/-- A section that leaves the leases alone. -/
theorem Later.of_touched {reg reg' : DatasourceRegistry} {out : List Generation}
    (htouched : Touched reg reg' out) (hleases : reg'.leases = reg.leases) : Later reg reg' :=
  { ever := htouched.ever
    leases := fun id l h => ⟨l, by rw [hleases]; exact h, rfl⟩
    closing := fun h => ⟨htouched.closing h, by rw [hleases]⟩ }

theorem Later.trans {reg reg₁ reg₂ : DatasourceRegistry} (h₁ : Later reg reg₁)
    (h₂ : Later reg₁ reg₂) : Later reg reg₂ := by
  refine { ever := h₁.ever.trans h₂.ever, leases := ?_, closing := ?_ }
  · intro id l h
    obtain ⟨l₁, hl₁, heq₁⟩ := h₁.leases id l h
    obtain ⟨l₂, hl₂, heq₂⟩ := h₂.leases id l₁ hl₁
    exact ⟨l₂, hl₂, heq₂.trans heq₁⟩
  · intro h
    obtain ⟨hclosing₁, hlength₁⟩ := h₁.closing h
    obtain ⟨hclosing₂, hlength₂⟩ := h₂.closing hclosing₁
    exact ⟨hclosing₂, hlength₂.trans hlength₁⟩

/-- Nothing changes back in one move. -/
theorem later_move {limits : RegistryLimits} {s s' : System} {t : ThreadId}
    (hs : Sound limits s) (h : Move limits t s s') : Later s.registry s'.registry := by
  have hsame : Later s.registry s.registry := Later.of_touched (Touched.rfl' _) rfl
  cases h with
  | touch hpc htouched hleases haccounted hp hstage hlocks htodo =>
      exact Later.of_touched htouched hleases
  | enroll hpc hopen =>
      have htouched := touched_openSession hopen
      obtain ⟨g, hadmits, -, -, -, -, -, rfl, hreg⟩ := openSession_ok hopen
      refine { ever := htouched.ever, leases := ?_, closing := ?_ }
      · intro id l h
        refine ⟨l, ?_, rfl⟩
        rw [hreg]
        exact (List.getElem?_append_left (List.getElem?_eq_some_iff.mp h).1).trans h
      · intro hclosing
        rw [hadmits] at hclosing
        cases hclosing
  | goto => exact hsame
  | take => exact hsame
  | mark => exact hsame
  | beginClose => exact hsame
  | closeAdapter => exact hsame
  | release hpc hid =>
      rename_i id next l
      have hadmitted := (hs.adapters.staged t id true (by rw [hpc]; rfl)).2.2 l hid
      obtain ⟨htouched, hleases⟩ := touched_release hs.accounted hid hadmitted
      refine { ever := htouched.ever, leases := ?_, closing := ?_ }
      · intro id' l' h
        show ∃ l'', (release s.registry id l).2.leases[id']? = some l'' ∧ _
        rw [hleases]
        by_cases hi : id' = id
        · rw [hi, hid] at h
          rw [hi, List.getElem?_set_self (List.getElem?_eq_some_iff.mp hid).1,
            ← Option.some.inj h]
          exact ⟨_, rfl, rfl⟩
        · rw [List.getElem?_set_ne (Ne.symm hi)]
          exact ⟨l', h, rfl⟩
      · intro h
        refine ⟨htouched.closing h, ?_⟩
        show (release s.registry id l).2.leases.length = _
        rw [hleases, List.length_set]
  | dispose => exact { ever := List.prefix_rfl, leases := hsame.leases, closing := hsame.closing }
  | unlock => exact hsame
  | enterClose => exact hsame
  | drain hpc hfinish =>
      obtain ⟨htouched, hleases, -⟩ := touched_closeFinish hs.accounted hfinish
      exact Later.of_touched htouched hleases
  | leaveClose => exact hsame

/-- Nothing changes back along a run. -/
theorem later_run {limits : RegistryLimits} {s s' : System} {events : List (ThreadId × Action)}
    (hs : Sound limits s) (h : run step s events = some s') : Later s.registry s'.registry := by
  refine run_relates (P := Sound limits) (R := fun s s' => Later s.registry s'.registry) sound_step
    (fun s => Later.of_touched (Touched.rfl' _) rfl) Later.trans ?_ h hs
  intro s₁ s₂ e hs₁ hstep
  have hmoves := moves_of_step hs₁ hstep
  clear hstep
  induction hmoves with
  | refl => exact Later.of_touched (Touched.rfl' _) rfl
  | tail hmoves hmove ih => exact ih.trans (later_move (sound_moves hs₁ hmoves) hmove)

/-- A generation with an unreleased lease was not disposed of. -/
theorem Sound.leased_not_disposed {limits : RegistryLimits} {s : System} (hs : Sound limits s)
    {l : Lease} (hl : l ∈ s.registry.leases) (hunreleased : l.released = false) :
    s.disposals l.generation.generation = 0 := by
  rw [hs.disposals.counted]
  cases hdisposed : (s.registry.lifecycles l.generation.generation).disposed with
  | false => rfl
  | true =>
      have hk := hs.accounted.kept
      have hzero := (hk.closed_retired _ (hk.disposed_closed _ hdisposed)).2
      rw [hs.accounted.sessions.perGeneration] at hzero
      obtain ⟨i, hi⟩ := List.getElem?_of_mem hl
      have hpos := one_le_countP (admittedTo l.generation.generation) hi
        (by simp [admittedTo, hunreleased])
      omega

/-- The state in which `close` of the registry returns. -/
theorem Sound.at_return {limits : RegistryLimits} {s s' : System} {t : ThreadId}
    (hs : Sound limits s) (h : step s (t, .closeReturn) = some s') :
    (∀ l ∈ s.registry.leases, l.released = true) ∧
      (∀ r ∈ s.registry.reservations, r.released = true) ∧
      ∀ g ∈ s.registry.everPublished, (s.registry.life g).closed = true ∧
        ((s.registry.life g).disposed = true ∨
          ∃ t', s.pc t' = .disposeOnly g ∨ ∃ id, s.pc t' = .disposing id g .done) := by
  have hpc : s.pc t = .disposingAll [] := by
    cases hp : s.pc t <;> simp only [step, stepIdle, hp, reduceCtorEq] at h
    case disposingAll gs =>
      cases gs with
      | nil => rfl
      | cons g gs => cases h
  have hclosed := hs.all t [] hpc
  obtain ⟨-, hsessions, hcandidates⟩ := hs.accounted.shut hclosed
  have hlock : s.closeLock = some t := (hs.locks.shutter t).mp (by rw [hpc]; rfl)
  refine ⟨?_, ?_, ?_⟩
  · intro l hl
    have htotal := hs.accounted.sessions.total
    rw [hsessions] at htotal
    have hzero : s.registry.leases.countP admitted = 0 := by
      simp only [List.length_nil] at htotal
      omega
    have := List.countP_eq_zero.mp hzero l hl
    simpa [admitted] using this
  · intro r hr
    have hzero : s.registry.reservations.countP openReservation = 0 := by
      have := hs.accounted.candidates.candidates
      omega
    have := List.countP_eq_zero.mp hzero r hr
    simpa [openReservation] using this
  · intro g hg
    have hg' := hs.accounted.kept.all_closed hclosed g hg
    refine ⟨hg', ?_⟩
    rcases hs.disposals.closed g.generation hg' with h | ⟨t', g', hpending, hnumber⟩
    · exact .inl h
    · -- another thread has it, and that thread is not inside `close`
      have heq := hs.accounted.kept.eq_of_number
        (hs.disposals.pending_closed t' g' hpending).1 hg hnumber
      subst heq
      have hother : t' ≠ t := by
        intro ht
        rw [ht, hpc] at hpending
        exact absurd hpending List.not_mem_nil
      have houtside : shutting (s.pc t') = false := by
        cases hsh : shutting (s.pc t') with
        | false => rfl
        | true =>
            have := (hs.locks.shutter t').mp hsh
            rw [hlock] at this
            exact absurd (Option.some.inj this).symm hother
      refine .inr ⟨t', ?_⟩
      cases hp : s.pc t' <;> rw [hp] at hpending houtside <;>
        simp only [pending, List.not_mem_nil, List.mem_singleton] at hpending
      case disposing id g'' next =>
        rw [hpending]
        have hnext : next = .done := by simpa [shutting] using houtside
        exact .inr ⟨id, by rw [hnext]⟩
      case disposeOnly g'' =>
        rw [hpending]
        exact .inl rfl
      case disposingAll gs => cases houtside

/-- A publication that has the place of the generation it retires is not refused for want of
room. -/
theorem publishAs_not_busy {reg : DatasourceRegistry} {id : ReservationId} {r : Reservation}
    (hslot : r.retiredSlot = true) (datasourceId alias_ : Name) (recordRevision : Nat)
    (prepared : PreparedRuntime) :
    publishAs reg id r datasourceId alias_ recordRevision prepared ≠ .error .busy := by
  intro h
  have hcheck : ∀ e, publishCheck reg r datasourceId alias_ = .error e → e ≠ .busy := by
    intro e he
    simp only [publishCheck, bind_eq_error, refuseIf_eq_error, exists_const, refuseIf_eq_ok] at he
    rcases he with ⟨-, rfl⟩ | ⟨-, ⟨-, rfl⟩ | ⟨-, ⟨-, rfl⟩ | ⟨-, ⟨-, rfl⟩ | ⟨-, he⟩⟩⟩⟩
    · decide
    · decide
    · decide
    · decide
    · exact absurd he pure_ne_error
  have huse : ∀ old e, useSlot reg id r datasourceId old ≠ .error e := by
    intro old e he
    cases old with
    | none => cases he
    | some g =>
        rw [useSlot, if_pos hslot] at he
        cases he
  rw [publishAs, bind_eq_error, refuseIf_eq_error] at h
  rcases h with ⟨-, h⟩ | ⟨-, -, h⟩
  · cases h
  · rw [publish, bind_eq_error] at h
    rcases h with h | ⟨old, -, h⟩
    · exact hcheck _ h rfl
    · rw [bind_eq_error] at h
      rcases h with h | ⟨reg₁, -, h⟩
      · exact huse old _ h
      · cases old with
        | none => exact pure_ne_error h
        | some g => exact pure_ne_error h

/-- **Generations and leases over any run**, whatever the threads interleave. A generation is
disposed of at most once, and not while a lease on it is unreleased. A lease is released after its
adapter was closed, once, and no thread closes the adapter while a `use` block has the lease. A
lease keeps its generation, numbers grow, and a session is admitted to a generation that is neither
retired nor closed, before the shutdown. When `close` returns, every lease and every reservation is
released and every generation is closed, and disposed of unless that is the last step that another
thread's publication, withdrawal or release has left to do. A publication that has the place of the
generation it retires is not refused for want of room. -/
theorem generation_lifecycle (limits : RegistryLimits) (events : List (ThreadId × Action))
    (s : System) (h : run step { registry := { limits := limits } } events = some s) :
    (∀ n, s.disposals n ≤ 1) ∧
    (∀ l ∈ s.registry.leases, l.released = false → s.disposals l.generation.generation = 0) ∧
    (∀ id l, s.registry.leases[id]? = some l → l.released = true →
      (s.session id).adapterCloses = 1) ∧
    (∀ t t' id next, s.pc t = .inUse id → s.pc t' ≠ .closingAdapter id next) ∧
    s.registry.everPublished.Pairwise (fun g g' => g.generation < g'.generation) ∧
    (∀ alias_ id reg, openSession s.registry alias_ = .ok (id, reg) →
      s.registry.closing = false ∧ ∃ g, reg.leases[id]? = some { generation := g } ∧
        (s.registry.life g).retired = false ∧ (s.registry.life g).closed = false) ∧
    (∀ more s', run step s more = some s' →
      s.registry.everPublished <+: s'.registry.everPublished ∧
      (∀ (id : LeaseId) (l : Lease), s.registry.leases[id]? = some l →
        ∃ l' : Lease, s'.registry.leases[id]? = some l' ∧ l'.generation = l.generation) ∧
      (s.registry.closing = true →
        s'.registry.closing = true ∧ s'.registry.leases.length = s.registry.leases.length)) ∧
    (∀ t s', step s (t, .closeReturn) = some s' →
      (∀ l ∈ s.registry.leases, l.released = true) ∧
      (∀ r ∈ s.registry.reservations, r.released = true) ∧
      ∀ g ∈ s.registry.everPublished, (s.registry.life g).closed = true ∧
        ((s.registry.life g).disposed = true ∨
          ∃ t', s.pc t' = .disposeOnly g ∨ ∃ id, s.pc t' = .disposing id g .done)) ∧
    (∀ id r datasourceId alias_ recordRevision prepared,
      s.registry.reservations[id]? = some r → r.retiredSlot = true →
        publishAs s.registry id r datasourceId alias_ recordRevision prepared ≠ .error .busy) := by
  have hs : Sound limits s := run_invariant sound_step h (sound_new limits)
  refine ⟨?_, ?_, ?_, ?_, hs.accounted.kept.increasing, ?_, ?_, ?_, ?_⟩
  · intro n
    rw [hs.disposals.counted]
    exact Bool.toNat_le _
  · exact fun l hl hunreleased => hs.leased_not_disposed hl hunreleased
  · intro id l hid hreleased
    have hnobody : ∀ t b, stage (s.pc t) ≠ some (id, b) := by
      intro t b hstage
      have hunreleased := (hs.adapters.staged t id b hstage).2.2 l hid
      rw [hreleased] at hunreleased
      cases hunreleased
    rw [(hs.adapters.settled id l hid hnobody).2, hreleased]
    rfl
  · intro t t' id next huse hclose
    -- both threads would hold the lock of the lease
    have heq := hs.locks.holder_unique (show held (s.pc t) = some id by rw [huse]; rfl)
      (show held (s.pc t') = some id by rw [hclose]; rfl)
    rw [heq, hclose] at huse
    cases huse
  · intro alias_ id reg hopen
    obtain ⟨g, hclosing, -, -, hunretired, hunclosed, -, rfl, rfl⟩ := openSession_ok hopen
    exact ⟨hclosing, g, List.getElem?_concat_length .., hunretired, hunclosed⟩
  · intro more s' hmore
    have hlater := later_run hs hmore
    exact ⟨hlater.ever, hlater.leases, hlater.closing⟩
  · exact fun t s' hreturn => hs.at_return hreturn
  · intro id r datasourceId alias_ recordRevision prepared _ hslot
    exact publishAs_not_busy hslot datasourceId alias_ recordRevision prepared

/-- A withdrawal that has marked the generation closed, and a shutdown that ends before the
withdrawing thread disposes of it. -/
def withdrawnAtShutdown : List (ThreadId × Action) :=
  [(0, .reserve ['d'] none true), (0, .publish 0 ['d'] ['a'] 1 ⟨1⟩), (0, .releaseReservation 0),
   (0, .withdraw ['d']), (1, .close), (1, .requestNext), (1, .finishNext), (1, .drain)]

/-- The lifecycle of a generation that is withdrawn while the registry closes. -/
theorem generation_lifecycle_withdrawn :
    ∃ s, run step { registry := { limits := {} } } withdrawnAtShutdown = some s ∧
      (step s (1, .closeReturn)).isSome = true ∧ ∀ n, s.disposals n ≤ 1 :=
  ⟨_, rfl, rfl, (generation_lifecycle {} withdrawnAtShutdown _ rfl).1⟩

/-- `close` returns while a generation that was published is not disposed of. -/
theorem close_returns_before_disposal :
    ∃ s s', run step { registry := { limits := {} } } withdrawnAtShutdown = some s ∧
      step s (1, .closeReturn) = some s' ∧
      ∃ g ∈ s'.registry.everPublished, (s'.registry.life g).disposed = false ∧
        s'.disposals g.generation = 0 :=
  ⟨_, _, rfl, rfl, _, List.mem_singleton.mpr rfl, rfl, rfl⟩

end MaskGateway.Proofs.DatasourceThreads
