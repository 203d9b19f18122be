import MaskGateway.Proofs.Runtime.DatasourceAccounting
import MaskGateway.Runtime.DatasourceThreads

/-!
# `MaskGateway.Proofs.Runtime.DatasourceMoves`: what an action of a thread does

`Touched` says what a lock section of the registry does to the generations: which of them it marks
closed, and that it hands exactly these out for disposal. `Move` lists the changes that an action
is made of, each with what it needs: a lock is taken or given back, a lease is marked closed, its
adapter is closed, it is released, a generation is disposed of. The step function is read once, to
split it into moves; what every move keeps, every run keeps.
-/

set_option autoImplicit false

namespace MaskGateway.Proofs.DatasourceThreads

open MaskGateway.Lib
open MaskGateway.Runtime.Datasources
open MaskGateway.Runtime.DatasourceThreads
open MaskGateway.Proofs.Datasources

/-! ### Sections and the generations they close -/

/-- A section of the registry that closes the generations `out`. -/
structure Touched (reg reg' : DatasourceRegistry) (out : List Generation) : Prop where
  ever : reg.everPublished <+: reg'.everPublished
  closed_iff : ∀ n, (reg'.lifecycles n).closed = true ↔
    (reg.lifecycles n).closed = true ∨ ∃ g ∈ out, g.generation = n
  disposed : ∀ n, (reg'.lifecycles n).disposed = (reg.lifecycles n).disposed
  out_open : ∀ g ∈ out, g ∈ reg'.everPublished ∧ (reg.lifecycles g.generation).closed = false
  out_nodup : (out.map Generation.generation).Nodup
  closing : reg.closing = true → reg'.closing = true
  shut : reg.closed = true → reg'.closed = true

/-- A section that changes neither a lifecycle's marks nor the generations. -/
theorem Touched.silent {reg reg' : DatasourceRegistry}
    (hever : reg.everPublished <+: reg'.everPublished)
    (hclosed : ∀ n, (reg'.lifecycles n).closed = (reg.lifecycles n).closed)
    (hdisposed : ∀ n, (reg'.lifecycles n).disposed = (reg.lifecycles n).disposed)
    (hclosing : reg.closing = true → reg'.closing = true)
    (hshut : reg.closed = true → reg'.closed = true) : Touched reg reg' [] := by
  refine { ever := hever, closed_iff := ?_, disposed := hdisposed, out_open := ?_,
           out_nodup := List.nodup_nil, closing := hclosing, shut := hshut }
  · intro n
    rw [hclosed]
    simp
  · exact fun g hg => absurd hg List.not_mem_nil

/-- A silent section before another. -/
theorem Touched.after_silent {reg reg₁ reg₂ : DatasourceRegistry} {out : List Generation}
    (h₁ : Touched reg reg₁ []) (h₂ : Touched reg₁ reg₂ out) : Touched reg reg₂ out := by
  have hclosed : ∀ n, (reg₁.lifecycles n).closed = (reg.lifecycles n).closed := by
    intro n
    have hiff := h₁.closed_iff n
    simp only [List.not_mem_nil, false_and, exists_false, or_false] at hiff
    exact Bool.eq_iff_iff.mpr hiff
  refine { ever := h₁.ever.trans h₂.ever, closed_iff := ?_, disposed := ?_, out_open := ?_,
           out_nodup := h₂.out_nodup, closing := fun h => h₂.closing (h₁.closing h),
           shut := fun h => h₂.shut (h₁.shut h) }
  · intro n
    rw [h₂.closed_iff, hclosed]
  · exact fun n => (h₂.disposed n).trans (h₁.disposed n)
  · intro g hg
    rw [← hclosed]
    exact h₂.out_open g hg

/-- One lifecycle changes, but not its marks. -/
theorem touched_setLife {reg : DatasourceRegistry} {g : Generation} {l : Lifecycle}
    (hclosed : l.closed = (reg.life g).closed) (hdisposed : l.disposed = (reg.life g).disposed)
    (n : Nat) : ((reg.setLife g l).lifecycles n).closed = (reg.lifecycles n).closed ∧
      ((reg.setLife g l).lifecycles n).disposed = (reg.lifecycles n).disposed := by
  by_cases hn : n = g.generation
  · rw [hn, lifecycles_setLife_self]
    exact ⟨hclosed, hdisposed⟩
  · rw [lifecycles_setLife_of_ne reg hn]
    exact ⟨rfl, rfl⟩

/-- `_take_closable_locked` hands out what it closes. -/
theorem touched_takeClosable (reg : DatasourceRegistry) {g : Generation}
    (hg : g ∈ reg.everPublished) :
    Touched reg (takeClosable reg g).2 (takeClosable reg g).1.toList := by
  rcases takeClosable_cases reg g with ⟨-, hout⟩ | ⟨-, -, hopen, hout⟩
  · rw [hout]
    exact Touched.silent List.prefix_rfl (fun _ => rfl) (fun _ => rfl) id id
  · rw [hout]
    refine { ever := List.prefix_rfl, closed_iff := ?_, disposed := ?_, out_open := ?_,
             out_nodup := List.nodup_singleton _, closing := id, shut := id }
    · intro n
      show ((reg.setLife g _).lifecycles n).closed = true ↔ _
      by_cases hn : n = g.generation
      · rw [hn, lifecycles_setLife_self]
        simp
      · rw [lifecycles_setLife_of_ne reg hn]
        simp [Ne.symm hn]
    · intro n
      show ((reg.setLife g _).lifecycles n).disposed = _
      by_cases hn : n = g.generation
      · rw [hn, lifecycles_setLife_self]
        rfl
      · rw [lifecycles_setLife_of_ne reg hn]
    · intro g' hg'
      obtain rfl : g' = g := by simpa using hg'
      exact ⟨hg, hopen⟩

/-- So does `_retire_locked`. -/
theorem touched_retire (reg : DatasourceRegistry) {g : Generation} (hg : g ∈ reg.everPublished) :
    Touched reg (retire reg g).2 (retire reg g).1.toList := by
  have hmark := @touched_setLife reg g { reg.life g with retired := true } rfl rfl
  rw [retire]
  refine Touched.after_silent ?_ (touched_takeClosable _ hg)
  exact Touched.silent List.prefix_rfl (fun n => (hmark n).1) (fun n => (hmark n).2) id id

/-- Neither touches a lease. -/
theorem takeClosable_leases (reg : DatasourceRegistry) (g : Generation) :
    (takeClosable reg g).2.leases = reg.leases := by
  rcases takeClosable_cases reg g with ⟨-, hout⟩ | ⟨-, -, -, hout⟩
  · rw [hout]
  · rw [hout]
    rfl

theorem retire_leases (reg : DatasourceRegistry) (g : Generation) :
    (retire reg g).2.leases = reg.leases := by
  rw [retire, takeClosable_leases]
  rfl

/-- `_publish`. -/
theorem touched_publish {limits : RegistryLimits} {reg reg' : DatasourceRegistry}
    {id : ReservationId} {r : Reservation} {datasourceId alias_ : Name} {recordRevision : Nat}
    {prepared : PreparedRuntime} {new : Generation} {toClose : Option Generation}
    (ha : Accounted limits reg)
    (h : publish reg id r datasourceId alias_ recordRevision prepared = .ok (new, toClose, reg')) :
    Touched reg reg' toClose.toList ∧ reg'.leases = reg.leases := by
  obtain ⟨-, -, -, -, h⟩ := publish_ok h
  rcases h with ⟨-, rfl, rfl⟩ | ⟨old, reg₁, hold, -, hslot, hretire⟩
  · exact ⟨Touched.silent (List.prefix_append ..) (fun _ => rfl) (fun _ => rfl) (fun h => h)
      (fun h => h), rfl⟩
  · obtain ⟨reservations, reserved, rfl⟩ := useSlot_frame hslot
    have hever := (ha.kept.published_ever _ (mem_of_lookup hold)).1
    have hretired := touched_retire (publishNew { reg with
      reservations := reservations, reservedRetired := reserved } new)
      (g := old) (List.mem_append_left _ hever)
    have hleases := retire_leases (publishNew { reg with
      reservations := reservations, reservedRetired := reserved } new) old
    rw [hretire] at hretired hleases
    refine ⟨Touched.after_silent ?_ hretired, hleases⟩
    exact Touched.silent (List.prefix_append ..) (fun _ => rfl) (fun _ => rfl) (fun h => h)
      (fun h => h)

/-- `withdraw`. -/
theorem touched_withdraw {limits : RegistryLimits} {reg : DatasourceRegistry}
    (ha : Accounted limits reg) (datasourceId : Name) :
    Touched reg (withdraw reg datasourceId).2.2 (withdraw reg datasourceId).2.1.toList ∧
      (withdraw reg datasourceId).2.2.leases = reg.leases := by
  rw [withdraw]
  split
  · exact ⟨Touched.silent List.prefix_rfl (fun _ => rfl) (fun _ => rfl) id id, rfl⟩
  · rename_i alias_ g hfound
    have hever := (ha.kept.published_ever _ (publishedFor_eq_some hfound).1).1
    refine ⟨Touched.after_silent ?_ (touched_retire _ hever), retire_leases _ g⟩
    exact Touched.silent List.prefix_rfl (fun _ => rfl) (fun _ => rfl) id id

/-- `open_session`. -/
theorem touched_openSession {reg reg' : DatasourceRegistry} {alias_ : Name} {id : LeaseId}
    (h : openSession reg alias_ = .ok (id, reg')) : Touched reg reg' [] := by
  obtain ⟨g, -, -, -, -, -, -, -, rfl⟩ := openSession_ok h
  have hmark := @touched_setLife reg g { reg.life g with sessions := (reg.life g).sessions + 1 }
    rfl rfl
  exact Touched.silent List.prefix_rfl (fun n => (hmark n).1) (fun n => (hmark n).2)
    (fun h => h) (fun h => h)

/-- `_release`: the lease is marked as released, and no other. -/
theorem touched_release {limits : RegistryLimits} {reg : DatasourceRegistry} {id : LeaseId}
    {l : Lease} (ha : Accounted limits reg) (hid : reg.leases[id]? = some l)
    (hadmitted : l.released = false) :
    Touched reg (release reg id l).2 (release reg id l).1.toList ∧
      (release reg id l).2.leases = reg.leases.set id { l with released := true } := by
  have hmem : id ∈ reg.sessions := (ha.sessions.mem_iff id).mpr ⟨l, hid, hadmitted⟩
  have hever := ha.kept.lease_ever l (List.mem_of_getElem? hid)
  have hmark := @touched_setLife reg l.generation
    { reg.life l.generation with sessions := (reg.life l.generation).sessions - 1 } rfl rfl
  rw [release, if_neg (by simpa using hmem)]
  refine ⟨Touched.after_silent ?_ (touched_takeClosable _ hever), takeClosable_leases ..⟩
  exact Touched.silent List.prefix_rfl (fun n => (hmark n).1) (fun n => (hmark n).2)
    (fun h => h) (fun h => h)

/-- The last section of `close`. -/
theorem touched_closeFinish {limits : RegistryLimits} {reg reg' : DatasourceRegistry}
    {gs : List Generation} (ha : Accounted limits reg)
    (h : closeFinish reg = some (gs, reg')) :
    Touched reg reg' gs ∧ reg'.leases = reg.leases ∧ reg'.closed = true := by
  have hout := closeFinish_ok ha h
  obtain ⟨-, -, hgs, rfl⟩ := hout
  have hk := ha.kept
  have hever : ∀ g ∈ gs, g ∈ reg.everPublished ∧ (reg.lifecycles g.generation).closed = false := by
    intro g hg
    rw [hgs] at hg
    obtain ⟨e, he, rfl⟩ := List.mem_map.mp hg
    exact ⟨(hk.published_ever e he).1, (hk.published_open e he).2⟩
  refine ⟨{ ever := List.prefix_rfl, closed_iff := ?_, disposed := ?_, out_open := hever,
            out_nodup := ?_, closing := id, shut := fun _ => rfl }, rfl, rfl⟩
  · intro n
    show (markClosed (gs.map Generation.generation) reg.lifecycles n).closed = true ↔ _
    rw [markClosed]
    split
    · rename_i hn
      exact iff_of_true rfl (.inr (List.mem_map.mp hn))
    · rename_i hn
      refine (or_iff_left ?_).symm
      rintro ⟨g, hg, heq⟩
      exact hn (heq ▸ List.mem_map_of_mem hg)
  · intro n
    show (markClosed (gs.map Generation.generation) reg.lifecycles n).disposed = _
    rw [markClosed]
    split <;> rfl
  · rw [hgs]
    exact published_numbers_nodup hk

/-! ### Where a thread is -/

/-- The lease whose lock the thread holds. -/
def held : Pc → Option LeaseId
  | .connecting id | .connected id | .inUse id => some id
  | .closingAdapter id _ | .releasing id _ | .disposing id _ _ | .unlocking id _ => some id
  | _ => none

/-- Is the thread inside `close` of the registry? -/
def shutting : Pc → Bool
  | .closingAdapter _ next | .releasing _ next | .disposing _ _ next | .unlocking _ next =>
      decide (next ≠ .done)
  | .requesting .. | .finishing _ | .draining | .disposingAll _ => true
  | _ => false

/-- What the thread is about to dispose of. -/
def pending : Pc → List Generation
  | .disposing _ g _ | .disposeOnly g => [g]
  | .disposingAll gs => gs
  | _ => []

/-- The lease that the thread is closing, and whether its adapter is closed by now. -/
def stage : Pc → Option (LeaseId × Bool)
  | .closingAdapter id _ => some (id, false)
  | .releasing id _ => some (id, true)
  | _ => none

/-- The leases that the shutdown goes on to end. -/
def nextTodo : Next → List LeaseId
  | .request todo all => todo ++ all
  | .finish todo => todo
  | _ => []

/-- The leases that the thread still has to end. -/
def todo : Pc → List LeaseId
  | .requesting left all => left ++ all
  | .finishing left => left
  | .closingAdapter _ next | .releasing _ next | .disposing _ _ next | .unlocking _ next =>
      nextTodo next
  | _ => []

/-- A place without a lease to close and without a generation to dispose of. -/
structure Quiet (p : Pc) : Prop where
  stage_none : stage p = none
  pending_nil : pending p = []

/-- Two places that hold the same locks. -/
structure SameLocks (p p' : Pc) : Prop where
  held_eq : held p' = held p
  shutting_eq : shutting p' = shutting p

/-! ### Moves -/

/-- The changes that an action is made of. -/
inductive Move (limits : RegistryLimits) (t : ThreadId) : System → System → Prop where
  /-- a section of the registry that leaves the leases alone; the thread is at rest before it -/
  | touch {s : System} {reg' : DatasourceRegistry} {out : List Generation} {p' : Pc}
      (hpc : s.pc t = .idle) (htouched : Touched s.registry reg' out)
      (hleases : reg'.leases = s.registry.leases)
      (haccounted : Accounted limits s.registry → Accounted limits reg')
      (hp : pending p' = out) (hstage : stage p' = none) (hlocks : SameLocks (s.pc t) p')
      (htodo : todo p' = []) :
      Move limits t s { s with registry := reg', pc := Function.update s.pc t p' }
  /-- the admission of a session, with the lock of its lease -/
  | enroll {s : System} {reg' : DatasourceRegistry} {alias_ : Name} {id : LeaseId}
      (hpc : s.pc t = .idle) (hopen : openSession s.registry alias_ = .ok (id, reg')) :
      Move limits t s { s with
        registry := reg', pc := Function.update s.pc t (.connecting id)
        session := Function.update s.session id { lock := some t } }
  /-- a step that changes nothing but the place -/
  | goto {s : System} {p' : Pc} (hquiet : Quiet (s.pc t)) (hquiet' : Quiet p')
      (hlocks : SameLocks (s.pc t) p') (htodo : todo p' ⊆ todo (s.pc t))
      (hall : ∀ gs, p' = .disposingAll gs → s.registry.closed = true) :
      Move limits t s { s with pc := Function.update s.pc t p' }
  /-- a lease's lock that was free is taken -/
  | take {s : System} {id : LeaseId} {p' : Pc} (terminating : Bool)
      (hfree : (s.session id).lock = none) (hknown : id < s.registry.leases.length)
      (hheld : held (s.pc t) = none) (hquiet : Quiet (s.pc t)) (hquiet' : Quiet p')
      (hheld' : held p' = some id) (hshutting : shutting p' = shutting (s.pc t))
      (htodo : todo p' ⊆ todo (s.pc t)) :
      Move limits t s { s with
        pc := Function.update s.pc t p'
        session := Function.update s.session id
          { s.session id with lock := some t, terminating := terminating } }
  /-- the mark of the shutdown on a lease -/
  | mark {s : System} (id : LeaseId) (hknown : id < s.registry.leases.length)
      (hstage : stage (s.pc t) = none) :
      Move limits t s { s with
        session := Function.update s.session id { s.session id with terminating := true } }
  /-- `_closed` is set -/
  | beginClose {s : System} {id : LeaseId} {next : Next} (hheld : held (s.pc t) = some id)
      (hquiet : Quiet (s.pc t)) (hopen : (s.session id).closed = false)
      (hshutting : shutting (.closingAdapter id next) = shutting (s.pc t))
      (htodo : nextTodo next ⊆ todo (s.pc t)) :
      Move limits t s { s with
        pc := Function.update s.pc t (.closingAdapter id next)
        session := Function.update s.session id { s.session id with closed := true } }
  /-- `adapter.close()` -/
  | closeAdapter {s : System} {id : LeaseId} {next next' : Next}
      (hpc : s.pc t = .closingAdapter id next) (hnext : next' = .done ↔ next = .done)
      (htodo : nextTodo next' ⊆ nextTodo next) :
      Move limits t s { s with
        pc := Function.update s.pc t (.releasing id next')
        session := Function.update s.session id
          { s.session id with adapterCloses := (s.session id).adapterCloses + 1 } }
  /-- the section of `_release` -/
  | release {s : System} {id : LeaseId} {next : Next} {l : Lease}
      (hpc : s.pc t = .releasing id next) (hid : s.registry.leases[id]? = some l) :
      Move limits t s { s with
        registry := (release s.registry id l).2
        pc := Function.update s.pc t
          (match (release s.registry id l).1 with
          | none => .unlocking id next
          | some g => .disposing id g next) }
  /-- `_dispose()` -/
  | dispose {s : System} {g : Generation} {p' : Pc} (hpc : pending (s.pc t) = g :: pending p')
      (hstage : stage p' = none) (hlocks : SameLocks (s.pc t) p')
      (htodo : todo p' ⊆ todo (s.pc t))
      (hall : ∀ gs, p' = .disposingAll gs → ∃ gs', s.pc t = .disposingAll gs') :
      Move limits t s { s with
        registry := dispose s.registry g
        pc := Function.update s.pc t p'
        disposals := Function.update s.disposals g.generation (s.disposals g.generation + 1) }
  /-- a lease's lock is given back -/
  | unlock {s : System} {id : LeaseId} {next : Next} {p' : Pc}
      (hpc : s.pc t = .unlocking id next) (hheld : held p' = none) (hquiet : Quiet p')
      (hshutting : shutting p' = shutting (s.pc t)) (htodo : todo p' ⊆ todo (s.pc t))
      (hall : ∀ gs, p' ≠ .disposingAll gs) :
      Move limits t s { s with
        pc := Function.update s.pc t p'
        session := Function.update s.session id { s.session id with lock := none } }
  /-- the lock of `close`, once the registry is closing -/
  | enterClose {s : System} {p' : Pc} (hpc : s.pc t = .idle) (hfree : s.closeLock = none)
      (hclosing : s.registry.closing = true ∨ s.registry.closed = true)
      (hheld : held p' = none) (hquiet : Quiet p') (hshutting : shutting p' = true)
      (htodo : ∀ id ∈ todo p', id ∈ s.registry.sessions)
      (hall : ∀ gs, p' = .disposingAll gs → s.registry.closed = true) :
      Move limits t s { s with pc := Function.update s.pc t p', closeLock := some t }
  /-- the last section of `close` -/
  | drain {s : System} {reg' : DatasourceRegistry} {gs : List Generation}
      (hpc : s.pc t = .draining) (hfinish : closeFinish s.registry = some (gs, reg')) :
      Move limits t s { s with
        registry := reg', pc := Function.update s.pc t (.disposingAll gs) }
  /-- the end of `close` -/
  | leaveClose {s : System} (hshutting : shutting (s.pc t) = true) (hheld : held (s.pc t) = none)
      (hquiet : Quiet (s.pc t)) :
      Move limits t s { s with pc := Function.update s.pc t .idle, closeLock := none }

/-- What a thread does in one action: moves, one after the other. -/
abbrev Moves (limits : RegistryLimits) (t : ThreadId) : System → System → Prop :=
  Relation.ReflTransGen (Move limits t)

end MaskGateway.Proofs.DatasourceThreads
