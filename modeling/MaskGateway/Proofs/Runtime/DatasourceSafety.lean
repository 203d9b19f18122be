import MaskGateway.Proofs.Runtime.DatasourceMoves

/-!
# `MaskGateway.Proofs.Runtime.DatasourceSafety`: locks, adapters and disposals

Three invariants beside the counts of the registry, each over the fields it speaks of. `Locks`: a
thread that is where a lock is held is the holder of that lock. `Adapters`: a lease that was
released had its adapter closed, once, and a lease that is being closed is neither released nor
closed twice. `Disposals`: a generation that was marked closed was disposed of once or is about to
be, by one thread. Every `Move` keeps them.
-/

set_option autoImplicit false

namespace MaskGateway.Proofs.DatasourceThreads

open MaskGateway.Lib
open MaskGateway.Runtime.Datasources hiding step
open MaskGateway.Runtime.DatasourceThreads
open MaskGateway.Proofs.Datasources

/-! ### Changes of one lease -/

/-- A field of a lease that a change of one lease leaves alone. -/
theorem field_update {β : Type} (field : Session → β) {session : LeaseId → Session}
    {id : LeaseId} {σ : Session} (h : field σ = field (session id)) (id' : LeaseId) :
    field (Function.update session id σ id') = field (session id') := by
  by_cases hi : id' = id
  · rw [hi, Function.update_self, h]
  · rw [Function.update_of_ne hi]

/-- Leases that are not there yet are not changed. -/
theorem fresh_update {session : LeaseId → Session} {id : LeaseId} {σ : Session} {count : Nat}
    (hid : id < count) (id' : LeaseId) (hid' : count ≤ id') :
    Function.update session id σ id' = session id' :=
  Function.update_of_ne (Nat.ne_of_gt (Nat.lt_of_lt_of_le hid hid')) ..

/-! ### Locks -/

/-- Who holds which lock; `count` leases were made. -/
structure Locks (pc : ThreadId → Pc) (session : LeaseId → Session)
    (closeLock : Option ThreadId) (count : Nat) : Prop where
  owner : ∀ t id, held (pc t) = some id ↔ (session id).lock = some t
  known : ∀ t id, held (pc t) = some id → id < count
  fresh : ∀ id, count ≤ id → session id = {}
  shutter : ∀ t, shutting (pc t) = true ↔ closeLock = some t

section locks

variable {pc : ThreadId → Pc} {session session' : LeaseId → Session}
  {closeLock : Option ThreadId} {count : Nat} {t : ThreadId} {id : LeaseId} {p' : Pc}

/-- A lease that is not there yet has the lock of nobody. -/
theorem Locks.lt_of_lock (hl : Locks pc session closeLock count)
    (h : (session id).lock.isSome = true) : id < count := by
  by_contra hge
  rw [hl.fresh id (Nat.le_of_not_lt hge)] at h
  cases h

/-- A lock has one holder. -/
theorem Locks.holder_unique (hl : Locks pc session closeLock count) {t' : ThreadId}
    (h : held (pc t) = some id) (h' : held (pc t') = some id) : t = t' := by
  have hlock := (hl.owner t id).mp h
  rw [(hl.owner t' id).mp h'] at hlock
  exact (Option.some.inj hlock).symm

/-- A step that holds the same locks before and after. -/
theorem Locks.same (hl : Locks pc session closeLock count) (hlocks : SameLocks (pc t) p')
    (hlock : ∀ id, (session' id).lock = (session id).lock)
    (hfresh : ∀ id, count ≤ id → session' id = session id) :
    Locks (Function.update pc t p') session' closeLock count := by
  have hpc : ∀ t', held (Function.update pc t p' t') = held (pc t') ∧
      shutting (Function.update pc t p' t') = shutting (pc t') := by
    intro t'
    by_cases ht : t' = t
    · rw [ht, Function.update_self]
      exact ⟨hlocks.held_eq, hlocks.shutting_eq⟩
    · rw [Function.update_of_ne ht]
      exact ⟨rfl, rfl⟩
  refine { owner := ?_, known := ?_, fresh := ?_, shutter := ?_ }
  · intro t' id
    rw [(hpc t').1, hlock]
    exact hl.owner t' id
  · intro t' id
    rw [(hpc t').1]
    exact hl.known t' id
  · intro id hid
    rw [hfresh id hid]
    exact hl.fresh id hid
  · intro t'
    rw [(hpc t').2]
    exact hl.shutter t'

/-- A lock that was free is taken. -/
theorem Locks.take (hl : Locks pc session closeLock count) {σ : Session}
    (hfree : (session id).lock = none) (hid : id < count) (hheld : held (pc t) = none)
    (hlock : σ.lock = some t) (hheld' : held p' = some id)
    (hshutting : shutting p' = shutting (pc t)) :
    Locks (Function.update pc t p') (Function.update session id σ) closeLock count := by
  refine { owner := ?_, known := ?_, fresh := ?_, shutter := ?_ }
  · intro t' id'
    by_cases hi : id' = id
    · rw [hi, Function.update_self, hlock]
      by_cases ht : t' = t
      · rw [ht, Function.update_self]
        exact iff_of_true hheld' rfl
      · rw [Function.update_of_ne ht, hl.owner t' id, hfree]
        exact iff_of_false (fun h => nomatch h) (fun h => ht (Option.some.inj h).symm)
    · rw [Function.update_of_ne hi]
      by_cases ht : t' = t
      · rw [ht, Function.update_self, hheld', ← hl.owner t id', hheld]
        exact iff_of_false (fun h => hi (Option.some.inj h).symm) (fun h => nomatch h)
      · rw [Function.update_of_ne ht]
        exact hl.owner t' id'
  · intro t' id'
    by_cases ht : t' = t
    · rw [ht, Function.update_self, hheld']
      intro h
      rw [← Option.some.inj h]
      exact hid
    · rw [Function.update_of_ne ht]
      exact hl.known t' id'
  · intro id' hid'
    rw [Function.update_of_ne (Nat.ne_of_gt (Nat.lt_of_lt_of_le hid hid'))]
    exact hl.fresh id' hid'
  · intro t'
    by_cases ht : t' = t
    · rw [ht, Function.update_self, hshutting]
      exact hl.shutter t
    · rw [Function.update_of_ne ht]
      exact hl.shutter t'

/-- A lock is given back. -/
theorem Locks.unlock (hl : Locks pc session closeLock count) {σ : Session}
    (hheld : held (pc t) = some id) (hlock : σ.lock = none) (hheld' : held p' = none)
    (hshutting : shutting p' = shutting (pc t)) :
    Locks (Function.update pc t p') (Function.update session id σ) closeLock count := by
  have hid := hl.known t id hheld
  refine { owner := ?_, known := ?_, fresh := ?_, shutter := ?_ }
  · intro t' id'
    by_cases hi : id' = id
    · rw [hi, Function.update_self, hlock]
      refine iff_of_false ?_ (fun h => nomatch h)
      by_cases ht : t' = t
      · rw [ht, Function.update_self, hheld']
        exact fun h => nomatch h
      · rw [Function.update_of_ne ht]
        exact fun h => ht (hl.holder_unique h hheld)
    · rw [Function.update_of_ne hi]
      by_cases ht : t' = t
      · rw [ht, Function.update_self, hheld', ← hl.owner t id', hheld]
        exact iff_of_false (fun h => nomatch h) (fun h => hi (Option.some.inj h).symm)
      · rw [Function.update_of_ne ht]
        exact hl.owner t' id'
  · intro t' id'
    by_cases ht : t' = t
    · rw [ht, Function.update_self, hheld']
      exact fun h => nomatch h
    · rw [Function.update_of_ne ht]
      exact hl.known t' id'
  · intro id' hid'
    rw [Function.update_of_ne (Nat.ne_of_gt (Nat.lt_of_lt_of_le hid hid'))]
    exact hl.fresh id' hid'
  · intro t'
    by_cases ht : t' = t
    · rw [ht, Function.update_self, hshutting]
      exact hl.shutter t
    · rw [Function.update_of_ne ht]
      exact hl.shutter t'

/-- The lock of `close` changes hands. -/
theorem Locks.close (hl : Locks pc session closeLock count) (closeLock' : Option ThreadId)
    (hheld : held p' = held (pc t))
    (hshutter : ∀ t', t' ≠ t → (closeLock = some t' ↔ closeLock' = some t'))
    (hself : shutting p' = true ↔ closeLock' = some t) :
    Locks (Function.update pc t p') session closeLock' count := by
  have hpc : ∀ t', held (Function.update pc t p' t') = held (pc t') := by
    intro t'
    by_cases ht : t' = t
    · rw [ht, Function.update_self, hheld]
    · rw [Function.update_of_ne ht]
  refine { owner := ?_, known := ?_, fresh := hl.fresh, shutter := ?_ }
  · intro t' id'
    rw [hpc]
    exact hl.owner t' id'
  · intro t' id'
    rw [hpc]
    exact hl.known t' id'
  · intro t'
    by_cases ht : t' = t
    · rw [ht, Function.update_self]
      exact hself
    · rw [Function.update_of_ne ht, ← hshutter t' ht]
      exact hl.shutter t'

/-- A session is admitted, with the lock of its lease. -/
theorem Locks.enroll (hl : Locks pc session closeLock count) (hpc : pc t = .idle) :
    Locks (Function.update pc t (.connecting count))
      (Function.update session count { lock := some t }) closeLock (count + 1) := by
  have hwide : Locks pc session closeLock (count + 1) :=
    { owner := hl.owner, known := fun t' id' h => Nat.lt_succ_of_lt (hl.known t' id' h),
      fresh := fun id' hid' => hl.fresh id' (Nat.le_of_succ_le hid'), shutter := hl.shutter }
  refine hwide.take ?_ (Nat.lt_succ_self _) (by rw [hpc]; rfl) rfl rfl (by rw [hpc]; rfl)
  rw [hl.fresh count (Nat.le_refl _)]

end locks

/-! ### Adapters -/

/-- A thread that closes a lease holds its lock. -/
theorem held_of_stage {p : Pc} {id : LeaseId} {b : Bool} (h : stage p = some (id, b)) :
    held p = some id := by
  cases p <;> simp_all [stage, held]

/-- The adapter of a lease and the release of it. -/
structure Adapters (pc : ThreadId → Pc) (session : LeaseId → Session) (leases : List Lease) :
    Prop where
  /-- being closed: not released yet, and the adapter closed or not, as the place says -/
  staged : ∀ t id b, stage (pc t) = some (id, b) → (session id).closed = true ∧
    (session id).adapterCloses = b.toNat ∧ ∀ l, leases[id]? = some l → l.released = false
  /-- otherwise closed means released, and released means closed, once -/
  settled : ∀ id l, leases[id]? = some l → (∀ t b, stage (pc t) ≠ some (id, b)) →
    (session id).closed = l.released ∧ (session id).adapterCloses = l.released.toNat

section adapters

variable {pc : ThreadId → Pc} {session session' : LeaseId → Session} {leases : List Lease}
  {t : ThreadId} {id : LeaseId} {p' : Pc}

/-- A step between places that close no lease. -/
theorem Adapters.same (ha : Adapters pc session leases) (hstage : stage (pc t) = none)
    (hstage' : stage p' = none)
    (hsession : ∀ id, (session' id).closed = (session id).closed ∧
      (session' id).adapterCloses = (session id).adapterCloses) :
    Adapters (Function.update pc t p') session' leases := by
  have hpc : ∀ t', stage (Function.update pc t p' t') = stage (pc t') := by
    intro t'
    by_cases ht : t' = t
    · rw [ht, Function.update_self, hstage, hstage']
    · rw [Function.update_of_ne ht]
  refine { staged := ?_, settled := ?_ }
  · intro t' id b h
    rw [hpc] at h
    rw [(hsession id).1, (hsession id).2]
    exact ha.staged t' id b h
  · intro id l hid h
    rw [(hsession id).1, (hsession id).2]
    refine ha.settled id l hid fun t' b => ?_
    rw [← hpc]
    exact h t' b

/-- A step between such places that changes a lease, but neither `_closed` nor its adapter. -/
theorem Adapters.same_of_update (ha : Adapters pc session leases) {σ : Session}
    (hstage : stage (pc t) = none) (hstage' : stage p' = none)
    (hclosed : σ.closed = (session id).closed)
    (hcloses : σ.adapterCloses = (session id).adapterCloses) :
    Adapters (Function.update pc t p') (Function.update session id σ) leases :=
  ha.same hstage hstage' fun id' =>
    ⟨field_update Session.closed hclosed id', field_update Session.adapterCloses hcloses id'⟩

/-- A lease is marked closed by the thread that holds its lock. -/
theorem Adapters.beginClose (ha : Adapters pc session leases) {next : Next} {l : Lease}
    (hid : leases[id]? = some l) (hstage : stage (pc t) = none)
    (hnobody : ∀ t' b, stage (pc t') ≠ some (id, b)) (hopen : (session id).closed = false) :
    Adapters (Function.update pc t (.closingAdapter id next))
      (Function.update session id { session id with closed := true }) leases := by
  obtain ⟨hreleased, hcloses⟩ := ha.settled id l hid hnobody
  rw [hopen] at hreleased
  refine { staged := ?_, settled := ?_ }
  · intro t' id' b h
    by_cases ht : t' = t
    · rw [ht, Function.update_self] at h
      obtain ⟨rfl, rfl⟩ := Prod.mk.inj (Option.some.inj h)
      rw [Function.update_self]
      refine ⟨rfl, ?_, fun l' hl' => ?_⟩
      · show (session id).adapterCloses = false.toNat
        rw [hcloses, ← hreleased]
      · rw [hid] at hl'
        rw [← Option.some.inj hl', ← hreleased]
    · rw [Function.update_of_ne ht] at h
      have hne : id' ≠ id := fun heq => hnobody t' b (heq ▸ h)
      rw [Function.update_of_ne hne]
      exact ha.staged t' id' b h
  · intro id' l' hid' h
    have hne : id' ≠ id := by
      intro heq
      exact h t false (by rw [Function.update_self, heq]; rfl)
    rw [Function.update_of_ne hne]
    refine ha.settled id' l' hid' fun t' b heq => ?_
    by_cases ht : t' = t
    · rw [ht, hstage] at heq
      cases heq
    · exact h t' b (by rw [Function.update_of_ne ht]; exact heq)

/-- The adapter of a lease that was marked closed is closed. -/
theorem Adapters.closeAdapter (ha : Adapters pc session leases) {next next' : Next}
    (hpc : pc t = .closingAdapter id next)
    (hunique : ∀ t' b, stage (pc t') = some (id, b) → t' = t) :
    Adapters (Function.update pc t (.releasing id next'))
      (Function.update session id
        { session id with adapterCloses := (session id).adapterCloses + 1 }) leases := by
  obtain ⟨hclosed, hcloses, hreleased⟩ := ha.staged t id false (by rw [hpc]; rfl)
  refine { staged := ?_, settled := ?_ }
  · intro t' id' b h
    by_cases ht : t' = t
    · rw [ht, Function.update_self] at h
      obtain ⟨rfl, rfl⟩ := Prod.mk.inj (Option.some.inj h)
      rw [Function.update_self]
      refine ⟨hclosed, ?_, hreleased⟩
      show (session id).adapterCloses + 1 = true.toNat
      rw [hcloses]
      rfl
    · rw [Function.update_of_ne ht] at h
      have hne : id' ≠ id := fun heq => ht (hunique t' b (heq ▸ h))
      rw [Function.update_of_ne hne]
      exact ha.staged t' id' b h
  · intro id' l' hid' h
    have hne : id' ≠ id := by
      intro heq
      exact h t true (by rw [Function.update_self, heq]; rfl)
    rw [Function.update_of_ne hne]
    refine ha.settled id' l' hid' fun t' b heq => ?_
    by_cases ht : t' = t
    · rw [ht, hpc] at heq
      exact hne (Prod.mk.inj (Option.some.inj heq)).1.symm
    · exact h t' b (by rw [Function.update_of_ne ht]; exact heq)

/-- A lease whose adapter is closed is released. -/
theorem Adapters.release (ha : Adapters pc session leases) {next : Next} {l : Lease}
    (hpc : pc t = .releasing id next) (hid : leases[id]? = some l) (hstage' : stage p' = none)
    (hunique : ∀ t' b, stage (pc t') = some (id, b) → t' = t) :
    Adapters (Function.update pc t p') session (leases.set id { l with released := true }) := by
  obtain ⟨hclosed, hcloses, -⟩ := ha.staged t id true (by rw [hpc]; rfl)
  refine { staged := ?_, settled := ?_ }
  · intro t' id' b h
    by_cases ht : t' = t
    · rw [ht, Function.update_self, hstage'] at h
      cases h
    · rw [Function.update_of_ne ht] at h
      have hne : id' ≠ id := fun heq => ht (hunique t' b (heq ▸ h))
      rw [List.getElem?_set_ne (Ne.symm hne)]
      exact ha.staged t' id' b h
  · intro id' l' hid' h
    by_cases hi : id' = id
    · rw [hi, List.getElem?_set_self (List.getElem?_eq_some_iff.mp hid).1] at hid'
      rw [hi, ← Option.some.inj hid']
      exact ⟨hclosed, hcloses⟩
    · rw [List.getElem?_set_ne (Ne.symm hi)] at hid'
      refine ha.settled id' l' hid' fun t' b heq => ?_
      by_cases ht : t' = t
      · rw [ht, hpc] at heq
        exact hi (Prod.mk.inj (Option.some.inj heq)).1.symm
      · exact h t' b (by rw [Function.update_of_ne ht]; exact heq)

/-- A new lease is open. -/
theorem Adapters.enroll (ha : Adapters pc session leases) (hpc : stage (pc t) = none)
    (hstage' : stage p' = none) (hknown : ∀ t' id b, stage (pc t') = some (id, b) →
      id < leases.length) (l : Lease) (hl : l.released = false) :
    Adapters (Function.update pc t p')
      (Function.update session leases.length { lock := some t }) (leases ++ [l]) := by
  refine { staged := ?_, settled := ?_ }
  · intro t' id' b h
    by_cases ht : t' = t
    · rw [ht, Function.update_self, hstage'] at h
      cases h
    · rw [Function.update_of_ne ht] at h
      have hlt := hknown t' id' b h
      rw [Function.update_of_ne (Nat.ne_of_lt hlt), List.getElem?_append_left hlt]
      exact ha.staged t' id' b h
  · intro id' l' hid' h
    rcases Nat.lt_trichotomy id' leases.length with hlt | heq | hgt
    · rw [List.getElem?_append_left hlt] at hid'
      rw [Function.update_of_ne (Nat.ne_of_lt hlt)]
      refine ha.settled id' l' hid' fun t' b heq => ?_
      by_cases ht : t' = t
      · rw [ht, hpc] at heq
        cases heq
      · exact h t' b (by rw [Function.update_of_ne ht]; exact heq)
    · rw [heq, List.getElem?_concat_length] at hid'
      rw [heq, Function.update_self, ← Option.some.inj hid', hl]
      exact ⟨rfl, rfl⟩
    · rw [List.getElem?_eq_none (by rw [List.length_append]; exact hgt)] at hid'
      cases hid'

end adapters

/-! ### Disposals -/

/-- What was disposed of, and what is about to be. -/
structure Disposals (pc : ThreadId → Pc) (reg : DatasourceRegistry) (disposals : Nat → Nat) :
    Prop where
  pending_closed : ∀ t, ∀ g ∈ pending (pc t), g ∈ reg.everPublished ∧
    (reg.lifecycles g.generation).closed = true ∧ (reg.lifecycles g.generation).disposed = false
  pending_nodup : ∀ t, ((pending (pc t)).map Generation.generation).Nodup
  pending_unique : ∀ t t', ∀ g ∈ pending (pc t), ∀ g' ∈ pending (pc t'),
    g.generation = g'.generation → t = t'
  counted : ∀ n, disposals n = (reg.lifecycles n).disposed.toNat
  closed : ∀ n, (reg.lifecycles n).closed = true → (reg.lifecycles n).disposed = true ∨
    ∃ t, ∃ g ∈ pending (pc t), g.generation = n

section disposals

variable {pc : ThreadId → Pc} {reg reg' : DatasourceRegistry} {disposals : Nat → Nat}
  {t : ThreadId} {p' : Pc}

/-- A section hands out what it closes to the thread that ran it. -/
theorem Disposals.touch (hd : Disposals pc reg disposals) {out : List Generation}
    (hmarks : ∀ n, (reg.lifecycles n).disposed = true → (reg.lifecycles n).closed = true)
    (htouched : Touched reg reg' out) (hbefore : pending (pc t) = []) (hafter : pending p' = out) :
    Disposals (Function.update pc t p') reg' disposals := by
  have hself : pending (Function.update pc t p' t) = out := by
    rw [Function.update_self, hafter]
  have hother : ∀ t', t' ≠ t → pending (Function.update pc t p' t') = pending (pc t') := by
    intro t' ht
    rw [Function.update_of_ne ht]
  -- what a thread was about to dispose of was closed, and what is handed out was open
  have hapart : ∀ t', ∀ g' ∈ pending (pc t'), ∀ g ∈ out, g'.generation ≠ g.generation := by
    intro t' g' hg' g hg heq
    have hclosed := (hd.pending_closed t' g' hg').2.1
    rw [heq, (htouched.out_open g hg).2] at hclosed
    cases hclosed
  refine { pending_closed := ?_, pending_nodup := ?_, pending_unique := ?_, counted := ?_,
           closed := ?_ }
  · intro t' g hg
    rw [htouched.disposed]
    by_cases ht : t' = t
    · rw [ht, hself] at hg
      refine ⟨(htouched.out_open g hg).1, (htouched.closed_iff _).mpr (.inr ⟨g, hg, rfl⟩), ?_⟩
      cases hdisposed : (reg.lifecycles g.generation).disposed with
      | false => rfl
      | true =>
          have hclosed := hmarks _ hdisposed
          rw [(htouched.out_open g hg).2] at hclosed
          cases hclosed
    · rw [hother t' ht] at hg
      obtain ⟨hever, hclosed, hdisposed⟩ := hd.pending_closed t' g hg
      exact ⟨htouched.ever.subset hever, (htouched.closed_iff _).mpr (.inl hclosed), hdisposed⟩
  · intro t'
    by_cases ht : t' = t
    · rw [ht, hself]
      exact htouched.out_nodup
    · rw [hother t' ht]
      exact hd.pending_nodup t'
  · intro t₁ t₂ g hg g' hg' heq
    by_cases h₁ : t₁ = t
    · by_cases h₂ : t₂ = t
      · rw [h₁, h₂]
      · rw [h₁, hself] at hg
        rw [hother t₂ h₂] at hg'
        exact absurd heq.symm (hapart t₂ g' hg' g hg)
    · rw [hother t₁ h₁] at hg
      by_cases h₂ : t₂ = t
      · rw [h₂, hself] at hg'
        exact absurd heq (hapart t₁ g hg g' hg')
      · rw [hother t₂ h₂] at hg'
        exact hd.pending_unique t₁ t₂ g hg g' hg' heq
  · intro n
    rw [htouched.disposed]
    exact hd.counted n
  · intro n hn
    rw [htouched.disposed]
    rcases (htouched.closed_iff n).mp hn with h | ⟨g, hg, rfl⟩
    · rcases hd.closed n h with h | ⟨t', g, hg, heq⟩
      · exact .inl h
      · have ht : t' ≠ t := by
          intro ht
          rw [ht, hbefore] at hg
          exact absurd hg List.not_mem_nil
        exact .inr ⟨t', g, by rw [hother t' ht]; exact hg, heq⟩
    · exact .inr ⟨t, g, by rw [hself]; exact hg, rfl⟩

/-- A generation that the thread was about to dispose of is disposed of. -/
theorem Disposals.dispose (hd : Disposals pc reg disposals) {g : Generation}
    (hpending : pending (pc t) = g :: pending p') :
    Disposals (Function.update pc t p') (MaskGateway.Runtime.Datasources.dispose reg g)
      (Function.update disposals g.generation (disposals g.generation + 1)) := by
  have hg : g ∈ pending (pc t) := by
    rw [hpending]
    exact List.mem_cons_self ..
  have hdisposed := (hd.pending_closed t g hg).2.2
  have hnodup := hd.pending_nodup t
  rw [hpending, List.map_cons, List.nodup_cons] at hnodup
  have hother : ∀ t', t' ≠ t → pending (Function.update pc t p' t') = pending (pc t') := by
    intro t' ht
    rw [Function.update_of_ne ht]
  -- what any thread still has to dispose of is another generation
  have hleft : ∀ t', ∀ g' ∈ pending (Function.update pc t p' t'),
      g' ∈ pending (pc t') ∧ g'.generation ≠ g.generation := by
    intro t' g' hg'
    by_cases ht : t' = t
    · rw [ht, Function.update_self] at hg'
      rw [ht, hpending]
      refine ⟨List.mem_cons_of_mem _ hg', fun heq => hnodup.1 ?_⟩
      rw [← heq]
      exact List.mem_map_of_mem hg'
    · rw [hother t' ht] at hg'
      exact ⟨hg', fun heq => ht (hd.pending_unique t' t g' hg' g hg heq)⟩
  have hsame : ∀ n, n ≠ g.generation →
      (MaskGateway.Runtime.Datasources.dispose reg g).lifecycles n = reg.lifecycles n := by
    intro n hn
    exact lifecycles_setLife_of_ne reg hn _
  refine { pending_closed := ?_, pending_nodup := ?_, pending_unique := ?_, counted := ?_,
           closed := ?_ }
  · intro t' g' hg'
    obtain ⟨hmem, hne⟩ := hleft t' g' hg'
    rw [hsame _ hne]
    exact hd.pending_closed t' g' hmem
  · intro t'
    by_cases ht : t' = t
    · rw [ht, Function.update_self]
      exact hnodup.2
    · rw [hother t' ht]
      exact hd.pending_nodup t'
  · intro t₁ t₂ g₁ h₁ g₂ h₂
    exact hd.pending_unique t₁ t₂ g₁ (hleft t₁ g₁ h₁).1 g₂ (hleft t₂ g₂ h₂).1
  · intro n
    by_cases hn : n = g.generation
    · rw [hn, Function.update_self, hd.counted, hdisposed, MaskGateway.Runtime.Datasources.dispose,
        lifecycles_setLife_self]
      rfl
    · rw [Function.update_of_ne hn, hsame n hn]
      exact hd.counted n
  · intro n hn
    by_cases heq : n = g.generation
    · left
      rw [heq, MaskGateway.Runtime.Datasources.dispose, lifecycles_setLife_self]
    · rw [hsame n heq] at hn ⊢
      rcases hd.closed n hn with h | ⟨t', g', hg', hnumber⟩
      · exact .inl h
      · refine .inr ⟨t', g', ?_, hnumber⟩
        by_cases ht : t' = t
        · rw [ht, hpending] at hg'
          rcases List.mem_cons.mp hg' with h | h
          · exact absurd (h ▸ hnumber.symm) heq
          · rw [ht, Function.update_self]
            exact h
        · rw [hother t' ht]
          exact hg'

end disposals

/-! ### Moves keep the invariant -/

/-- The invariant of every reachable state. -/
structure Sound (limits : RegistryLimits) (s : System) : Prop where
  accounted : Accounted limits s.registry
  locks : Locks s.pc s.session s.closeLock s.registry.leases.length
  adapters : Adapters s.pc s.session s.registry.leases
  disposals : Disposals s.pc s.registry s.disposals
  /-- inside `close` of the registry nothing is admitted any more -/
  closing : s.closeLock.isSome = true → s.registry.closing = true
  /-- `close` disposes of generations after its last section only -/
  all : ∀ t gs, s.pc t = .disposingAll gs → s.registry.closed = true
  /-- the leases that `close` ends were admitted -/
  todo_known : ∀ t, ∀ id ∈ todo (s.pc t), id < s.registry.leases.length

/-- A lease is closed by the holder of its lock, so by one thread. -/
theorem Sound.closer_unique {limits : RegistryLimits} {s : System} (hs : Sound limits s)
    {t t' : ThreadId} {id : LeaseId} {b : Bool} (hheld : held (s.pc t) = some id)
    (h : stage (s.pc t') = some (id, b)) : t' = t :=
  hs.locks.holder_unique (held_of_stage h) hheld

/-- A place that is not the end of `close`. -/
theorem all_update {pc : ThreadId → Pc} {reg reg' : DatasourceRegistry} {t : ThreadId} {p' : Pc}
    (hall : ∀ t gs, pc t = .disposingAll gs → reg.closed = true)
    (hreg : reg.closed = true → reg'.closed = true)
    (hp : ∀ gs, p' = .disposingAll gs → reg'.closed = true) :
    ∀ t' gs, Function.update pc t p' t' = .disposingAll gs → reg'.closed = true := by
  intro t' gs h
  by_cases ht : t' = t
  · rw [ht, Function.update_self] at h
    exact hp gs h
  · rw [Function.update_of_ne ht] at h
    exact hreg (hall t' gs h)

/-- A place that has no more leases to end than the one before it. -/
theorem todo_update {pc : ThreadId → Pc} {count count' : Nat} {t : ThreadId} {p' : Pc}
    (hknown : ∀ t, ∀ id ∈ todo (pc t), id < count) (hcount : count ≤ count')
    (hp : ∀ id ∈ todo p', id < count') :
    ∀ t', ∀ id ∈ todo (Function.update pc t p' t'), id < count' := by
  intro t' id h
  by_cases ht : t' = t
  · rw [ht, Function.update_self] at h
    exact hp id h
  · rw [Function.update_of_ne ht] at h
    exact Nat.lt_of_lt_of_le (hknown t' id h) hcount

/-- The same, for a step that makes no lease. -/
theorem Sound.todo_same {limits : RegistryLimits} {s : System} {t : ThreadId} {p' : Pc}
    (hs : Sound limits s) (htodo : todo p' ⊆ todo (s.pc t)) :
    ∀ t', ∀ id ∈ todo (Function.update s.pc t p' t'), id < s.registry.leases.length :=
  todo_update hs.todo_known (Nat.le_refl _) (fun id h => hs.todo_known t id (htodo h))

/-- Nothing closed. -/
theorem Touched.rfl' (reg : DatasourceRegistry) : Touched reg reg [] :=
  Touched.silent List.prefix_rfl (fun _ => rfl) (fun _ => rfl) id id

/-- A move that leaves the registry alone and has nothing to dispose of. -/
theorem Disposals.quiet {limits : RegistryLimits} {s : System} {t : ThreadId} {p' : Pc}
    (hs : Sound limits s) (hbefore : pending (s.pc t) = []) (hafter : pending p' = []) :
    Disposals (Function.update s.pc t p') s.registry s.disposals :=
  hs.disposals.touch hs.accounted.kept.disposed_closed (Touched.rfl' _) hbefore hafter

/-- Every move keeps the invariant. -/
theorem sound_move {limits : RegistryLimits} {s s' : System} {t : ThreadId}
    (hs : Sound limits s) (h : Move limits t s s') : Sound limits s' := by
  cases h with
  | touch hpc htouched hleases haccounted hp hstage hlocks htodo =>
      rename_i reg' out p'
      refine { accounted := haccounted hs.accounted, locks := ?_, adapters := ?_, disposals := ?_,
               closing := fun h => htouched.closing (hs.closing h),
               all := all_update hs.all htouched.shut ?_, todo_known := ?_ }
      · show Locks _ s.session s.closeLock reg'.leases.length
        rw [hleases]
        exact hs.locks.same hlocks (fun _ => rfl) (fun _ _ => rfl)
      · show Adapters _ s.session reg'.leases
        rw [hleases]
        exact hs.adapters.same (by rw [hpc]; rfl) hstage (fun _ => ⟨rfl, rfl⟩)
      · exact hs.disposals.touch hs.accounted.kept.disposed_closed htouched (by rw [hpc]; rfl) hp
      · intro gs heq
        have := hlocks.shutting_eq
        rw [heq, hpc] at this
        cases this
      · refine todo_update hs.todo_known (Nat.le_of_eq (by rw [hleases])) fun id h => ?_
        rw [htodo] at h
        exact absurd h List.not_mem_nil
  | enroll hpc hopen =>
      rename_i reg' alias_ id
      have haccounted := accounted_openSession hs.accounted hopen
      have htouched := touched_openSession hopen
      obtain ⟨g, -, -, -, -, -, -, rfl, hreg⟩ := openSession_ok hopen
      have hleases : reg'.leases = s.registry.leases ++ [{ generation := g }] := by rw [hreg]
      refine { accounted := haccounted, locks := ?_, adapters := ?_, disposals := ?_,
               closing := fun h => htouched.closing (hs.closing h),
               all := all_update hs.all htouched.shut (fun _ h => nomatch h),
               todo_known := todo_update hs.todo_known (by rw [hleases, List.length_append]; omega)
                 (fun _ h => nomatch h) }
      · show Locks _ _ s.closeLock reg'.leases.length
        rw [hleases, List.length_append]
        exact hs.locks.enroll hpc
      · show Adapters _ _ reg'.leases
        rw [hleases]
        exact hs.adapters.enroll (by rw [hpc]; rfl) rfl
          (fun t' id b h => hs.locks.known t' id (held_of_stage h)) _ rfl
      · exact hs.disposals.touch hs.accounted.kept.disposed_closed htouched (by rw [hpc]; rfl) rfl
  | goto hquiet hquiet' hlocks htodo hall =>
      exact { accounted := hs.accounted,
              locks := hs.locks.same hlocks (fun _ => rfl) (fun _ _ => rfl),
              adapters := hs.adapters.same hquiet.stage_none hquiet'.stage_none
                (fun _ => ⟨rfl, rfl⟩),
              disposals := Disposals.quiet hs hquiet.pending_nil hquiet'.pending_nil,
              closing := hs.closing, all := all_update hs.all id hall,
              todo_known := hs.todo_same htodo }
  | take terminating hfree hknown hheld hquiet hquiet' hheld' hshutting htodo =>
      rename_i id p'
      refine { accounted := hs.accounted,
               locks := hs.locks.take hfree hknown hheld rfl hheld' hshutting, adapters := ?_,
               disposals := Disposals.quiet hs hquiet.pending_nil hquiet'.pending_nil,
               closing := hs.closing, all := all_update hs.all (fun h => h) ?_,
               todo_known := hs.todo_same htodo }
      · exact hs.adapters.same_of_update hquiet.stage_none hquiet'.stage_none rfl rfl
      · intro gs heq
        rw [heq] at hheld'
        cases hheld'
  | mark id hknown hstage =>
      have hlocks := hs.locks.same (show SameLocks (s.pc t) (s.pc t) from ⟨rfl, rfl⟩)
        (@field_update _ Session.lock s.session id { s.session id with terminating := true } rfl)
        (fresh_update hknown)
      have hadapters := @Adapters.same_of_update _ _ _ _ id _ hs.adapters
        { s.session id with terminating := true } hstage hstage rfl rfl
      rw [Function.update_eq_self] at hlocks hadapters
      exact { accounted := hs.accounted, locks := hlocks, adapters := hadapters,
              disposals := hs.disposals, closing := hs.closing, all := hs.all,
              todo_known := hs.todo_known }
  | beginClose hheld hquiet hopen hshutting htodo =>
      rename_i id next
      have hid := hs.locks.known t id hheld
      have hlease : s.registry.leases[id]? = some s.registry.leases[id] :=
        List.getElem?_eq_getElem hid
      refine { accounted := hs.accounted,
               locks := hs.locks.same ⟨hheld.symm, hshutting⟩ (field_update Session.lock rfl)
                 (fresh_update hid),
               adapters := ?_, disposals := Disposals.quiet hs hquiet.pending_nil rfl,
               closing := hs.closing,
               all := all_update hs.all (fun h => h) (fun _ h => nomatch h),
               todo_known := hs.todo_same htodo }
      refine hs.adapters.beginClose hlease hquiet.stage_none (fun t' b h => ?_) hopen
      -- whoever closes the lease holds its lock, and that is this thread, which does not
      rw [hs.closer_unique hheld h, hquiet.stage_none] at h
      cases h
  | closeAdapter hpc hnext htodo =>
      rename_i id next next'
      have hheld : held (s.pc t) = some id := by rw [hpc]; rfl
      have hshutting : shutting (.releasing id next') = shutting (s.pc t) := by
        rw [hpc]
        exact decide_eq_decide.mpr (not_congr hnext)
      exact { accounted := hs.accounted,
              locks := hs.locks.same ⟨hheld.symm, hshutting⟩ (field_update Session.lock rfl)
                (fresh_update (hs.locks.known t id hheld)),
              adapters := hs.adapters.closeAdapter hpc (fun t' b h => hs.closer_unique hheld h),
              disposals := Disposals.quiet hs (by rw [hpc]; rfl) rfl, closing := hs.closing,
              all := all_update hs.all (fun h => h) (fun _ h => nomatch h),
              todo_known := hs.todo_same (by rw [hpc]; exact htodo) }
  | release hpc hid =>
      rename_i id next l
      have hheld : held (s.pc t) = some id := by rw [hpc]; rfl
      have hadmitted := (hs.adapters.staged t id true (by rw [hpc]; rfl)).2.2 l hid
      obtain ⟨htouched, hleases⟩ := touched_release hs.accounted hid hadmitted
      have haccounted := accounted_release hs.accounted hid
      generalize hout : release s.registry id l = out at htouched hleases haccounted ⊢
      obtain ⟨toClose, reg'⟩ := out
      refine { accounted := haccounted, locks := ?_, adapters := ?_, disposals := ?_,
               closing := fun h => htouched.closing (hs.closing h),
               all := all_update hs.all htouched.shut ?_, todo_known := ?_ }
      · show Locks _ s.session s.closeLock reg'.leases.length
        rw [show reg'.leases = _ from hleases, List.length_set]
        refine hs.locks.same ?_ (fun _ => rfl) (fun _ _ => rfl)
        rw [hpc]
        cases toClose <;> exact ⟨rfl, rfl⟩
      · show Adapters _ s.session reg'.leases
        rw [show reg'.leases = _ from hleases]
        refine hs.adapters.release hpc hid ?_ (fun t' b h => hs.closer_unique hheld h)
        cases toClose <;> rfl
      · refine hs.disposals.touch hs.accounted.kept.disposed_closed htouched (by rw [hpc]; rfl) ?_
        cases toClose <;> rfl
      · intro gs heq
        cases toClose <;> cases heq
      · refine todo_update hs.todo_known (Nat.le_of_eq ?_) fun id' h => ?_
        · rw [show reg'.leases = _ from hleases, List.length_set]
        · rw [show reg'.leases = _ from hleases, List.length_set]
          refine hs.todo_known t id' ?_
          rw [hpc]
          cases toClose <;> exact h
  | dispose hpc hstage hlocks htodo hall =>
      rename_i g p'
      have hg : g ∈ pending (s.pc t) := by
        rw [hpc]
        exact List.mem_cons_self ..
      have hclosed := (hs.disposals.pending_closed t g hg).2.1
      have hstage₀ : stage (s.pc t) = none := by
        cases hp : s.pc t <;> rw [hp] at hpc <;> first | rfl | cases hpc
      refine { accounted := accounted_dispose hs.accounted hclosed,
               locks := hs.locks.same hlocks (fun _ => rfl) (fun _ _ => rfl),
               adapters := hs.adapters.same hstage₀ hstage (fun _ => ⟨rfl, rfl⟩),
               disposals := hs.disposals.dispose hpc, closing := hs.closing,
               all := all_update hs.all (fun h => h) ?_, todo_known := hs.todo_same htodo }
      intro gs heq
      obtain ⟨gs', hgs'⟩ := hall gs heq
      exact hs.all t gs' hgs'
  | unlock hpc hheld hquiet hshutting htodo hall =>
      rename_i id next p'
      have hheld₀ : held (s.pc t) = some id := by rw [hpc]; rfl
      refine { accounted := hs.accounted,
               locks := hs.locks.unlock hheld₀ rfl hheld hshutting, adapters := ?_,
               disposals := Disposals.quiet hs (by rw [hpc]; rfl) hquiet.pending_nil,
               closing := hs.closing,
               all := all_update hs.all (fun h => h) (fun gs h => absurd h (hall gs)),
               todo_known := hs.todo_same htodo }
      exact hs.adapters.same_of_update (by rw [hpc]; rfl) hquiet.stage_none rfl rfl
  | enterClose hpc hfree hclosing hheld hquiet hshutting htodo hall =>
      refine { accounted := hs.accounted, locks := ?_, adapters := ?_,
               disposals := Disposals.quiet hs (by rw [hpc]; rfl) hquiet.pending_nil,
               closing := fun _ => ?_, all := all_update hs.all id hall, todo_known := ?_ }
      · refine hs.locks.close _ (by rw [hpc, hheld]; rfl) (fun t' ht => ?_)
          (iff_of_true hshutting rfl)
        rw [hfree]
        exact iff_of_false (fun h => nomatch h) (fun h => ht (Option.some.inj h).symm)
      · exact hs.adapters.same (by rw [hpc]; rfl) hquiet.stage_none (fun _ => ⟨rfl, rfl⟩)
      · rcases hclosing with h | h
        · exact h
        · exact (hs.accounted.shut h).1
      · refine todo_update hs.todo_known (Nat.le_refl _) fun id h => ?_
        obtain ⟨l, hl, -⟩ := (hs.accounted.sessions.mem_iff id).mp (htodo id h)
        exact (List.getElem?_eq_some_iff.mp hl).1
  | drain hpc hfinish =>
      rename_i reg' gs
      obtain ⟨htouched, hleases, hclosed⟩ := touched_closeFinish hs.accounted hfinish
      have hclosing : s.registry.closing = true := by
        refine hs.closing ?_
        rw [(hs.locks.shutter t).mp (by rw [hpc]; rfl)]
        rfl
      refine { accounted := accounted_closeFinish hs.accounted hclosing hfinish, locks := ?_,
               adapters := ?_, disposals := ?_, closing := fun h => htouched.closing (hs.closing h),
               all := all_update hs.all htouched.shut (fun _ _ => hclosed),
               todo_known := todo_update hs.todo_known (Nat.le_of_eq (by rw [hleases]))
                 (fun _ h => nomatch h) }
      · show Locks _ s.session s.closeLock reg'.leases.length
        rw [hleases]
        exact hs.locks.same ⟨by rw [hpc]; rfl, by rw [hpc]; rfl⟩ (fun _ => rfl) (fun _ _ => rfl)
      · show Adapters _ s.session reg'.leases
        rw [hleases]
        exact hs.adapters.same (by rw [hpc]; rfl) rfl (fun _ => ⟨rfl, rfl⟩)
      · exact hs.disposals.touch hs.accounted.kept.disposed_closed htouched (by rw [hpc]; rfl) rfl
  | leaveClose hshutting hheld hquiet =>
      have hlock := (hs.locks.shutter t).mp hshutting
      refine { accounted := hs.accounted, locks := ?_, adapters := ?_,
               disposals := Disposals.quiet hs hquiet.pending_nil rfl,
               closing := fun h => (nomatch h),
               all := all_update hs.all id (fun _ h => nomatch h),
               todo_known := hs.todo_same (fun _ h => nomatch h) }
      · refine hs.locks.close none (by rw [hheld]; rfl) (fun t' ht => ?_)
          (iff_of_false (fun h => nomatch h) (fun h => nomatch h))
        rw [hlock]
        exact iff_of_false (fun h => ht (Option.some.inj h).symm) (fun h => nomatch h)
      · exact hs.adapters.same hquiet.stage_none rfl (fun _ => ⟨rfl, rfl⟩)

end MaskGateway.Proofs.DatasourceThreads
