import MaskGateway.Runtime.Registry

/-!
# `MaskGateway.Proofs.Runtime.Registry`: every runtime is closed once, and not while it is used

`Counted` is what every lock section and every closing keeps: the list of retired runtimes is the
set of those that are retired and not closed, a runtime that is marked closed is being closed or
was closed exactly once, and what a `release` or a `swap` is about to close has no user. A section
that changes a count or retires a runtime can leave one runtime that is retired, unused and open;
`settle` says that `_take_closable_locked` hands exactly that one out.
-/

set_option autoImplicit false

namespace MaskGateway.Proofs.Registry

open MaskGateway.Lib
open MaskGateway.Runtime.Registry

/-! ### The invariant -/

/-- What holds between any two steps, the promptness of the closing apart. -/
structure Counted (s : System) : Prop where
  /-- a runtime that was never given to the registry is untouched -/
  fresh : ∀ r, r ∉ s.seen → s.registry.runtimes r = {}
  seen_nodup : s.seen.Nodup
  current_seen : s.registry.current ∈ s.seen
  current_published : (s.registry.runtimes s.registry.current).retired = false
  current_open : s.shut = false → (s.registry.runtimes s.registry.current).closed = false
  replaced : ∀ r ∈ s.seen, r ≠ s.registry.current → (s.registry.runtimes r).retired = true
  listed : ∀ r, r ∈ s.registry.retired ↔
    (s.registry.runtimes r).retired = true ∧ (s.registry.runtimes r).closed = false
  nodup : s.registry.retired.Nodup
  /-- marked closed: about to be closed, or closed, once -/
  once : ∀ r, s.closing.count r + s.shutdown.count r + s.closes r =
    if (s.registry.runtimes r).closed then 1 else 0
  idle : ∀ r ∈ s.closing, (s.registry.runtimes r).retired = true ∧
    (s.registry.runtimes r).refcount = 0
  bound : s.registry.retired.length ≤ s.registry.maxRetired

/-- A runtime that is retired and has no user is marked closed. -/
def Prompt (s : System) (r : RuntimeId) : Prop :=
  (s.registry.runtimes r).retired = true → (s.registry.runtimes r).refcount = 0 →
    (s.registry.runtimes r).closed = true

/-- The invariant of every reachable state. -/
structure Sound (s : System) : Prop extends Counted s where
  prompt : ∀ r, Prompt s r

/-! ### Lifecycles -/

@[simp] theorem runtimes_set_self (reg : RuntimeRegistry) (r : RuntimeId) (life : Lifecycle) :
    (reg.set r life).runtimes r = life := Function.update_self ..

@[simp] theorem runtimes_set_of_ne (reg : RuntimeRegistry) {r r' : RuntimeId} (h : r' ≠ r)
    (life : Lifecycle) : (reg.set r life).runtimes r' = reg.runtimes r' :=
  Function.update_of_ne h ..

@[simp] theorem current_set (reg : RuntimeRegistry) (r : RuntimeId) (life : Lifecycle) :
    (reg.set r life).current = reg.current := rfl

/-- What `_take_closable_locked` can do. -/
theorem takeClosable_cases (reg : RuntimeRegistry) (r : RuntimeId) :
    (((reg.runtimes r).retired = true → (reg.runtimes r).refcount = 0 →
        (reg.runtimes r).closed = true) ∧ takeClosable reg r = (none, reg)) ∨
      ((reg.runtimes r).retired = true ∧ (reg.runtimes r).refcount = 0 ∧
        (reg.runtimes r).closed = false ∧
        takeClosable reg r = (some r,
          { reg.set r { reg.runtimes r with closed := true } with
            retired := reg.retired.erase r })) := by
  by_cases h : ¬ (reg.runtimes r).retired ∨ (reg.runtimes r).refcount > 0 ∨
      (reg.runtimes r).closed
  · left
    refine ⟨?_, if_pos h⟩
    intro hretired hcount
    rcases h with h | h | h
    · exact absurd hretired h
    · omega
    · exact h
  · right
    have hout : takeClosable reg r = _ := if_neg h
    rw [not_or, not_or, not_not, Nat.not_lt, Bool.not_eq_true] at h
    exact ⟨h.1, by omega, h.2.2, hout⟩

/-- Hand out the runtime that the section left retired, unused and open, if it did. -/
theorem settle {s : System} {r : RuntimeId} (hs : Counted s)
    (hprompt : ∀ r', r' ≠ r → Prompt s r') :
    Sound { s with
      registry := (takeClosable s.registry r).2
      closing := s.closing ++ (takeClosable s.registry r).1.toList } := by
  rcases takeClosable_cases s.registry r with ⟨hr, hout⟩ | ⟨hretired, hcount, hopen, hout⟩
  · -- nothing to close
    rw [hout]
    refine { toCounted := ?_, prompt := ?_ }
    · simpa using hs
    · intro r'
      by_cases hne : r' = r
      · subst hne
        exact hr
      · exact hprompt r' hne
  · rw [hout]
    have hcurrent : s.registry.current ≠ r := by
      intro heq
      have hpublished := hs.current_published
      rw [heq, hretired] at hpublished
      cases hpublished
    have hseen : r ∈ s.seen := by
      by_contra hnot
      rw [hs.fresh r hnot] at hretired
      cases hretired
    refine { fresh := ?_, seen_nodup := hs.seen_nodup,
             current_seen := hs.current_seen, current_published := ?_,
             current_open := ?_, replaced := ?_, listed := ?_, nodup := hs.nodup.erase r,
             once := ?_, idle := ?_, bound := ?_, prompt := ?_ }
    · intro r' hr'
      have hne : r' ≠ r := fun heq => hr' (heq ▸ hseen)
      simpa [hne] using hs.fresh r' hr'
    · simpa [hcurrent] using hs.current_published
    · intro hshut
      simpa [hcurrent] using hs.current_open hshut
    · intro r' hr' hne
      by_cases heq : r' = r
      · simpa [heq] using hretired
      · simpa [heq] using hs.replaced r' hr' hne
    · intro r'
      by_cases heq : r' = r
      · subst heq
        simp [hs.nodup.mem_erase_iff]
      · simpa [heq, hs.nodup.mem_erase_iff] using hs.listed r'
    · intro r'
      have hold := hs.once r'
      by_cases heq : r' = r
      · subst heq
        rw [hopen] at hold
        simp only [Option.toList_some, List.count_append, List.count_singleton_self,
          runtimes_set_self, if_true]
        simp only [Bool.false_eq_true, if_false] at hold
        omega
      · have hcount : [r].count r' = 0 := by simp [Ne.symm heq]
        simp only [Option.toList_some, List.count_append, hcount, runtimes_set_of_ne _ heq]
        omega
    · intro r' hr'
      rcases List.mem_append.mp hr' with hr' | hr'
      · obtain ⟨hretired', hcount'⟩ := hs.idle r' hr'
        by_cases heq : r' = r
        · simpa [heq] using ⟨hretired, hcount⟩
        · simpa [heq] using ⟨hretired', hcount'⟩
      · obtain rfl : r' = r := by simpa using hr'
        simpa using ⟨hretired, hcount⟩
    · exact Nat.le_trans (List.length_erase_le ..) hs.bound
    · intro r'
      by_cases heq : r' = r
      · subst heq
        intro _ _
        simp
      · simpa [Prompt, heq] using hprompt r' heq

/-! ### The lock sections -/

/-- `acquire` succeeds on a published runtime only. -/
theorem acquire_ok {reg reg' : RuntimeRegistry} {r : RuntimeId}
    (h : acquire reg = .ok (r, reg')) :
    r = reg.current ∧ (reg.runtimes r).retired = false ∧ (reg.runtimes r).closed = false ∧
      reg' = { reg.set r { reg.runtimes r with refcount := (reg.runtimes r).refcount + 1 } with
        acquiredTotal := reg.acquiredTotal + 1 } := by
  simp only [acquire, bind_eq_ok, refuseIf_eq_ok, exists_const, pure_eq_ok, Prod.mk.injEq,
    not_or, Bool.not_eq_true] at h
  obtain ⟨⟨hretired, hclosed⟩, rfl, rfl⟩ := h
  exact ⟨rfl, hretired, hclosed, rfl⟩

/-- A section that changes only the count of one runtime that is not about to be closed. -/
theorem counted_recount {s : System} {r : RuntimeId} (hs : Counted s) (count : Nat)
    (hseen : r ∈ s.seen) (hidle : r ∉ s.closing) :
    Counted { s with
      registry := s.registry.set r { s.registry.runtimes r with refcount := count } } := by
  have hretired : ∀ r', ((s.registry.set r { s.registry.runtimes r with refcount := count }).runtimes
      r').retired = (s.registry.runtimes r').retired := by
    intro r'
    by_cases heq : r' = r
    · simp [heq]
    · simp [heq]
  have hclosed : ∀ r', ((s.registry.set r { s.registry.runtimes r with refcount := count }).runtimes
      r').closed = (s.registry.runtimes r').closed := by
    intro r'
    by_cases heq : r' = r
    · simp [heq]
    · simp [heq]
  refine { fresh := ?_, seen_nodup := hs.seen_nodup, current_seen := hs.current_seen,
           current_published := ?_, current_open := ?_, replaced := ?_, listed := ?_, nodup := hs.nodup, once := ?_,
           idle := ?_, bound := hs.bound }
  · intro r' hr'
    have hne : r' ≠ r := fun heq => hr' (heq ▸ hseen)
    simpa [hne] using hs.fresh r' hr'
  · exact (hretired _).trans hs.current_published
  · intro hshut
    exact (hclosed _).trans (hs.current_open hshut)
  · intro r' hr' hne
    exact (hretired r').trans (hs.replaced r' hr' hne)
  · intro r'
    simp only [hretired, hclosed]
    exact hs.listed r'
  · intro r'
    simp only [hclosed]
    exact hs.once r'
  · intro r' hr'
    have hne : r' ≠ r := fun heq => hidle (heq ▸ hr')
    simpa [hne] using hs.idle r' hr'

/-- A runtime that is in use was given to the registry and is not about to be closed. -/
theorem seen_of_refcount {s : System} {r : RuntimeId} (hs : Counted s)
    (h : 0 < (s.registry.runtimes r).refcount) : r ∈ s.seen ∧ r ∉ s.closing := by
  constructor
  · by_contra hnot
    rw [hs.fresh r hnot] at h
    exact absurd h (by decide)
  · intro hmem
    have hcount := (hs.idle r hmem).2
    omega

/-- `acquire` keeps the invariant. -/
theorem sound_acquire {s : System} {r : RuntimeId} {reg : RuntimeRegistry} (hs : Sound s)
    (h : acquire s.registry = .ok (r, reg)) : Sound { s with registry := reg } := by
  obtain ⟨rfl, hretired, hclosed, rfl⟩ := acquire_ok h
  have hidle : s.registry.current ∉ s.closing := by
    intro hmem
    have := (hs.idle _ hmem).1
    rw [hretired] at this
    cases this
  have hcounted := counted_recount hs.toCounted
    ((s.registry.runtimes s.registry.current).refcount + 1) hs.current_seen hidle
  refine { toCounted := { hcounted with }, prompt := ?_ }
  intro r'
  by_cases heq : r' = s.registry.current
  · subst heq
    simp [Prompt, hretired]
  · simpa [Prompt, heq] using hs.prompt r'

/-- `release` keeps the invariant. -/
theorem sound_release {s : System} {r : RuntimeId} {toClose : Option RuntimeId}
    {reg : RuntimeRegistry} (hs : Sound s) (h : release s.registry r = .ok (toClose, reg)) :
    Sound { s with registry := reg, closing := s.closing ++ toClose.toList } := by
  simp only [release, bind_eq_ok, refuseIf_eq_ok, exists_const, pure_eq_ok] at h
  obtain ⟨hpos, hout⟩ := h
  obtain ⟨hseen, hidle⟩ := seen_of_refcount (r := r) hs.toCounted (by omega)
  have hcounted := counted_recount hs.toCounted ((s.registry.runtimes r).refcount - 1) hseen hidle
  have hsound := settle (r := r) hcounted (by
    intro r' hne
    simpa [Prompt, hne] using hs.prompt r')
  rw [hout] at hsound
  exact hsound

/-- What `swap` does when it is not refused. -/
theorem swap_ok {reg reg' : RuntimeRegistry} {new : RuntimeId} {toClose : Option RuntimeId}
    (h : swap reg new = .ok (toClose, reg')) :
    reg.retired.length < reg.maxRetired ∧ reg.current ≠ new ∧
      takeClosable { reg.set reg.current { reg.runtimes reg.current with retired := true } with
        retired := reg.retired ++ [reg.current], current := new } reg.current = (toClose, reg') := by
  simp only [swap, checkCanSwap, bind_eq_ok, refuseIf_eq_ok, exists_const, pure_eq_ok] at h
  exact ⟨by omega, h.2.1, h.2.2⟩

/-- `swap` keeps the invariant. -/
theorem sound_swap {s : System} {new : RuntimeId} {toClose : Option RuntimeId}
    {reg : RuntimeRegistry} (hs : Sound s) (hnew : new ∉ s.seen) (hshut : s.shut = false)
    (h : swap s.registry new = .ok (toClose, reg)) :
    Sound { s with registry := reg, seen := new :: s.seen,
                   closing := s.closing ++ toClose.toList } := by
  obtain ⟨hroom, hne, hout⟩ := swap_ok h
  have hopen := hs.current_open hshut
  have hpublished := hs.current_published
  have hfresh := hs.fresh new hnew
  let old := s.registry.current
  let between : System :=
    { s with
      registry :=
        { s.registry.set old { s.registry.runtimes old with retired := true } with
          retired := s.registry.retired ++ [old], current := new }
      seen := new :: s.seen }
  have hlife : ∀ r, r ≠ old → between.registry.runtimes r = s.registry.runtimes r :=
    fun r hr => runtimes_set_of_ne _ hr _
  have hold : between.registry.runtimes old = { s.registry.runtimes old with retired := true } :=
    runtimes_set_self ..
  have hnotlisted : old ∉ s.registry.retired := by
    intro hmem
    have := ((hs.listed old).mp hmem).1
    rw [hpublished] at this
    cases this
  have hcounted : Counted between := by
    refine { fresh := ?_, seen_nodup := List.nodup_cons.mpr ⟨hnew, hs.seen_nodup⟩,
             current_seen := List.mem_cons_self .., current_published := ?_, current_open := ?_, replaced := ?_, listed := ?_, nodup := ?_, once := ?_,
             idle := ?_, bound := ?_ }
    · intro r hr
      rw [List.mem_cons, not_or] at hr
      rw [hlife r fun heq => hr.2 (heq ▸ hs.current_seen)]
      exact hs.fresh r hr.2
    · rw [show between.registry.current = new from rfl, hlife new hne.symm, hfresh]
    · intro _
      rw [show between.registry.current = new from rfl, hlife new hne.symm, hfresh]
    · intro r hr hrnew
      by_cases heq : r = old
      · rw [heq, hold]
      · rw [hlife r heq]
        rcases List.mem_cons.mp hr with hr | hr
        · exact absurd hr hrnew
        · exact hs.replaced r hr heq
    · intro r
      rw [show between.registry.retired = s.registry.retired ++ [old] from rfl, List.mem_append,
        List.mem_singleton]
      by_cases heq : r = old
      · rw [heq, hold]
        exact iff_of_true (.inr rfl) ⟨rfl, hopen⟩
      · rw [hlife r heq, ← hs.listed r]
        exact or_iff_left heq
    · refine List.nodup_append.mpr ⟨hs.nodup, by simp, ?_⟩
      intro r hr r' hr' heq
      rw [List.mem_singleton.mp hr'] at heq
      exact hnotlisted (heq ▸ hr)
    · intro r
      have hclosed : (between.registry.runtimes r).closed = (s.registry.runtimes r).closed := by
        by_cases heq : r = old
        · rw [heq, hold]
        · rw [hlife r heq]
      rw [hclosed]
      exact hs.once r
    · intro r hr
      obtain ⟨hretired, hcount⟩ := hs.idle r hr
      by_cases heq : r = old
      · rw [heq, hpublished] at hretired
        cases hretired
      · rw [hlife r heq]
        exact ⟨hretired, hcount⟩
    · show (s.registry.retired ++ [old]).length ≤ s.registry.maxRetired
      rw [List.length_append, List.length_singleton]
      omega
  have hsound := settle hcounted (r := old) (by
    intro r hr
    rw [Prompt, hlife r hr]
    exact hs.prompt r)
  rw [show takeClosable between.registry old = (toClose, reg) from hout] at hsound
  exact hsound

/-- What `close_all` closes of the runtimes that are pending. -/
theorem closePending_eq {pending : List RuntimeId} (hnodup : pending.Nodup)
    (reg : RuntimeRegistry) :
    closePending pending reg =
      (pending.filter fun r => !(reg.runtimes r).closed,
        { reg with runtimes := fun r =>
            if r ∈ pending then { reg.runtimes r with closed := true } else reg.runtimes r }) := by
  induction pending generalizing reg with
  | nil => rfl
  | cons r pending ih =>
      rw [List.nodup_cons] at hnodup
      rw [closePending]
      split
      · rename_i hclosed
        rw [ih hnodup.2, List.filter_cons_of_neg (by simp [hclosed])]
        congr 2
        funext r'
        by_cases heq : r' = r
        · subst heq
          rw [if_neg hnodup.1, if_pos (List.mem_cons_self ..), ← hclosed]
        · simp [heq]
      · rename_i hopen
        have hfilter : pending.filter (fun r' => !((reg.set r { reg.runtimes r with
            closed := true }).runtimes r').closed) = pending.filter fun r' =>
              !(reg.runtimes r').closed := by
          refine List.filter_congr fun r' hr' => ?_
          have hne : r' ≠ r := by
            intro heq
            exact hnodup.1 (heq ▸ hr')
          rw [runtimes_set_of_ne _ hne]
        rw [ih hnodup.2, hfilter, List.filter_cons_of_pos (by simpa using hopen)]
        show (r :: _, _) = (r :: _, _)
        congr 2
        funext r'
        by_cases heq : r' = r
        · subst heq
          rw [if_neg hnodup.1, if_pos (List.mem_cons_self ..), runtimes_set_self]
        · simp [heq]

/-- `close_all` keeps the invariant. -/
theorem sound_closeAll {s : System} (hs : Sound s) :
    Sound { s with
      registry := (closeAll s.registry).2
      shutdown := s.shutdown ++ (closeAll s.registry).1
      shut := true } := by
  let pending := s.registry.retired ++ [s.registry.current]
  have hnodup : pending.Nodup := by
    refine List.nodup_append.mpr ⟨hs.nodup, by simp, ?_⟩
    intro r hr r' hr' heq
    have hretired := ((hs.listed r).mp hr).1
    rw [heq, List.mem_singleton.mp hr', hs.current_published] at hretired
    cases hretired
  have heq : closeAll s.registry = _ := closePending_eq hnodup { s.registry with retired := [] }
  have hretired : ∀ r, ((closeAll s.registry).2.runtimes r).retired =
      (s.registry.runtimes r).retired := by
    intro r
    rw [heq]
    by_cases hr : r ∈ pending
    · simp [hr]
    · simp [hr]
  have hrefcount : ∀ r, ((closeAll s.registry).2.runtimes r).refcount =
      (s.registry.runtimes r).refcount := by
    intro r
    rw [heq]
    by_cases hr : r ∈ pending
    · simp [hr]
    · simp [hr]
  have hclosed : ∀ r, ((closeAll s.registry).2.runtimes r).closed =
      (decide (r ∈ pending) || (s.registry.runtimes r).closed) := by
    intro r
    rw [heq]
    by_cases hr : r ∈ pending
    · simp [hr]
    · simp [hr]
  have hlist : (closeAll s.registry).2.retired = [] := by rw [heq]
  have hcurrent : (closeAll s.registry).2.current = s.registry.current := by rw [heq]
  have hmax : (closeAll s.registry).2.maxRetired = s.registry.maxRetired := by rw [heq]
  have hclosing : (closeAll s.registry).1 =
      pending.filter fun r => !(s.registry.runtimes r).closed := by rw [heq]
  refine { fresh := ?_, seen_nodup := hs.seen_nodup, current_seen := ?_,
           current_published := ?_, current_open := ?_, replaced := ?_, listed := ?_, nodup := ?_, once := ?_, idle := ?_, bound := ?_,
           prompt := ?_ }
  · intro r hr
    have hnot : r ∉ pending := by
      intro hmem
      rcases List.mem_append.mp hmem with hmem | hmem
      · have hlisted := ((hs.listed r).mp hmem).1
        rw [hs.fresh r hr] at hlisted
        cases hlisted
      · exact hr (List.mem_singleton.mp hmem ▸ hs.current_seen)
    rw [heq]
    show (if r ∈ pending then _ else _) = _
    rw [if_neg hnot]
    exact hs.fresh r hr
  · rw [hcurrent]
    exact hs.current_seen
  · rw [hcurrent, hretired]
    exact hs.current_published
  · intro h
    cases h
  · intro r hr hne
    rw [hretired]
    exact hs.replaced r hr (by rwa [hcurrent] at hne)
  · intro r
    rw [hlist, hretired, hclosed]
    refine iff_of_false List.not_mem_nil ?_
    rintro ⟨hret, hopen⟩
    rw [Bool.or_eq_false_iff, decide_eq_false_iff_not] at hopen
    exact hopen.1 (List.mem_append_left _ ((hs.listed r).mpr ⟨hret, hopen.2⟩))
  · rw [hlist]
    exact List.nodup_nil
  · intro r
    have hold := hs.once r
    rw [hclosing, List.count_append, hclosed]
    by_cases hr : r ∈ pending
    · cases hopen : (s.registry.runtimes r).closed with
      | true =>
          have hzero : (pending.filter fun r => !(s.registry.runtimes r).closed).count r = 0 := by
            rw [List.count_eq_zero]
            simp [hopen]
          rw [hopen] at hold
          simp only [hr, decide_true, Bool.true_or, if_true] at hold ⊢
          omega
      | false =>
          have hone : (pending.filter fun r => !(s.registry.runtimes r).closed).count r = 1 :=
            List.count_eq_one_of_mem (hnodup.filter _) (by simp [hr, hopen])
          rw [hopen] at hold
          simp only [hr, decide_true, Bool.true_or, if_true, Bool.false_eq_true, if_false] at hold ⊢
          omega
    · have hzero : (pending.filter fun r => !(s.registry.runtimes r).closed).count r = 0 := by
        rw [List.count_eq_zero]
        simp [hr]
      simp only [hr, decide_false, Bool.false_or]
      omega
  · intro r hr
    rw [hretired, hrefcount]
    exact hs.idle r hr
  · rw [hlist]
    exact Nat.zero_le _
  · intro r
    rw [Prompt, hretired, hrefcount, hclosed]
    intro hret hcount
    rw [hs.prompt r hret hcount, Bool.or_true]

/-! ### The closings -/

/-- One `adapter.close()` that was decided: the runtime leaves the closings and is counted. -/
theorem count_erase_add {pending : List RuntimeId} {closes : RuntimeId → Nat} {r : RuntimeId}
    (h : r ∈ pending) (r' : RuntimeId) :
    (pending.erase r).count r' + Function.update closes r (closes r + 1) r' =
      pending.count r' + closes r' := by
  by_cases heq : r' = r
  · subst heq
    have hpos := List.count_pos_iff.mpr h
    rw [List.count_erase_self, Function.update_self]
    omega
  · rw [List.count_erase_of_ne heq, Function.update_of_ne heq]

/-- `adapter.close()` after a `release` or a `swap` keeps the invariant. -/
theorem sound_finishClose {s : System} {r : RuntimeId} (hs : Sound s) (hr : r ∈ s.closing) :
    Sound { s.countClose r with closing := s.closing.erase r } := by
  refine { hs with once := ?_, idle := ?_, prompt := hs.prompt }
  · intro r'
    have hold := hs.once r'
    have hcount := @count_erase_add _ s.closes _ hr r'
    show (s.closing.erase r).count r' + s.shutdown.count r' +
      Function.update s.closes r (s.closes r + 1) r' =
        if (s.registry.runtimes r').closed then 1 else 0
    omega
  · intro r' hr'
    exact hs.idle r' (List.mem_of_mem_erase hr')

/-- `adapter.close()` after `close_all` keeps the invariant. -/
theorem sound_finishShutdown {s : System} {r : RuntimeId} (hs : Sound s) (hr : r ∈ s.shutdown) :
    Sound { s.countClose r with shutdown := s.shutdown.erase r } := by
  refine { hs with once := ?_, prompt := hs.prompt }
  intro r'
  have hold := hs.once r'
  have hcount := @count_erase_add _ s.closes _ hr r'
  show s.closing.count r' + (s.shutdown.erase r).count r' +
    Function.update s.closes r (s.closes r + 1) r' =
      if (s.registry.runtimes r').closed then 1 else 0
  omega

/-! ### Runs -/

/-- Every event keeps the invariant. -/
theorem sound_step {s s' : System} {e : Event} (hs : Sound s) (h : step s e = some s') :
    Sound s' := by
  cases e with
  | acquire =>
      simp only [step] at h
      split at h
      · obtain rfl := Option.some.inj h
        exact hs
      · rename_i r reg hout
        obtain rfl := Option.some.inj h
        exact sound_acquire hs hout
  | release r =>
      simp only [step] at h
      split at h
      · obtain rfl := Option.some.inj h
        exact hs
      · rename_i toClose reg hout
        obtain rfl := Option.some.inj h
        exact sound_release hs hout
  | checkCanSwap =>
      obtain rfl := Option.some.inj h
      exact hs
  | swap new =>
      simp only [step] at h
      split at h
      · cases h
      · rename_i hfresh
        rw [not_or, Bool.not_eq_true] at hfresh
        split at h
        · obtain rfl := Option.some.inj h
          exact hs
        · rename_i toClose reg hout
          obtain rfl := Option.some.inj h
          exact sound_swap hs hfresh.1 hfresh.2 hout
  | closeAll =>
      obtain rfl := Option.some.inj h
      exact sound_closeAll hs
  | finishClose r =>
      simp only [step] at h
      split at h
      · rename_i hr
        obtain rfl := Option.some.inj h
        exact sound_finishClose hs hr
      · cases h
  | finishShutdown r =>
      simp only [step] at h
      split at h
      · rename_i hr
        obtain rfl := Option.some.inj h
        exact sound_finishShutdown hs hr
      · cases h

end MaskGateway.Proofs.Registry
