import MaskGateway.Runtime.Datasources

/-!
# `MaskGateway.Proofs.Runtime.DatasourceCounts`: what the counters of the registry count

Three groups of facts about a `DatasourceRegistry`, each about the fields that one kind of section
changes: `CandidatesCounted` (reservations), `SessionsCounted` (leases) and `Kept` (generations).
A publication and a withdrawal pass through a state in which a generation is neither published nor
retired; `Kept` has that one generation as a parameter. `Busy` is the rest: a generation that is
retired and not closed has a session. `settle` says that `_take_closable_locked` restores it.
-/

set_option autoImplicit false

namespace MaskGateway.Proofs.Datasources

open MaskGateway.Lib
open MaskGateway.Runtime.Datasources

/-! ### The invariant -/

/-- What a reservation that is not released counts for. -/
def openReservation (r : Reservation) : Bool := !r.released

/-- An unreleased reservation of a key. -/
def openReservationOf (key : Name) (r : Reservation) : Bool :=
  !r.released && decide (key = r.key)

/-- An unreleased reservation that holds the place of a retired generation. -/
def holdsSlot (r : Reservation) : Bool := !r.released && r.retiredSlot

/-- A lease that is admitted and not released. -/
def admitted (l : Lease) : Bool := !l.released

/-- A lease on a datasource that is admitted and not released. -/
def admittedOf (datasourceId : Name) (l : Lease) : Bool :=
  !l.released && decide (datasourceId = l.generation.datasourceId)

/-- A lease on the generation of a number that is admitted and not released. -/
def admittedTo (number : Nat) (l : Lease) : Bool :=
  !l.released && decide (number = l.generation.generation)

/-- The counters of candidates. -/
structure CandidatesCounted (reg : DatasourceRegistry) : Prop where
  candidates : reg.candidates = reg.reservations.countP openReservation
  perKey : ∀ key, reg.dsCandidates key = reg.reservations.countP (openReservationOf key)
  reserved : reg.reservedRetired = reg.reservations.countP holdsSlot

/-- The counters of sessions, and the set of leases. -/
structure SessionsCounted (reg : DatasourceRegistry) : Prop where
  nodup : reg.sessions.Nodup
  mem_iff : ∀ id, id ∈ reg.sessions ↔ ∃ l, reg.leases[id]? = some l ∧ l.released = false
  total : (reg.sessions.length : Int) = reg.leases.countP admitted
  perDatasource : ∀ d, reg.dsSessions d = reg.leases.countP (admittedOf d)
  perGeneration : ∀ n, (reg.lifecycles n).sessions = reg.leases.countP (admittedTo n)
  bound : reg.sessions.length ≤ reg.limits.maxSessions

/-- The generations. One of them may be on its way from published to retired. -/
structure Kept (leaving : Option Generation) (reg : DatasourceRegistry) : Prop where
  /-- numbers grow in the order of publication -/
  increasing : reg.everPublished.Pairwise fun g g' => g.generation < g'.generation
  below : ∀ g ∈ reg.everPublished, g.generation < reg.nextGeneration
  untouched : ∀ n, reg.nextGeneration ≤ n → reg.lifecycles n = {}
  published_ever : ∀ e ∈ reg.published, e.2 ∈ reg.everPublished ∧ e.2.alias_ = e.1
  published_open : ∀ e ∈ reg.published,
    (reg.life e.2).retired = false ∧ (reg.life e.2).closed = false
  aliases_nodup : (reg.published.map Prod.fst).Nodup
  datasources_nodup : (reg.published.map fun e => e.2.datasourceId).Nodup
  unretired : ∀ g ∈ reg.everPublished, (reg.life g).retired = false → leaving ≠ some g →
    (g.alias_, g) ∈ reg.published
  listed : ∀ g, g ∈ reg.retired ↔
    g ∈ reg.everPublished ∧ (reg.life g).retired = true ∧ (reg.life g).closed = false
  retired_nodup : reg.retired.Nodup
  dsRetired : ∀ d, reg.dsRetired d = reg.retired.countP fun g => decide (d = g.datasourceId)
  closed_retired : ∀ n, (reg.lifecycles n).closed = true →
    (reg.lifecycles n).retired = true ∧ (reg.lifecycles n).sessions = 0
  disposed_closed : ∀ n, (reg.lifecycles n).disposed = true → (reg.lifecycles n).closed = true
  lease_ever : ∀ l ∈ reg.leases, l.generation ∈ reg.everPublished
  /-- after the shutdown every generation is closed -/
  all_closed : reg.closed = true → ∀ g ∈ reg.everPublished, (reg.life g).closed = true

/-- A generation that is retired and open has a session. -/
def Busy (reg : DatasourceRegistry) (n : Nat) : Prop :=
  (reg.lifecycles n).retired = true → (reg.lifecycles n).closed = false →
    0 < (reg.lifecycles n).sessions

/-- The three groups, while one generation may be leaving and one number need not be busy. -/
structure AccountedBut (limits : RegistryLimits) (leaving : Option Generation)
    (exempt : Option Nat) (reg : DatasourceRegistry) : Prop where
  limits_eq : reg.limits = limits
  candidates : CandidatesCounted reg
  sessions : SessionsCounted reg
  kept : Kept leaving reg
  busy : ∀ n, exempt ≠ some n → Busy reg n
  /-- the shutdown waited for every session and candidate, and none came after it -/
  shut : reg.closed = true → reg.closing = true ∧ reg.sessions = [] ∧ reg.candidates = 0

/-- The invariant of every reachable state. -/
abbrev Accounted (limits : RegistryLimits) (reg : DatasourceRegistry) : Prop :=
  AccountedBut limits none none reg

/-! ### Candidates -/

/-- What `reserve` does when it is not refused. -/
theorem reserve_ok {reg reg' : DatasourceRegistry} {key : Name} {datasourceId : Option Name}
    {publish : Bool} {id : ReservationId}
    (h : reserve reg key datasourceId publish = .ok (id, reg')) :
    ∃ slot : Bool, reg.closing = false ∧ id = reg.reservations.length ∧
      reg' = { reg with
        reservedRetired := reg.reservedRetired + unit slot
        dsCandidates := increment reg.dsCandidates key
        candidates := reg.candidates + 1
        reservations := reg.reservations ++
          [{ key := key, datasourceId := datasourceId, publish := publish,
             retiredSlot := slot }] } := by
  simp only [reserve, bind_eq_ok, refuseIf_eq_ok, exists_const, Bool.not_eq_true] at h
  obtain ⟨hclosing, -, -, h⟩ := h
  refine ⟨retires reg datasourceId publish, hclosing, ?_⟩
  cases hslot : retires reg datasourceId publish with
  | false =>
      rw [hslot] at h
      simp only [Bool.false_eq_true, if_false, pure_eq_ok, Prod.mk.injEq] at h
      obtain ⟨rfl, rfl⟩ := h
      simp
  | true =>
      rw [hslot] at h
      cases datasourceId with
      | none => cases publish <;> cases hslot
      | some d =>
          simp only [if_true, bind_eq_ok, pure_eq_ok, Prod.mk.injEq] at h
          obtain ⟨-, -, rfl, rfl⟩ := h
          simp

/-- A reservation is counted in the places it takes. -/
theorem counted_reserve {reg : DatasourceRegistry} (hc : CandidatesCounted reg) (r : Reservation)
    (hopen : r.released = false) :
    CandidatesCounted { reg with
      reservedRetired := reg.reservedRetired + unit r.retiredSlot
      dsCandidates := increment reg.dsCandidates r.key
      candidates := reg.candidates + 1
      reservations := reg.reservations ++ [r] } := by
  refine { candidates := ?_, perKey := ?_, reserved := ?_ }
  · show reg.candidates + 1 = _
    rw [countP_concat, hc.candidates, openReservation, hopen]
    rfl
  · intro key
    show increment reg.dsCandidates r.key key = _
    rw [increment_apply, countP_concat, hc.perKey, openReservationOf, hopen]
    rfl
  · show reg.reservedRetired + unit r.retiredSlot = _
    rw [countP_concat, hc.reserved, holdsSlot, hopen]
    rfl

/-- A reservation that is released leaves every count it was in. -/
theorem counted_releaseReservation {reg : DatasourceRegistry} {id : ReservationId}
    {r : Reservation} (hc : CandidatesCounted reg) (hid : reg.reservations[id]? = some r) :
    CandidatesCounted (releaseReservation reg id r) := by
  rw [releaseReservation]
  split
  · exact hc
  · rename_i hreleased
    rw [Bool.not_eq_true] at hreleased
    have hkey : 1 ≤ reg.dsCandidates r.key := by
      rw [hc.perKey]
      exact one_le_countP _ hid (by simp [openReservationOf, hreleased])
    refine { candidates := ?_, perKey := ?_, reserved := ?_ }
    · show reg.candidates - 1 = _
      rw [countP_set_of_getElem? _ _ hid, hc.candidates]
      simp [openReservation, hreleased]
    · intro key
      show decrement reg.dsCandidates r.key key = _
      rw [countP_set_of_getElem? _ _ hid, decrement_apply hkey, hc.perKey]
      simp [openReservationOf, hreleased]
    · show (if r.retiredSlot then reg.reservedRetired - 1 else reg.reservedRetired) = _
      rw [countP_set_of_getElem? _ _ hid, hc.reserved]
      cases hslot : r.retiredSlot <;> simp [holdsSlot, hreleased, hslot]

/-- The place that a publication takes up is no longer reserved. -/
theorem counted_useSlot {reg reg' : DatasourceRegistry} {id : ReservationId} {r : Reservation}
    {datasourceId : Name} {old : Generation} (hc : CandidatesCounted reg) (hid : reg.reservations[id]? = some r)
    (hopen : r.released = false) (h : useSlot reg id r datasourceId (some old) = .ok reg') :
    CandidatesCounted reg' := by
  simp only [useSlot] at h
  split at h
  · rename_i hslot
    obtain rfl := Except.ok.inj h
    refine { candidates := ?_, perKey := ?_, reserved := ?_ }
    · rw [countP_set_of_getElem? _ _ hid, ← hc.candidates]
      simp [openReservation, hopen]
    · intro key
      rw [countP_set_of_getElem? _ _ hid, ← hc.perKey]
      simp [openReservationOf, hopen]
    · show reg.reservedRetired - 1 = _
      rw [countP_set_of_getElem? _ _ hid, hc.reserved]
      simp [holdsSlot, hopen, hslot]
  · simp only [bind_eq_ok, pure_eq_ok] at h
    obtain ⟨-, -, rfl⟩ := h
    exact hc

/-! ### Lifecycles -/

@[simp] theorem life_setLife_self (reg : DatasourceRegistry) (g : Generation) (l : Lifecycle) :
    (reg.setLife g l).life g = l := Function.update_self ..

@[simp] theorem lifecycles_setLife_self (reg : DatasourceRegistry) (g : Generation)
    (l : Lifecycle) : (reg.setLife g l).lifecycles g.generation = l := Function.update_self ..

@[simp] theorem lifecycles_setLife_of_ne (reg : DatasourceRegistry) {g : Generation} {n : Nat}
    (h : n ≠ g.generation) (l : Lifecycle) :
    (reg.setLife g l).lifecycles n = reg.lifecycles n := Function.update_of_ne h ..

/-- The number tells the generations apart. -/
theorem Kept.eq_of_number {reg : DatasourceRegistry} {leaving : Option Generation}
    (hk : Kept leaving reg) {g g' : Generation} (hg : g ∈ reg.everPublished)
    (hg' : g' ∈ reg.everPublished) (h : g.generation = g'.generation) : g = g' := by
  have hnodup : (reg.everPublished.map Generation.generation).Nodup :=
    List.pairwise_map.mpr (hk.increasing.imp Nat.ne_of_lt)
  exact List.inj_on_of_nodup_map hnodup hg hg' h

/-- A change of one lifecycle that keeps `_sessions` leaves the counts of sessions alone. -/
theorem sessions_setLife {reg : DatasourceRegistry} {g : Generation} {l : Lifecycle}
    (hs : SessionsCounted reg) (h : l.sessions = (reg.life g).sessions) (n : Nat) :
    ((reg.setLife g l).lifecycles n).sessions = reg.leases.countP (admittedTo n) := by
  rw [← hs.perGeneration]
  by_cases hn : n = g.generation
  · rw [hn, lifecycles_setLife_self]
    exact h
  · rw [lifecycles_setLife_of_ne _ hn]

/-- The lifecycle of a generation after a change of another, or of itself. -/
theorem Kept.life_setLife {reg : DatasourceRegistry} {leaving : Option Generation}
    (hk : Kept leaving reg) {g g' : Generation} (hg : g ∈ reg.everPublished)
    (hg' : g' ∈ reg.everPublished) (l : Lifecycle) :
    (reg.setLife g l).life g' = if g' = g then l else reg.life g' := by
  by_cases h : g' = g
  · rw [if_pos h, h, life_setLife_self]
  · rw [if_neg h]
    exact lifecycles_setLife_of_ne reg (fun hn => h (hk.eq_of_number hg' hg hn)) l

/-- What `_take_closable_locked` can do. -/
theorem takeClosable_cases (reg : DatasourceRegistry) (g : Generation) :
    (Busy reg g.generation ∧ takeClosable reg g = (none, reg)) ∨
      ((reg.life g).retired = true ∧ (reg.life g).sessions ≤ 0 ∧ (reg.life g).closed = false ∧
        takeClosable reg g = (some g,
          { reg.setLife g { reg.life g with closed := true } with
            retired := reg.retired.erase g
            dsRetired := decrement reg.dsRetired g.datasourceId })) := by
  by_cases h : ¬ (reg.life g).retired ∨ (reg.life g).sessions > 0 ∨ (reg.life g).closed
  · left
    refine ⟨?_, if_pos h⟩
    intro hretired hopen
    rcases h with h | h | h
    · exact absurd hretired h
    · exact h
    · rw [show (reg.life g).closed = false from hopen] at h
      cases h
  · right
    have hout : takeClosable reg g = _ := if_neg h
    rw [not_or, not_or, not_not, Int.not_lt, Bool.not_eq_true] at h
    exact ⟨h.1, h.2.1, h.2.2, hout⟩

/-- What a generation's new lifecycle has to satisfy, with the list of retired generations that
goes with it. -/
structure Change (reg : DatasourceRegistry) (leaving leaving' : Option Generation)
    (g : Generation) (l : Lifecycle) (retired' : List Generation) (dsRetired' : Counter) :
    Prop where
  published : (∃ e ∈ reg.published, e.2 = g) → l.retired = false ∧ l.closed = false
  unretired : l.retired = false → leaving' ≠ some g → (g.alias_, g) ∈ reg.published
  leaving : ∀ g', g' ≠ g → leaving' ≠ some g' → leaving ≠ some g'
  listed : g ∈ retired' ↔ l.retired = true ∧ l.closed = false
  others : ∀ g', g' ≠ g → (g' ∈ retired' ↔ g' ∈ reg.retired)
  retired_nodup : retired'.Nodup
  dsRetired : ∀ d, dsRetired' d = retired'.countP fun g => decide (d = g.datasourceId)
  closed_retired : l.closed = true → l.retired = true ∧ l.sessions = 0
  disposed_closed : l.disposed = true → l.closed = true
  all_closed : reg.closed = true → l.closed = true

/-- A change of one lifecycle keeps the generations, if it is a `Change`. -/
theorem kept_setLife {reg : DatasourceRegistry} {leaving leaving' : Option Generation}
    {g : Generation} {l : Lifecycle} {retired' : List Generation} {dsRetired' : Counter}
    (hk : Kept leaving reg) (hg : g ∈ reg.everPublished)
    (hc : Change reg leaving leaving' g l retired' dsRetired') :
    Kept leaving' { reg.setLife g l with retired := retired', dsRetired := dsRetired' } := by
  have hlife := fun {g'} (hg' : g' ∈ reg.everPublished) => hk.life_setLife hg hg' l
  refine { increasing := hk.increasing, below := hk.below, untouched := ?_,
           published_ever := hk.published_ever, published_open := ?_,
           aliases_nodup := hk.aliases_nodup, datasources_nodup := hk.datasources_nodup,
           unretired := ?_, listed := ?_, retired_nodup := hc.retired_nodup,
           dsRetired := hc.dsRetired, closed_retired := ?_, disposed_closed := ?_,
           lease_ever := hk.lease_ever, all_closed := ?_ }
  · intro n hn
    have hne : n ≠ g.generation := by
      have := hk.below g hg
      have hn : reg.nextGeneration ≤ n := hn
      omega
    exact (lifecycles_setLife_of_ne reg hne l).trans (hk.untouched n hn)
  · intro e he
    show ((reg.setLife g l).life e.2).retired = false ∧ ((reg.setLife g l).life e.2).closed = false
    rw [hlife (hk.published_ever e he).1]
    split
    · rename_i heq
      exact hc.published ⟨e, he, heq⟩
    · exact hk.published_open e he
  · intro g' hg' hunretired hleaving
    have hunretired : ((reg.setLife g l).life g').retired = false := hunretired
    rw [hlife hg'] at hunretired
    split at hunretired
    · rename_i heq
      rw [heq] at hleaving ⊢
      exact hc.unretired hunretired hleaving
    · rename_i hne
      exact hk.unretired g' hg' hunretired (hc.leaving g' hne hleaving)
  · intro g'
    show g' ∈ retired' ↔ g' ∈ reg.everPublished ∧ ((reg.setLife g l).life g').retired = true ∧
      ((reg.setLife g l).life g').closed = false
    by_cases heq : g' = g
    · rw [heq, life_setLife_self, hc.listed]
      exact (and_iff_right hg).symm
    · rw [hc.others g' heq, hk.listed g']
      refine and_congr_right fun hg' => ?_
      rw [hlife hg', if_neg heq]
  · intro n
    show ((reg.setLife g l).lifecycles n).closed = true →
      ((reg.setLife g l).lifecycles n).retired = true ∧
        ((reg.setLife g l).lifecycles n).sessions = 0
    by_cases hn : n = g.generation
    · rw [hn, lifecycles_setLife_self]
      exact hc.closed_retired
    · rw [lifecycles_setLife_of_ne reg hn]
      exact hk.closed_retired n
  · intro n
    show ((reg.setLife g l).lifecycles n).disposed = true →
      ((reg.setLife g l).lifecycles n).closed = true
    by_cases hn : n = g.generation
    · rw [hn, lifecycles_setLife_self]
      exact hc.disposed_closed
    · rw [lifecycles_setLife_of_ne reg hn]
      exact hk.disposed_closed n
  · intro hclosed g' hg'
    show ((reg.setLife g l).life g').closed = true
    rw [hlife hg']
    split
    · exact hc.all_closed hclosed
    · exact hk.all_closed hclosed g' hg'

/-- A retired generation is not published. -/
theorem Kept.not_published {reg : DatasourceRegistry} {leaving : Option Generation}
    {g : Generation} (hk : Kept leaving reg) (hretired : (reg.life g).retired = true) :
    ¬ ∃ e ∈ reg.published, e.2 = g := by
  intro ⟨e, he, heq⟩
  have hpublished := (hk.published_open e he).1
  rw [heq, hretired] at hpublished
  cases hpublished

/-- Marking a retired generation closed and taking it off the list. -/
theorem kept_close {reg : DatasourceRegistry} {g : Generation} (hk : Kept none reg)
    (hg : g ∈ reg.everPublished) (hretired : (reg.life g).retired = true)
    (hzero : (reg.life g).sessions = 0) (hopen : (reg.life g).closed = false) :
    Kept none { reg.setLife g { reg.life g with closed := true } with
      retired := reg.retired.erase g
      dsRetired := decrement reg.dsRetired g.datasourceId } := by
  have hmem : g ∈ reg.retired := (hk.listed g).mpr ⟨hg, hretired, hopen⟩
  refine kept_setLife hk hg
    { published := fun h => absurd h (hk.not_published hretired), unretired := ?_,
      leaving := fun _ _ h => h, listed := ?_, others := ?_,
      retired_nodup := hk.retired_nodup.erase g, dsRetired := ?_,
      closed_retired := fun _ => ⟨hretired, hzero⟩, disposed_closed := fun _ => rfl,
      all_closed := fun _ => rfl }
  · intro h
    rw [hretired] at h
    cases h
  · simp [hk.retired_nodup.mem_erase_iff]
  · intro g' hne
    rw [hk.retired_nodup.mem_erase_iff]
    exact and_iff_right hne
  · intro d
    have hpos : 1 ≤ reg.dsRetired g.datasourceId := by
      rw [hk.dsRetired]
      obtain ⟨i, hi⟩ := List.getElem?_of_mem hmem
      exact one_le_countP _ hi (by simp)
    rw [countP_erase_of_mem _ hmem, decrement_apply hpos, hk.dsRetired]

/-- Retiring a generation that is neither published nor retired. -/
theorem kept_retire {reg : DatasourceRegistry} {g : Generation} (hk : Kept (some g) reg)
    (hg : g ∈ reg.everPublished) (hunretired : (reg.life g).retired = false)
    (hopen : (reg.life g).closed = false) (hunpublished : ¬ ∃ e ∈ reg.published, e.2 = g) :
    Kept none { reg.setLife g { reg.life g with retired := true } with
      retired := reg.retired ++ [g]
      dsRetired := increment reg.dsRetired g.datasourceId } := by
  have hmem : g ∉ reg.retired := by
    intro h
    have := ((hk.listed g).mp h).2.1
    rw [hunretired] at this
    cases this
  refine kept_setLife hk hg
    { published := fun h => absurd h hunpublished, unretired := fun h => (nomatch h),
      leaving := ?_, listed := ?_, others := ?_, retired_nodup := ?_, dsRetired := ?_,
      closed_retired := ?_, disposed_closed := ?_, all_closed := ?_ }
  · intro g' hne _ heq
    exact hne (Option.some.inj heq).symm
  · simp [hopen]
  · intro g' hne
    simp [hne]
  · refine List.nodup_append.mpr ⟨hk.retired_nodup, List.nodup_singleton g, ?_⟩
    intro g' hg' g'' hg'' heq
    rw [List.mem_singleton.mp hg''] at heq
    exact hmem (heq ▸ hg')
  · intro d
    rw [countP_concat, increment_apply, hk.dsRetired]
  · intro h
    rw [hopen] at h
    cases h
  · exact hk.disposed_closed g.generation
  · intro h
    rw [hk.all_closed h g hg] at hopen
    cases hopen

/-- A session more or less on a generation that is open. -/
theorem kept_sessions {reg : DatasourceRegistry} {g : Generation} {leaving : Option Generation}
    (hk : Kept leaving reg) (hg : g ∈ reg.everPublished) (hopen : (reg.life g).closed = false)
    (count : Int) : Kept leaving (reg.setLife g { reg.life g with sessions := count }) := by
  refine kept_setLife hk hg
    { published := ?_, unretired := hk.unretired g hg, leaving := fun _ _ h => h, listed := ?_,
      others := fun _ _ => Iff.rfl, retired_nodup := hk.retired_nodup, dsRetired := hk.dsRetired,
      closed_retired := ?_, disposed_closed := hk.disposed_closed g.generation,
      all_closed := fun h => hk.all_closed h g hg }
  · intro ⟨e, he, heq⟩
    exact heq ▸ hk.published_open e he
  · exact (hk.listed g).trans (and_iff_right hg)
  · intro h
    rw [show (reg.life g).closed = true from h] at hopen
    cases hopen

/-- Closing the generation that a section left retired, unused and open, if it did. -/
theorem settle {limits : RegistryLimits} {reg : DatasourceRegistry} {g : Generation}
    (ha : AccountedBut limits none (some g.generation) reg) (hg : g ∈ reg.everPublished) :
    Accounted limits (takeClosable reg g).2 := by
  rcases takeClosable_cases reg g with ⟨hbusy, hout⟩ | ⟨hretired, hidle, hopen, hout⟩
  · rw [hout]
    refine { ha with busy := ?_ }
    intro n _
    by_cases hn : n = g.generation
    · rw [hn]
      exact hbusy
    · exact ha.busy n (by simpa using Ne.symm hn)
  · rw [hout]
    have hzero : (reg.life g).sessions = 0 := by
      have hcount := ha.sessions.perGeneration g.generation
      have hlife : (reg.life g).sessions = (reg.lifecycles g.generation).sessions := rfl
      omega
    refine { limits_eq := ha.limits_eq, candidates := ⟨ha.candidates.1, ha.candidates.2,
               ha.candidates.3⟩, sessions := ?_, kept := ?_, busy := ?_, shut := ha.shut }
    · exact { nodup := ha.sessions.nodup, mem_iff := ha.sessions.mem_iff,
              total := ha.sessions.total, perDatasource := ha.sessions.perDatasource,
              perGeneration := sessions_setLife ha.sessions rfl, bound := ha.sessions.bound }
    · exact kept_close ha.kept hg hretired hzero hopen
    · intro n _
      by_cases hn : n = g.generation
      · intro _ hclosed
        rw [hn, show (_ : DatasourceRegistry).lifecycles g.generation = _ from
          lifecycles_setLife_self reg g _] at hclosed
        cases hclosed
      · have := ha.busy n (by simpa using Ne.symm hn)
        rw [Busy] at this ⊢
        rw [show (_ : DatasourceRegistry).lifecycles n = _ from
          lifecycles_setLife_of_ne reg hn _]
        exact this

/-- `_retire_locked` of a generation that is neither published nor retired. -/
theorem accounted_retire {limits : RegistryLimits} {reg : DatasourceRegistry} {g : Generation}
    (ha : AccountedBut limits (some g) none reg) (hg : g ∈ reg.everPublished)
    (hunretired : (reg.life g).retired = false) (hopen : (reg.life g).closed = false)
    (hunpublished : ¬ ∃ e ∈ reg.published, e.2 = g) :
    Accounted limits (retire reg g).2 := by
  rw [retire]
  refine settle ?_ hg
  refine { limits_eq := ha.limits_eq, candidates := ⟨ha.candidates.1, ha.candidates.2,
             ha.candidates.3⟩, sessions := ?_, kept := ?_, busy := ?_, shut := ha.shut }
  · exact { nodup := ha.sessions.nodup, mem_iff := ha.sessions.mem_iff,
            total := ha.sessions.total, perDatasource := ha.sessions.perDatasource,
            perGeneration := sessions_setLife ha.sessions rfl, bound := ha.sessions.bound }
  · exact kept_retire ha.kept hg hunretired hopen hunpublished
  · intro n hn
    have hn : n ≠ g.generation := fun heq => hn (heq ▸ rfl)
    have hbusy := ha.busy n (fun h => nomatch h)
    rw [Busy] at hbusy ⊢
    rw [show (_ : DatasourceRegistry).lifecycles n = _ from lifecycles_setLife_of_ne reg hn _]
    exact hbusy

end MaskGateway.Proofs.Datasources
