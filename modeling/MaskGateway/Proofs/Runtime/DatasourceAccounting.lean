import MaskGateway.Proofs.Runtime.DatasourceCounts

/-!
# `MaskGateway.Proofs.Runtime.DatasourceAccounting`: the counters count what is there

Every lock section of `DatasourceRegistry` keeps the counts of `DatasourceCounts`, whatever its
arguments. The end of the module is a run: whatever sections the threads interleave, every counter
is the number of objects it stands for.
-/

set_option autoImplicit false

namespace MaskGateway.Proofs.Datasources

open MaskGateway.Lib
open MaskGateway.Runtime.Datasources

/-! ### Publication and withdrawal -/

/-- An alias that is found is in the dict. -/
theorem mem_of_lookup {published : List (Name × Generation)} {alias_ : Name} {g : Generation}
    (h : published.lookup alias_ = some g) : (alias_, g) ∈ published := by
  obtain ⟨l₁, l₂, rfl, -⟩ := List.lookup_eq_some_iff.mp h
  simp

/-- An alias that is not found is not in the dict. -/
theorem not_mem_of_lookup {published : List (Name × Generation)} {alias_ : Name}
    (h : published.lookup alias_ = none) : ∀ e ∈ published, e.1 ≠ alias_ := by
  intro e he heq
  have hne := bne_iff_ne.mp (List.lookup_eq_none_iff.mp h e he)
  exact hne heq.symm

/-- The generation of a datasource that is published. -/
theorem publishedFor_eq_some {reg : DatasourceRegistry} {datasourceId alias_ : Name}
    {g : Generation} (h : publishedFor reg datasourceId = some (alias_, g)) :
    (alias_, g) ∈ reg.published ∧ g.datasourceId = datasourceId :=
  ⟨List.mem_of_find?_eq_some h, by simpa using List.find?_some h⟩

/-- An entry of the dict is told by its alias. -/
theorem Kept.entry_unique {reg : DatasourceRegistry} {leaving : Option Generation}
    (hk : Kept leaving reg) {e e' : Name × Generation} (he : e ∈ reg.published)
    (he' : e' ∈ reg.published) (h : e.1 = e'.1) : e = e' :=
  List.inj_on_of_nodup_map hk.aliases_nodup he he' h

/-- `withdraw` keeps the counts. -/
theorem accounted_withdraw {limits : RegistryLimits} {reg : DatasourceRegistry}
    (ha : Accounted limits reg) (datasourceId : Name) :
    Accounted limits (withdraw reg datasourceId).2.2 := by
  rw [withdraw]
  split
  · exact ha
  · rename_i alias_ g hfound
    obtain ⟨hmem, -⟩ := publishedFor_eq_some hfound
    have hk := ha.kept
    obtain ⟨hever, halias⟩ := hk.published_ever _ hmem
    obtain ⟨hunretired, hopen⟩ := hk.published_open _ hmem
    have hsub : ∀ e ∈ deletePublished reg.published alias_, e ∈ reg.published ∧ e.1 ≠ alias_ := by
      intro e he
      simpa [deletePublished] using he
    have hsublist : (deletePublished reg.published alias_).Sublist reg.published :=
      List.filter_sublist
    refine accounted_retire (g := g) ?_ hever hunretired hopen ?_
    · refine { ha with candidates := ⟨ha.candidates.1, ha.candidates.2, ha.candidates.3⟩,
                       sessions := { ha.sessions with }, kept := ?_, busy := ha.busy }
      refine { hk with published_ever := ?_, published_open := ?_, aliases_nodup := ?_,
                       datasources_nodup := ?_, unretired := ?_ }
      · exact fun e he => hk.published_ever e (hsub e he).1
      · exact fun e he => hk.published_open e (hsub e he).1
      · exact hk.aliases_nodup.sublist (hsublist.map _)
      · exact hk.datasources_nodup.sublist (hsublist.map _)
      · intro g' hg' hunretired' hne
        have hpublished := hk.unretired g' hg' hunretired' (fun h => nomatch h)
        have hother : g'.alias_ ≠ alias_ := by
          intro heq
          have hentry := hk.entry_unique hpublished hmem heq
          exact hne (congrArg some (congrArg Prod.snd hentry).symm)
        simpa [deletePublished] using ⟨hpublished, hother⟩
    · intro ⟨e, he, heq⟩
      obtain ⟨hin, hne⟩ := hsub e he
      have : e.1 = alias_ := by
        rw [← (hk.published_ever e hin).2, heq]
        exact halias
      exact hne this

/-- `useSlot` touches the reservations only. -/
theorem useSlot_frame {reg reg' : DatasourceRegistry} {id : ReservationId} {r : Reservation}
    {datasourceId : Name} {old : Generation}
    (h : useSlot reg id r datasourceId (some old) = .ok reg') :
    ∃ reservations reserved,
      reg' = { reg with reservations := reservations, reservedRetired := reserved } := by
  simp only [useSlot] at h
  split at h
  · obtain rfl := Except.ok.inj h
    exact ⟨_, _, rfl⟩
  · simp only [bind_eq_ok, pure_eq_ok] at h
    obtain ⟨-, -, rfl⟩ := h
    exact ⟨reg.reservations, reg.reservedRetired, rfl⟩

/-- What `_publish` does when it is not refused. -/
theorem publish_ok {reg reg' : DatasourceRegistry} {id : ReservationId} {r : Reservation}
    {datasourceId alias_ : Name} {recordRevision : Nat} {prepared : PreparedRuntime}
    {new : Generation} {toClose : Option Generation}
    (h : publish reg id r datasourceId alias_ recordRevision prepared = .ok (new, toClose, reg')) :
    r.released = false ∧ reg.closed = false ∧
      new = { datasourceId := datasourceId, alias_ := alias_, generation := reg.nextGeneration,
              recordRevision := recordRevision, prepared := prepared } ∧
      (∀ e ∈ reg.published, e.2.datasourceId = datasourceId → e.1 = alias_) ∧
      ((reg.published.lookup alias_ = none ∧ toClose = none ∧ reg' = publishNew reg new) ∨
        ∃ old reg₁, reg.published.lookup alias_ = some old ∧ old.datasourceId = datasourceId ∧
          useSlot reg id r datasourceId (some old) = .ok reg₁ ∧
          retire (publishNew reg₁ new) old = (toClose, reg')) := by
  simp only [publish, publishCheck, bind_eq_ok, refuseIf_eq_ok, exists_const, pure_eq_ok,
    Bool.not_eq_true] at h
  obtain ⟨old, ⟨hreleased, hclosed, halias, helsewhere, rfl⟩, reg₁, hslot, h⟩ := h
  have hunique : ∀ e ∈ reg.published, e.2.datasourceId = datasourceId → e.1 = alias_ := by
    intro e he heq
    by_contra hne
    rw [List.any_eq_false] at helsewhere
    exact helsewhere e he (by simp [heq, hne])
  cases hold : reg.published.lookup alias_ with
  | none =>
      rw [hold] at h hslot
      obtain rfl := Except.ok.inj hslot
      simp only [pure_eq_ok, Prod.mk.injEq] at h
      obtain ⟨rfl, rfl, rfl⟩ := h
      exact ⟨hreleased, hclosed, rfl, hunique, .inl ⟨rfl, rfl, rfl⟩⟩
  | some g =>
      rw [hold] at h hslot halias
      simp only [pure_eq_ok, Prod.mk.injEq] at h
      obtain ⟨rfl, rfl, rfl⟩ := h
      have hid : g.datasourceId = datasourceId := by simpa using halias
      exact ⟨hreleased, hclosed, rfl, hunique, .inr ⟨g, reg₁, rfl, hid, hslot, rfl⟩⟩

/-- The dict after a publication. -/
theorem mem_setPublished {published : List (Name × Generation)} {alias_ : Name} {g : Generation}
    {e : Name × Generation} :
    e ∈ setPublished published alias_ g ↔ e = (alias_, g) ∨ (e ∈ published ∧ e.1 ≠ alias_) := by
  rw [setPublished]
  split
  · rename_i hsome
    obtain ⟨old, hold⟩ := Option.isSome_iff_exists.mp hsome
    have hmem := mem_of_lookup hold
    rw [List.mem_map]
    constructor
    · intro ⟨e', he', heq⟩
      split at heq
      · exact .inl heq.symm
      · rename_i hne
        exact .inr (heq ▸ ⟨he', hne⟩)
    · intro h
      rcases h with rfl | ⟨he, hne⟩
      · exact ⟨_, hmem, if_pos rfl⟩
      · exact ⟨e, he, if_neg hne⟩
  · rename_i hnone
    have hnot := not_mem_of_lookup (Option.not_isSome_iff_eq_none.mp hnone)
    rw [List.mem_append, List.mem_singleton, or_comm]
    exact or_congr_right ⟨fun he => ⟨he, hnot e he⟩, fun he => he.1⟩

/-- A publication keeps a dict without doubles of either kind. -/
theorem nodup_setPublished {published : List (Name × Generation)} {alias_ : Name}
    {g : Generation} (haliases : (published.map Prod.fst).Nodup)
    (hdatasources : (published.map fun e => e.2.datasourceId).Nodup)
    (hsame : ∀ old, published.lookup alias_ = some old → old.datasourceId = g.datasourceId)
    (hunique : ∀ e ∈ published, e.2.datasourceId = g.datasourceId → e.1 = alias_) :
    ((setPublished published alias_ g).map Prod.fst).Nodup ∧
      ((setPublished published alias_ g).map fun e => e.2.datasourceId).Nodup := by
  rw [setPublished]
  split
  · rename_i hsome
    obtain ⟨old, hold⟩ := Option.isSome_iff_exists.mp hsome
    have hmem := mem_of_lookup hold
    -- the entry is replaced by one of the same alias and the same datasource
    have hfst : (published.map fun e => if e.1 = alias_ then (alias_, g) else e).map Prod.fst =
        published.map Prod.fst := by
      rw [List.map_map]
      refine List.map_congr_left fun e _ => ?_
      show (if e.1 = alias_ then (alias_, g) else e).1 = e.1
      split
      · rename_i heq
        exact heq.symm
      · rfl
    have hids : ((published.map fun e => if e.1 = alias_ then (alias_, g) else e).map
        fun e => e.2.datasourceId) = published.map fun e => e.2.datasourceId := by
      rw [List.map_map]
      refine List.map_congr_left fun e he => ?_
      show (if e.1 = alias_ then (alias_, g) else e).2.datasourceId = e.2.datasourceId
      split
      · rename_i heq
        have hentry : e = (alias_, old) := List.inj_on_of_nodup_map haliases he hmem heq
        rw [hentry]
        exact (hsame old hold).symm
      · rfl
    rw [hfst, hids]
    exact ⟨haliases, hdatasources⟩
  · rename_i hnone
    have hnot := not_mem_of_lookup (Option.not_isSome_iff_eq_none.mp hnone)
    rw [List.map_append, List.map_append]
    constructor
    · refine List.nodup_append.mpr ⟨haliases, List.nodup_singleton _, ?_⟩
      intro a ha b hb heq
      obtain ⟨e, he, rfl⟩ := List.mem_map.mp ha
      rw [List.map_singleton, List.mem_singleton] at hb
      exact hnot e he (heq.trans hb)
    · refine List.nodup_append.mpr ⟨hdatasources, List.nodup_singleton _, ?_⟩
      intro a ha b hb heq
      obtain ⟨e, he, rfl⟩ := List.mem_map.mp ha
      rw [List.map_singleton, List.mem_singleton] at hb
      exact hnot e he (hunique e he (heq.trans hb))

/-- The new generation under its alias: the one that was there is leaving. -/
theorem kept_publishNew {reg : DatasourceRegistry} {g : Generation} (hk : Kept none reg)
    (hopen : reg.closed = false) (hnumber : g.generation = reg.nextGeneration)
    (hsame : ∀ old, reg.published.lookup g.alias_ = some old → old.datasourceId = g.datasourceId)
    (hunique : ∀ e ∈ reg.published, e.2.datasourceId = g.datasourceId → e.1 = g.alias_) :
    Kept (reg.published.lookup g.alias_) (publishNew reg g) := by
  have hfresh : reg.life g = {} := hk.untouched g.generation (by omega)
  have hnew : ∀ g' ∈ reg.everPublished ++ [g], g' ∈ reg.everPublished ∨ g' = g := by
    intro g' hg'
    simpa using hg'
  obtain ⟨haliases, hdatasources⟩ :=
    nodup_setPublished hk.aliases_nodup hk.datasources_nodup hsame hunique
  refine { increasing := ?_, below := ?_, untouched := ?_, published_ever := ?_,
           published_open := ?_, aliases_nodup := haliases, datasources_nodup := hdatasources,
           unretired := ?_, listed := ?_, retired_nodup := hk.retired_nodup,
           dsRetired := hk.dsRetired, closed_retired := hk.closed_retired,
           disposed_closed := hk.disposed_closed, lease_ever := ?_, all_closed := ?_ }
  · refine List.pairwise_append.mpr ⟨hk.increasing, List.pairwise_singleton _ _, ?_⟩
    intro g' hg' g'' hg''
    rw [List.mem_singleton.mp hg'', hnumber]
    exact hk.below g' hg'
  · intro g' hg'
    show g'.generation < reg.nextGeneration + 1
    rcases hnew g' hg' with h | h
    · exact Nat.lt_succ_of_lt (hk.below g' h)
    · rw [h, hnumber]
      exact Nat.lt_succ_self _
  · intro n hn
    exact hk.untouched n (Nat.le_of_succ_le hn)
  · intro e he
    rcases mem_setPublished.mp he with rfl | ⟨he, -⟩
    · exact ⟨List.mem_append_right _ (List.mem_singleton.mpr rfl), rfl⟩
    · exact ⟨List.mem_append_left _ (hk.published_ever e he).1, (hk.published_ever e he).2⟩
  · intro e he
    rcases mem_setPublished.mp he with rfl | ⟨he, -⟩
    · show (reg.life g).retired = false ∧ (reg.life g).closed = false
      rw [hfresh]
      exact ⟨rfl, rfl⟩
    · exact hk.published_open e he
  · intro g' hg' hunretired hleaving
    show (g'.alias_, g') ∈ setPublished reg.published g.alias_ g
    rw [mem_setPublished]
    rcases hnew g' hg' with h | rfl
    · right
      have hpublished := hk.unretired g' h hunretired (fun h => nomatch h)
      refine ⟨hpublished, fun heq => hleaving ?_⟩
      -- the dict has one entry for the alias, and the search finds it
      have heq : g'.alias_ = g.alias_ := heq
      cases hold : reg.published.lookup g.alias_ with
      | none =>
          exact absurd heq (not_mem_of_lookup hold _ hpublished)
      | some old =>
          have hentry := hk.entry_unique hpublished (mem_of_lookup hold) heq
          exact congrArg some (congrArg Prod.snd hentry).symm
    · exact .inl rfl
  · intro g'
    show g' ∈ reg.retired ↔ g' ∈ reg.everPublished ++ [g] ∧ (reg.life g').retired = true ∧
      (reg.life g').closed = false
    rw [hk.listed g']
    refine ⟨fun h => ⟨List.mem_append_left _ h.1, h.2⟩, fun h => ⟨?_, h.2⟩⟩
    rcases hnew g' h.1 with hg' | rfl
    · exact hg'
    · rw [hfresh] at h
      exact absurd h.2.1 Bool.false_ne_true
  · exact fun l hl => List.mem_append_left _ (hk.lease_ever l hl)
  · intro h
    rw [show reg.closed = true from h] at hopen
    cases hopen

/-- `_publish` keeps the counts. -/
theorem accounted_publish {limits : RegistryLimits} {reg reg' : DatasourceRegistry}
    {id : ReservationId} {r : Reservation} {datasourceId alias_ : Name} {recordRevision : Nat}
    {prepared : PreparedRuntime} {new : Generation} {toClose : Option Generation}
    (ha : Accounted limits reg) (hid : reg.reservations[id]? = some r)
    (h : publish reg id r datasourceId alias_ recordRevision prepared = .ok (new, toClose, reg')) :
    Accounted limits reg' := by
  obtain ⟨hreleased, hopen, rfl, hunique, h⟩ := publish_ok h
  rcases h with ⟨hnone, rfl, rfl⟩ | ⟨old, reg₁, hold, hsame, hslot, hretire⟩
  · have hkept := kept_publishNew ha.kept hopen (g := ⟨datasourceId, alias_, reg.nextGeneration,
      recordRevision, prepared⟩) rfl (fun old hold => by rw [hnone] at hold; cases hold) hunique
    rw [hnone] at hkept
    exact { ha with candidates := ⟨ha.candidates.1, ha.candidates.2, ha.candidates.3⟩,
                    sessions := { ha.sessions with }, kept := hkept, busy := ha.busy }
  · have hcandidates := counted_useSlot ha.candidates hid hreleased hslot
    obtain ⟨reservations, reserved, rfl⟩ := useSlot_frame hslot
    let new : Generation := ⟨datasourceId, alias_, reg.nextGeneration, recordRevision, prepared⟩
    have hmem := mem_of_lookup hold
    obtain ⟨hever, halias⟩ := ha.kept.published_ever _ hmem
    obtain ⟨hunretired, hopened⟩ := ha.kept.published_open _ hmem
    have hfound : ∀ old', reg.published.lookup alias_ = some old' →
        old'.datasourceId = datasourceId := by
      intro old' hold'
      rw [hold] at hold'
      rw [← Option.some.inj hold']
      exact hsame
    have hframe : Kept none { reg with
        reservations := reservations, reservedRetired := reserved } := { ha.kept with }
    have hkept : Kept (reg.published.lookup alias_)
        (publishNew { reg with reservations := reservations, reservedRetired := reserved } new) :=
      kept_publishNew (g := new) hframe hopen rfl hfound hunique
    rw [hold] at hkept
    have hout := @accounted_retire limits
      (publishNew { reg with reservations := reservations, reservedRetired := reserved } new) old
      { limits_eq := ha.limits_eq,
        candidates := ⟨hcandidates.1, hcandidates.2, hcandidates.3⟩,
        sessions := { ha.sessions with }, kept := hkept, busy := ha.busy, shut := ha.shut }
      (List.mem_append_left _ hever) hunretired hopened (by
        intro ⟨e, he, heq⟩
        rcases mem_setPublished.mp he with rfl | ⟨he, hne⟩
        · -- the new generation has a number that the old one cannot have
          have hbelow := ha.kept.below old hever
          rw [← show new = old from heq] at hbelow
          exact Nat.lt_irrefl _ hbelow
        · refine hne ?_
          rw [← (ha.kept.published_ever e he).2, heq]
          exact halias)
    rw [hretire] at hout
    exact hout

/-! ### Sessions -/

/-- What `open_session` does when it admits. -/
theorem openSession_ok {reg reg' : DatasourceRegistry} {alias_ : Name} {id : LeaseId}
    (h : openSession reg alias_ = .ok (id, reg')) :
    ∃ g, reg.closing = false ∧ reg.sessions.length < reg.limits.maxSessions ∧
      reg.published.lookup alias_ = some g ∧ (reg.life g).retired = false ∧
      (reg.life g).closed = false ∧ reg.dsSessions g.datasourceId < g.prepared.maxSessions ∧
      id = reg.leases.length ∧
      reg' = { reg.setLife g { reg.life g with sessions := (reg.life g).sessions + 1 } with
        dsSessions := increment reg.dsSessions g.datasourceId
        sessions := reg.sessions ++ [reg.leases.length]
        leases := reg.leases ++ [{ generation := g }] } := by
  simp only [openSession, bind_eq_ok, refuseIf_eq_ok, exists_const, Bool.not_eq_true,
    Nat.not_le] at h
  obtain ⟨hclosing, hroom, h⟩ := h
  split at h
  · cases h
  · rename_i g hg
    simp only [bind_eq_ok, refuseIf_eq_ok, exists_const, pure_eq_ok, Prod.mk.injEq, not_or,
      Bool.not_eq_true, Int.not_le] at h
    obtain ⟨⟨hretired, hclosed⟩, -, hlimit, rfl, rfl⟩ := h
    exact ⟨g, hclosing, hroom, hg, hretired, hclosed, hlimit, rfl, rfl⟩

/-- `open_session` keeps the counts. -/
theorem accounted_openSession {limits : RegistryLimits} {reg reg' : DatasourceRegistry}
    {alias_ : Name} {id : LeaseId} (ha : Accounted limits reg)
    (h : openSession reg alias_ = .ok (id, reg')) : Accounted limits reg' := by
  obtain ⟨g, hclosing, hroom, hfound, hunretired, hopen, -, rfl, rfl⟩ := openSession_ok h
  have hever := (ha.kept.published_ever _ (mem_of_lookup hfound)).1
  have hs := ha.sessions
  refine { limits_eq := ha.limits_eq, candidates := ⟨ha.candidates.1, ha.candidates.2,
             ha.candidates.3⟩, sessions := ?_, kept := ?_, busy := ?_, shut := ?_ }
  · refine { nodup := ?_, mem_iff := ?_, total := ?_, perDatasource := ?_, perGeneration := ?_,
             bound := ?_ }
    · refine List.nodup_append.mpr ⟨hs.nodup, List.nodup_singleton _, ?_⟩
      intro i hi j hj heq
      obtain ⟨l, hl, -⟩ := (hs.mem_iff i).mp hi
      rw [heq, List.mem_singleton.mp hj, List.getElem?_eq_none (Nat.le_refl _)] at hl
      cases hl
    · intro i
      show i ∈ reg.sessions ++ [reg.leases.length] ↔
        ∃ l, (reg.leases ++ [({ generation := g } : Lease)])[i]? = some l ∧ l.released = false
      rw [List.mem_append, List.mem_singleton, hs.mem_iff]
      rcases Nat.lt_trichotomy i reg.leases.length with hi | hi | hi
      · rw [List.getElem?_append_left hi]
        exact or_iff_left (Nat.ne_of_lt hi)
      · refine iff_of_true (.inr hi) ⟨({ generation := g } : Lease), ?_, rfl⟩
        rw [hi, List.getElem?_concat_length]
      · rw [List.getElem?_eq_none (Nat.le_of_lt hi),
          List.getElem?_eq_none (by rw [List.length_append]; exact hi)]
        simp [Nat.ne_of_gt hi]
    · show ((reg.sessions ++ [reg.leases.length]).length : Int) = _
      rw [countP_concat, List.length_append, ← hs.total]
      rfl
    · intro d
      show increment reg.dsSessions g.datasourceId d = _
      rw [countP_concat, increment_apply, hs.perDatasource]
      rfl
    · intro n
      show ((reg.setLife g _).lifecycles n).sessions = _
      rw [countP_concat, ← hs.perGeneration]
      by_cases hn : n = g.generation
      · rw [hn, lifecycles_setLife_self]
        simp [admittedTo, DatasourceRegistry.life]
      · rw [lifecycles_setLife_of_ne reg hn]
        simp [admittedTo, hn]
    · show (reg.sessions ++ [reg.leases.length]).length ≤ reg.limits.maxSessions
      rw [List.length_append, List.length_singleton]
      omega
  · have hkept := kept_sessions ha.kept hever hopen ((reg.life g).sessions + 1)
    refine { hkept with lease_ever := ?_ }
    intro l hl
    rcases List.mem_append.mp hl with hl | hl
    · exact ha.kept.lease_ever l hl
    · rw [List.mem_singleton.mp hl]
      exact hever
  · intro n _
    rw [Busy]
    show ((reg.setLife g _).lifecycles n).retired = true → _ → 0 <
      ((reg.setLife g _).lifecycles n).sessions
    by_cases hn : n = g.generation
    · rw [hn, lifecycles_setLife_self]
      intro hretired
      rw [hunretired] at hretired
      cases hretired
    · rw [lifecycles_setLife_of_ne reg hn]
      exact ha.busy n (fun h => by cases h)
  · intro hclosed
    have := (ha.shut hclosed).1
    rw [hclosing] at this
    cases this

/-- `_release` keeps the counts. -/
theorem accounted_release {limits : RegistryLimits} {reg : DatasourceRegistry} {id : LeaseId}
    {l : Lease} (ha : Accounted limits reg) (hid : reg.leases[id]? = some l) :
    Accounted limits (release reg id l).2 := by
  rw [release]
  split
  · exact ha
  · rename_i hmem
    rw [not_not] at hmem
    have hs := ha.sessions
    have hadmitted : l.released = false := by
      obtain ⟨l', hl', hreleased⟩ := (hs.mem_iff id).mp hmem
      rw [hid] at hl'
      rw [Option.some.inj hl']
      exact hreleased
    have hever := ha.kept.lease_ever l (List.mem_of_getElem? hid)
    have hds : 1 ≤ reg.dsSessions l.generation.datasourceId := by
      rw [hs.perDatasource]
      exact one_le_countP _ hid (by simp [admittedOf, hadmitted])
    have hpos : 1 ≤ (reg.life l.generation).sessions := by
      rw [DatasourceRegistry.life, hs.perGeneration]
      exact one_le_countP _ hid (by simp [admittedTo, hadmitted])
    have hopen : (reg.life l.generation).closed = false := by
      cases hclosed : (reg.life l.generation).closed with
      | false => rfl
      | true =>
          have hzero : (reg.life l.generation).sessions = 0 :=
            (ha.kept.closed_retired l.generation.generation hclosed).2
          omega
    refine settle ?_ hever
    refine { limits_eq := ha.limits_eq, candidates := ⟨ha.candidates.1, ha.candidates.2,
               ha.candidates.3⟩, sessions := ?_, kept := ?_, busy := ?_, shut := ?_ }
    · refine { nodup := hs.nodup.erase id, mem_iff := ?_, total := ?_, perDatasource := ?_,
               perGeneration := ?_, bound := ?_ }
      · intro i
        show i ∈ reg.sessions.erase id ↔
          ∃ l', (reg.leases.set id { l with released := true })[i]? = some l' ∧ l'.released = false
        rw [hs.nodup.mem_erase_iff, hs.mem_iff]
        by_cases hi : i = id
        · rw [hi]
          refine iff_of_false (fun h => h.1 rfl) ?_
          rintro ⟨l', hl', hreleased⟩
          rw [List.getElem?_set_self (List.getElem?_eq_some_iff.mp hid).1] at hl'
          rw [← Option.some.inj hl'] at hreleased
          cases hreleased
        · rw [List.getElem?_set_ne (Ne.symm hi)]
          exact and_iff_right hi
      · show ((reg.sessions.erase id).length : Int) = _
        rw [countP_set_of_getElem? _ _ hid, ← hs.total, List.length_erase_of_mem hmem]
        have hlength := List.length_pos_of_mem hmem
        simp only [admitted, hadmitted, Bool.not_false, Bool.not_true, unit_true, unit_false]
        omega
      · intro d
        show decrement reg.dsSessions l.generation.datasourceId d = _
        rw [countP_set_of_getElem? _ _ hid, decrement_apply hds, hs.perDatasource]
        simp [admittedOf, hadmitted]
      · intro n
        show ((reg.setLife l.generation _).lifecycles n).sessions = _
        rw [countP_set_of_getElem? _ _ hid, ← hs.perGeneration]
        by_cases hn : n = l.generation.generation
        · rw [hn, lifecycles_setLife_self]
          simp [admittedTo, hadmitted, DatasourceRegistry.life]
        · rw [lifecycles_setLife_of_ne reg hn]
          simp [admittedTo, hn]
      · exact Nat.le_trans (List.length_erase_le ..) hs.bound
    · have hkept := kept_sessions ha.kept hever hopen ((reg.life l.generation).sessions - 1)
      refine { hkept with lease_ever := ?_ }
      intro l' hl'
      rcases List.mem_or_eq_of_mem_set hl' with hl' | hl'
      · exact ha.kept.lease_ever l' hl'
      · rw [hl']
        exact hever
    · intro n hn
      have hn : n ≠ l.generation.generation := fun heq => hn (heq ▸ rfl)
      rw [Busy]
      show ((reg.setLife l.generation _).lifecycles n).retired = true → _ → 0 <
        ((reg.setLife l.generation _).lifecycles n).sessions
      rw [lifecycles_setLife_of_ne reg hn]
      exact ha.busy n (fun h => by cases h)
    · intro hclosed
      have := (ha.shut hclosed).2.1
      rw [this] at hmem
      exact absurd hmem List.not_mem_nil

/-! ### Shutdown -/

/-- The lifecycles once the generations of some numbers are retired and closed. -/
def markClosed (numbers : List Nat) (lifecycles : Nat → Lifecycle) (n : Nat) : Lifecycle :=
  if n ∈ numbers then { lifecycles n with retired := true, closed := true } else lifecycles n

/-- The loop of `close` over generations that are open and told apart by their numbers. -/
theorem closePending_eq {pending : List Generation} {reg : DatasourceRegistry}
    (hnodup : (pending.map Generation.generation).Nodup)
    (hopen : ∀ g ∈ pending, (reg.life g).closed = false) :
    closePending pending reg =
      (pending,
        { reg with
          lifecycles := markClosed (pending.map Generation.generation) reg.lifecycles }) := by
  induction pending generalizing reg with
  | nil => rfl
  | cons g pending ih =>
      rw [List.map_cons, List.nodup_cons] at hnodup
      have hne : ∀ g' ∈ pending, g'.generation ≠ g.generation := by
        intro g' hg' heq
        exact hnodup.1 (heq ▸ List.mem_map_of_mem hg')
      have hrest : ∀ g' ∈ pending,
          ((reg.setLife g { reg.life g with retired := true, closed := true }).life g').closed =
            false := by
        intro g' hg'
        show ((reg.setLife g _).lifecycles g'.generation).closed = false
        rw [lifecycles_setLife_of_ne reg (hne g' hg')]
        exact hopen g' (List.mem_cons_of_mem _ hg')
      rw [closePending, if_neg (by rw [hopen g (List.mem_cons_self ..)]; exact Bool.false_ne_true),
        ih hnodup.2 hrest]
      show (g :: pending, _) = (g :: pending, _)
      congr 2
      funext n
      simp only [markClosed]
      by_cases hn : n = g.generation
      · rw [hn, if_neg hnodup.1, if_pos (by simp), lifecycles_setLife_self]
        rfl
      · rw [lifecycles_setLife_of_ne reg hn]
        simp [hn]

/-- The retired generations are gone once the sessions are. -/
theorem retired_eq_nil {limits : RegistryLimits} {reg : DatasourceRegistry}
    (ha : Accounted limits reg) (hsessions : reg.sessions = []) : reg.retired = [] := by
  refine List.eq_nil_iff_forall_not_mem.mpr fun g hg => ?_
  obtain ⟨-, hretired, hopen⟩ := (ha.kept.listed g).mp hg
  have hpos : 0 < (reg.lifecycles g.generation).sessions :=
    ha.busy g.generation (fun h => nomatch h) hretired hopen
  have hcount := ha.sessions.perGeneration g.generation
  have htotal := ha.sessions.total
  rw [hsessions] at htotal
  -- what is admitted to one generation is admitted
  have hle : reg.leases.countP (admittedTo g.generation) ≤ reg.leases.countP admitted := by
    refine List.countP_mono_left fun l _ hl => ?_
    simp only [admittedTo, Bool.and_eq_true] at hl
    exact hl.1
  simp only [List.length_nil] at htotal
  omega

/-- The generations that are published are told apart by their numbers. -/
theorem published_numbers_nodup {reg : DatasourceRegistry} {leaving : Option Generation}
    (hk : Kept leaving reg) :
    ((reg.published.map Prod.snd).map Generation.generation).Nodup := by
  rw [List.map_map]
  refine List.Nodup.map_on ?_ (List.Nodup.of_map _ hk.aliases_nodup)
  intro e he e' he' heq
  have hsnd := hk.eq_of_number (hk.published_ever e he).1 (hk.published_ever e' he').1 heq
  refine hk.entry_unique he he' ?_
  rw [← (hk.published_ever e he).2, ← (hk.published_ever e' he').2, hsnd]

/-- What the last section of `close` does: it closes what is published, and nothing else is left. -/
theorem closeFinish_ok {limits : RegistryLimits} {reg reg' : DatasourceRegistry}
    {disposing : List Generation} (ha : Accounted limits reg)
    (h : closeFinish reg = some (disposing, reg')) :
    reg.sessions = [] ∧ reg.candidates = 0 ∧ disposing = reg.published.map Prod.snd ∧
      reg' = { reg with
        published := [], retired := [], dsRetired := fun _ => 0, closed := true
        lifecycles := markClosed (disposing.map Generation.generation) reg.lifecycles } := by
  rw [closeFinish] at h
  split at h
  · cases h
  · rename_i hempty
    rw [not_or, not_not, not_not] at hempty
    obtain ⟨hsessions, hcandidates⟩ := hempty
    have hretired := retired_eq_nil ha hsessions
    rw [hretired, List.append_nil] at h
    have hnodup := published_numbers_nodup ha.kept
    have hopen : ∀ g ∈ reg.published.map Prod.snd, (reg.life g).closed = false := by
      intro g hg
      obtain ⟨e, he, rfl⟩ := List.mem_map.mp hg
      exact (ha.kept.published_open e he).2
    rw [@closePending_eq _ { reg with published := [], retired := [], dsRetired := fun _ => 0 }
      hnodup hopen] at h
    obtain ⟨rfl, rfl⟩ := Prod.mk.inj (Option.some.inj h)
    exact ⟨hsessions, hcandidates, rfl, rfl⟩

/-- The last section of `close` keeps the counts. -/
theorem accounted_closeFinish {limits : RegistryLimits} {reg reg' : DatasourceRegistry}
    {disposing : List Generation} (ha : Accounted limits reg)
    (hclosing : reg.closing = true) (h : closeFinish reg = some (disposing, reg')) :
    Accounted limits reg' := by
  obtain ⟨hsessions, hcandidates, rfl, rfl⟩ := closeFinish_ok ha h
  have hk := ha.kept
  have hretired := retired_eq_nil ha hsessions
  let numbers := (reg.published.map Prod.snd).map Generation.generation
  let lifecycles := markClosed numbers reg.lifecycles
  -- `_sessions` is left alone, and whatever was published is marked
  have hcount : ∀ n, (lifecycles n).sessions = (reg.lifecycles n).sessions := by
    intro n
    by_cases hn : n ∈ numbers <;> simp [lifecycles, markClosed, hn]
  have hzero : ∀ n, (reg.lifecycles n).sessions = 0 := by
    intro n
    have hn := ha.sessions.perGeneration n
    have htotal := ha.sessions.total
    have hle : reg.leases.countP (admittedTo n) ≤ reg.leases.countP admitted := by
      refine List.countP_mono_left fun l _ hl => ?_
      simp only [admittedTo, Bool.and_eq_true] at hl
      exact hl.1
    rw [hsessions] at htotal
    simp only [List.length_nil] at htotal
    omega
  have hclosed : ∀ g ∈ reg.everPublished, (lifecycles g.generation).closed = true := by
    intro g hg
    by_cases hn : g.generation ∈ numbers
    · simp [lifecycles, markClosed, hn]
    · have hunpublished : (g.alias_, g) ∉ reg.published := by
        intro hmem
        exact hn (List.mem_map_of_mem (List.mem_map_of_mem hmem))
      have hg' : (reg.life g).retired = true := by
        cases hr : (reg.life g).retired with
        | true => rfl
        | false => exact absurd (hk.unretired g hg hr (fun h => nomatch h)) hunpublished
      have hlist : g ∉ reg.retired := by
        rw [hretired]
        exact List.not_mem_nil
      show (lifecycles g.generation).closed = true
      simp only [lifecycles, markClosed, if_neg hn]
      cases hc : (reg.lifecycles g.generation).closed with
      | true => rfl
      | false => exact absurd ((hk.listed g).mpr ⟨hg, hg', hc⟩) hlist
  have hmarked : ∀ n, (lifecycles n).closed = true → (lifecycles n).retired = true := by
    intro n hn
    by_cases hmem : n ∈ numbers
    · simp [lifecycles, markClosed, hmem]
    · simp only [lifecycles, markClosed, if_neg hmem] at hn ⊢
      exact (hk.closed_retired n hn).1
  refine { limits_eq := ha.limits_eq, candidates := ⟨ha.candidates.1, ha.candidates.2,
             ha.candidates.3⟩, sessions := ?_, kept := ?_, busy := ?_, shut := ?_ }
  · exact { ha.sessions with perGeneration := fun n => (hcount n).trans (ha.sessions.perGeneration n) }
  · refine { increasing := hk.increasing, below := hk.below, untouched := ?_,
             published_ever := ?_, published_open := ?_, aliases_nodup := List.nodup_nil,
             datasources_nodup := List.nodup_nil, unretired := ?_, listed := ?_,
             retired_nodup := List.nodup_nil, dsRetired := fun _ => rfl, closed_retired := ?_,
             disposed_closed := ?_, lease_ever := hk.lease_ever,
             all_closed := fun _ => hclosed }
    · intro n hn
      have hnot : n ∉ numbers := by
        intro hmem
        obtain ⟨g, hg, rfl⟩ := List.mem_map.mp hmem
        obtain ⟨e, he, rfl⟩ := List.mem_map.mp hg
        have := hk.below e.2 (hk.published_ever e he).1
        exact absurd hn (Nat.not_le_of_lt this)
      show lifecycles n = {}
      simp only [lifecycles, markClosed, if_neg hnot]
      exact hk.untouched n hn
    · exact fun e he => absurd he List.not_mem_nil
    · exact fun e he => absurd he List.not_mem_nil
    · intro g hg hunretired _
      have := hmarked g.generation (hclosed g hg)
      rw [show (lifecycles g.generation).retired = false from hunretired] at this
      cases this
    · intro g
      refine iff_of_false List.not_mem_nil ?_
      intro ⟨hg, _, hopen⟩
      have := hclosed g hg
      rw [show (lifecycles g.generation).closed = false from hopen] at this
      cases this
    · exact fun n hn => ⟨hmarked n hn, (hcount n).trans (hzero n)⟩
    · intro n hn
      show (lifecycles n).closed = true
      have hn : (lifecycles n).disposed = true := hn
      by_cases hmem : n ∈ numbers
      · simp [lifecycles, markClosed, hmem]
      · simp only [lifecycles, markClosed, if_neg hmem] at hn ⊢
        exact hk.disposed_closed n hn
  · intro n _ hretired hopen
    have hretired : (lifecycles n).retired = true := hretired
    have hopen : (lifecycles n).closed = false := hopen
    by_cases hmem : n ∈ numbers
    · simp [lifecycles, markClosed, hmem] at hopen
    · simp only [lifecycles, markClosed, if_neg hmem] at hretired hopen
      have hpos := ha.busy n (fun h => nomatch h) hretired hopen
      rw [hzero n] at hpos
      exact absurd hpos (Int.lt_irrefl 0)
  · exact fun _ => ⟨hclosing, hsessions, hcandidates⟩

/-- No more admissions keep the counts. -/
theorem accounted_closing {limits : RegistryLimits} {reg : DatasourceRegistry}
    (ha : Accounted limits reg) : Accounted limits { reg with closing := true } :=
  { limits_eq := ha.limits_eq,
    candidates := ⟨ha.candidates.1, ha.candidates.2, ha.candidates.3⟩,
    sessions := { ha.sessions with }, kept := { ha.kept with }, busy := ha.busy,
    shut := fun h => ⟨rfl, (ha.shut h).2⟩ }

/-- `_dispose` of a generation that was marked closed keeps the counts. -/
theorem accounted_dispose {limits : RegistryLimits} {reg : DatasourceRegistry} {g : Generation}
    (ha : Accounted limits reg) (hclosed : (reg.life g).closed = true) :
    Accounted limits (dispose reg g) := by
  have hk := ha.kept
  -- every lifecycle keeps `_sessions`, `_retired` and `_closed`
  have hsame : ∀ n, ((dispose reg g).lifecycles n).sessions = (reg.lifecycles n).sessions ∧
      ((dispose reg g).lifecycles n).retired = (reg.lifecycles n).retired ∧
      ((dispose reg g).lifecycles n).closed = (reg.lifecycles n).closed := by
    intro n
    by_cases hn : n = g.generation
    · rw [hn, dispose, lifecycles_setLife_self]
      exact ⟨rfl, rfl, rfl⟩
    · rw [dispose, lifecycles_setLife_of_ne reg hn]
      exact ⟨rfl, rfl, rfl⟩
  have hretired := fun n => (hsame n).2.1
  have hflag := fun n => (hsame n).2.2
  refine { limits_eq := ha.limits_eq, candidates := ⟨ha.candidates.1, ha.candidates.2,
             ha.candidates.3⟩, sessions := ?_, kept := ?_, busy := ?_, shut := ha.shut }
  · exact { nodup := ha.sessions.nodup, mem_iff := ha.sessions.mem_iff,
            total := ha.sessions.total, perDatasource := ha.sessions.perDatasource,
            perGeneration := fun n => (hsame n).1.trans (ha.sessions.perGeneration n),
            bound := ha.sessions.bound }
  · refine { increasing := hk.increasing, below := hk.below, untouched := ?_,
             published_ever := hk.published_ever, published_open := ?_,
             aliases_nodup := hk.aliases_nodup, datasources_nodup := hk.datasources_nodup,
             unretired := ?_, listed := ?_, retired_nodup := hk.retired_nodup,
             dsRetired := hk.dsRetired, closed_retired := ?_, disposed_closed := ?_,
             lease_ever := hk.lease_ever, all_closed := ?_ }
    · intro n hn
      have hne : n ≠ g.generation := by
        intro heq
        have hfresh := hk.untouched n hn
        rw [heq] at hfresh
        rw [DatasourceRegistry.life, hfresh] at hclosed
        cases hclosed
      exact (lifecycles_setLife_of_ne reg hne _).trans (hk.untouched n hn)
    · intro e he
      obtain ⟨hr, hc⟩ := hk.published_open e he
      exact ⟨(hretired _).trans hr, (hflag _).trans hc⟩
    · exact fun g' hg' h => hk.unretired g' hg' ((hretired _).symm.trans h)
    · intro g'
      rw [DatasourceRegistry.life, hretired, hflag]
      exact hk.listed g'
    · intro n
      rw [hflag, hretired, (hsame n).1]
      exact hk.closed_retired n
    · intro n hn
      rw [hflag]
      by_cases heq : n = g.generation
      · rw [heq]
        exact hclosed
      · rw [dispose, lifecycles_setLife_of_ne reg heq] at hn
        exact hk.disposed_closed n hn
    · exact fun h g' hg' => (hflag _).trans (hk.all_closed h g' hg')
  · intro n hn
    rw [Busy, hretired, hflag, (hsame n).1]
    exact ha.busy n hn

/-! ### Runs -/

/-- A section of the candidates keeps the counts. -/
theorem accounted_candidates {limits : RegistryLimits} {reg : DatasourceRegistry}
    {reservations : List Reservation} {dsCandidates : Counter} {candidates reserved : Int}
    (ha : Accounted limits reg)
    (hc : CandidatesCounted { reg with
      reservations := reservations, dsCandidates := dsCandidates, candidates := candidates
      reservedRetired := reserved })
    (hshut : reg.closed = true → candidates = 0) :
    Accounted limits { reg with
      reservations := reservations, dsCandidates := dsCandidates, candidates := candidates
      reservedRetired := reserved } :=
  { limits_eq := ha.limits_eq, candidates := hc, sessions := { ha.sessions with },
    kept := { ha.kept with }, busy := ha.busy,
    shut := fun h => ⟨(ha.shut h).1, (ha.shut h).2.1, hshut h⟩ }

/-- Every section keeps the counts. -/
theorem accounted_step {limits : RegistryLimits} {reg reg' : DatasourceRegistry} {e : Section}
    (ha : Accounted limits reg) (h : step reg e = some reg') : Accounted limits reg' := by
  cases e with
  | reserve key datasourceId publish =>
      simp only [step] at h
      split at h
      · obtain rfl := Option.some.inj h
        exact ha
      · rename_i id reg₁ hout
        obtain rfl := Option.some.inj h
        obtain ⟨slot, hclosing, -, rfl⟩ := reserve_ok hout
        refine accounted_candidates ha (counted_reserve ha.candidates
          { key := key, datasourceId := datasourceId, publish := publish, retiredSlot := slot }
          rfl) ?_
        -- a registry that is closed is closing, and reserves nothing
        intro hclosed
        rw [(ha.shut hclosed).1] at hclosing
        cases hclosing
  | releaseReservation id =>
      simp only [step, Option.map_eq_some_iff] at h
      obtain ⟨r, hid, rfl⟩ := h
      have hcounted := counted_releaseReservation ha.candidates hid
      rw [releaseReservation] at hcounted ⊢
      split at hcounted
      · rename_i hreleased
        rw [if_pos hreleased]
        exact ha
      · rename_i hreleased
        rw [if_neg hreleased]
        refine accounted_candidates ha hcounted ?_
        -- an unreleased reservation is in the count, which is zero after the shutdown
        intro hclosed
        have hzero := (ha.shut hclosed).2.2
        rw [ha.candidates.candidates] at hzero
        have hpos := one_le_countP openReservation hid (by simpa [openReservation] using hreleased)
        omega
  | publish id datasourceId alias_ recordRevision prepared =>
      simp only [step, Option.map_eq_some_iff] at h
      obtain ⟨r, hid, rfl⟩ := h
      split
      · exact ha
      · rename_i hout
        exact accounted_publish ha hid hout
  | withdraw datasourceId =>
      obtain rfl := Option.some.inj h
      exact accounted_withdraw ha datasourceId
  | openSession alias_ =>
      simp only [step] at h
      split at h
      · obtain rfl := Option.some.inj h
        exact ha
      · rename_i hout
        obtain rfl := Option.some.inj h
        exact accounted_openSession ha hout
  | release id =>
      simp only [step, Option.map_eq_some_iff] at h
      obtain ⟨l, hid, rfl⟩ := h
      exact accounted_release ha hid
  | beginShutdown =>
      obtain rfl := Option.some.inj h
      exact accounted_closing ha
  | closeBegin =>
      simp only [step] at h
      split at h
      · obtain rfl := Option.some.inj h
        exact ha
      · rename_i hout
        obtain rfl := Option.some.inj h
        rw [closeBegin] at hout
        split at hout
        · cases hout
        · obtain ⟨-, rfl⟩ := Prod.mk.inj (Option.some.inj hout)
          exact accounted_closing ha
  | closeFinish =>
      simp only [step] at h
      split at h
      · rename_i hclosing
        obtain ⟨out, hout, rfl⟩ := Option.map_eq_some_iff.mp h
        exact accounted_closeFinish ha hclosing hout
      · cases h
  | dispose g =>
      simp only [step] at h
      split at h
      · rename_i hclosed
        obtain rfl := Option.some.inj h
        exact accounted_dispose ha hclosed
      · cases h

/-- A new registry. -/
theorem accounted_new (limits : RegistryLimits) : Accounted limits { limits := limits } := by
  refine { limits_eq := rfl, candidates := ⟨rfl, fun _ => rfl, rfl⟩,
           sessions := { nodup := List.nodup_nil, mem_iff := ?_, total := rfl,
                         perDatasource := fun _ => rfl, perGeneration := fun _ => rfl,
                         bound := Nat.zero_le _ },
           kept := ?_, busy := ?_, shut := fun h => (nomatch h) }
  · intro id
    simp
  · exact { increasing := List.Pairwise.nil, below := fun _ h => (nomatch h),
            untouched := fun _ _ => rfl, published_ever := fun _ h => (nomatch h),
            published_open := fun _ h => (nomatch h), aliases_nodup := List.nodup_nil,
            datasources_nodup := List.nodup_nil, unretired := fun _ h => (nomatch h),
            listed := fun _ => iff_of_false List.not_mem_nil (fun h => nomatch h.1),
            retired_nodup := List.nodup_nil, dsRetired := fun _ => rfl,
            closed_retired := fun _ h => (nomatch h), disposed_closed := fun _ h => (nomatch h),
            lease_ever := fun _ h => (nomatch h), all_closed := fun h => (nomatch h) }
  · exact fun _ _ h => (nomatch h)

end MaskGateway.Proofs.Datasources
