import MaskGateway.Proofs.Runtime.DatasourceAccounting
import MaskGateway.Runtime.DatasourceService
import MaskGateway.Proofs.Datasource.SecretBinding

/-!
# `MaskGateway.Proofs.Runtime.PublishedSet`: what a registry publishes and a catalog enables

Both are sets of triples: the id of a datasource, its alias, and the revision of its record. What the
sections of the registry and the changes of the catalog do to these sets is the same: the triples of
one id go, and one may come (`publishedSet_publish`, `publishedSet_withdraw`,
`enabledSet_replaceRecord`).
-/

set_option autoImplicit false

namespace MaskGateway.Proofs.DatasourceService

open MaskGateway.Lib
open MaskGateway.Datasource MaskGateway.Runtime.Datasources MaskGateway.Runtime.DatasourceService
open MaskGateway.Proofs.Datasources

/-- A datasource as it is published: id, alias, revision of the record. -/
abbrev Shown := Name × Name × Nat

/-- Without the triples of an id. -/
def without (shown : Set Shown) (id : Name) : Set Shown := { t | t ∈ shown ∧ t.1 ≠ id }

/-- What the registry publishes. -/
def publishedSet (reg : DatasourceRegistry) : Set Shown :=
  { t | ∃ entry ∈ reg.published, t = (entry.2.datasourceId, entry.1, entry.2.recordRevision) }

/-- What the records of a catalog enable. -/
def enabledSet {v : Validators} (records : List (CatalogRecord v)) : Set Shown :=
  { t | ∃ record ∈ records, record.1.enabled = true ∧
      t = (record.1.id, record.1.alias_, record.1.revision) }

/-! ### The registry -/

section

variable {limits : RegistryLimits} {reg reg' : DatasourceRegistry}

theorem takeClosable_published (reg : DatasourceRegistry) (g : Generation) :
    (takeClosable reg g).2.published = reg.published := by
  rcases takeClosable_cases reg g with ⟨-, hout⟩ | ⟨-, -, -, hout⟩
  · rw [hout]
  · rw [hout]
    rfl

/-- `_retire_locked` leaves the dict alone. -/
theorem retire_published (reg : DatasourceRegistry) (g : Generation) :
    (retire reg g).2.published = reg.published := by
  rw [retire, takeClosable_published]
  rfl

/-- What `_retire_locked` hands on is closed. -/
theorem retire_closed {g toClose : Generation} (h : (retire reg g).1 = some toClose) :
    ((retire reg g).2.life toClose).closed = true := by
  rw [retire] at h ⊢
  rcases takeClosable_cases _ g with ⟨-, hout⟩ | ⟨-, -, -, hout⟩
  · rw [hout] at h
    cases h
  · rw [hout] at h ⊢
    obtain rfl := Option.some.inj h
    show (DatasourceRegistry.life (DatasourceRegistry.setLife _ _ _) _).closed = true
    rw [life_setLife_self]

/-- Disposing of what a section handed on keeps the counts. -/
theorem accounted_disposeOf {toClose : Option Generation} (ha : Accounted limits reg)
    (hclosed : ∀ g, toClose = some g → (reg.life g).closed = true) :
    Accounted limits (disposeOf reg toClose) := by
  cases toClose with
  | none => exact ha
  | some g => exact accounted_dispose ha (hclosed g rfl)

theorem disposeOf_published (reg : DatasourceRegistry) (toClose : Option Generation) :
    (disposeOf reg toClose).published = reg.published := by
  cases toClose <;> rfl

/-- The set depends on the dict only. -/
theorem publishedSet_congr (h : reg'.published = reg.published) :
    publishedSet reg' = publishedSet reg := by
  rw [publishedSet, publishedSet, h]

/-- `_publish` replaces the triple of the datasource. -/
theorem publishedSet_publish {id : ReservationId} {r : Reservation} {datasourceId alias_ : Name}
    {recordRevision : Nat} {prepared : PreparedRuntime} {new : Generation}
    {toClose : Option Generation} (ha : Accounted limits reg)
    (h : publish reg id r datasourceId alias_ recordRevision prepared = .ok (new, toClose, reg')) :
    publishedSet reg' = without (publishedSet reg) datasourceId ∪
      {(datasourceId, alias_, recordRevision)} := by
  obtain ⟨-, -, rfl, hunique, hcases⟩ := publish_ok h
  let new : Generation := ⟨datasourceId, alias_, reg.nextGeneration, recordRevision, prepared⟩
  have hpublished : reg'.published = setPublished reg.published alias_ new := by
    rcases hcases with ⟨-, -, rfl⟩ | ⟨old, reg₁, -, -, hslot, hretire⟩
    · rfl
    · obtain ⟨reservations, reserved, rfl⟩ := useSlot_frame hslot
      have hout := retire_published (publishNew { reg with
        reservations := reservations, reservedRetired := reserved } new) old
      rw [hretire] at hout
      exact hout
  -- the alias and the id belong together in the dict
  have hsame : ∀ entry ∈ reg.published,
      (entry.1 ≠ alias_ ↔ entry.2.datasourceId ≠ datasourceId) := by
    intro entry hentry
    refine not_congr ⟨fun halias => ?_, hunique entry hentry⟩
    rcases hcases with ⟨hnone, -, -⟩ | ⟨old, _, hold, hid, -, -⟩
    · exact absurd halias (not_mem_of_lookup hnone entry hentry)
    · rw [ha.kept.entry_unique hentry (mem_of_lookup hold) halias]
      exact hid
  ext t
  simp only [publishedSet, hpublished, mem_setPublished, without, Set.mem_union, Set.mem_ofPred_eq,
    Set.mem_singleton_iff]
  constructor
  · rintro ⟨entry, rfl | ⟨hentry, hne⟩, rfl⟩
    · exact Or.inr rfl
    · exact Or.inl ⟨⟨entry, hentry, rfl⟩, (hsame entry hentry).mp hne⟩
  · rintro (⟨⟨entry, hentry, rfl⟩, hne⟩ | rfl)
    · exact ⟨entry, Or.inr ⟨hentry, (hsame entry hentry).mpr hne⟩, rfl⟩
    · exact ⟨(alias_, new), Or.inl rfl, rfl⟩

/-- What `_publish` hands on is closed. -/
theorem publish_closed {id : ReservationId} {r : Reservation} {datasourceId alias_ : Name}
    {recordRevision : Nat} {prepared : PreparedRuntime} {new : Generation}
    {toClose : Option Generation}
    (h : publish reg id r datasourceId alias_ recordRevision prepared = .ok (new, toClose, reg')) :
    ∀ g, toClose = some g → (reg'.life g).closed = true := by
  rintro g rfl
  obtain ⟨-, -, -, -, ⟨-, hnone, -⟩ | ⟨old, reg₁, -, -, -, hretire⟩⟩ := publish_ok h
  · cases hnone
  · have hout := @retire_closed (publishNew reg₁ new) old g (by rw [hretire])
    rw [hretire] at hout
    exact hout

/-- `withdraw` takes the triple of the datasource away. -/
theorem publishedSet_withdraw (ha : Accounted limits reg) (datasourceId : Name) :
    publishedSet (withdraw reg datasourceId).2.2 = without (publishedSet reg) datasourceId := by
  rw [withdraw]
  cases hfound : publishedFor reg datasourceId with
  | none =>
      ext t
      simp only [publishedSet, without, Set.mem_ofPred_eq]
      refine ⟨?_, fun h => h.1⟩
      rintro ⟨entry, hentry, rfl⟩
      have hne := List.find?_eq_none.mp hfound entry hentry
      exact ⟨⟨entry, hentry, rfl⟩, by simpa using hne⟩
  | some found =>
      obtain ⟨alias_, g⟩ := found
      obtain ⟨hmem, hid⟩ := publishedFor_eq_some hfound
      have hsame : ∀ entry ∈ reg.published,
          (entry.1 ≠ alias_ ↔ entry.2.datasourceId ≠ datasourceId) := by
        intro entry hentry
        refine not_congr ⟨fun halias => ?_, fun hother => ?_⟩
        · rw [ha.kept.entry_unique hentry hmem halias]
          exact hid
        · rw [List.inj_on_of_nodup_map ha.kept.datasources_nodup hentry hmem (hother.trans hid.symm)]
      let reg₁ := { reg with published := deletePublished reg.published alias_ }
      have hout : publishedSet (retire reg₁ g).2 = publishedSet reg₁ :=
        publishedSet_congr (retire_published reg₁ g)
      show publishedSet (retire reg₁ g).2 = _
      rw [hout]
      ext t
      simp only [publishedSet, reg₁, deletePublished, List.mem_filter, decide_eq_true_eq,
        without, Set.mem_ofPred_eq]
      constructor
      · rintro ⟨entry, ⟨hentry, hne⟩, rfl⟩
        exact ⟨⟨entry, hentry, rfl⟩, (hsame entry hentry).mp hne⟩
      · rintro ⟨⟨entry, hentry, rfl⟩, hne⟩
        exact ⟨entry, ⟨hentry, (hsame entry hentry).mpr hne⟩, rfl⟩

/-- What `withdraw` hands on is closed. -/
theorem withdraw_closed (reg : DatasourceRegistry) (datasourceId : Name) :
    ∀ g, (withdraw reg datasourceId).2.1 = some g →
      ((withdraw reg datasourceId).2.2.life g).closed = true := by
  intro g hg
  rw [withdraw] at hg ⊢
  cases hfound : publishedFor reg datasourceId with
  | none =>
      rw [hfound] at hg
      cases hg
  | some found =>
      rw [hfound] at hg
      exact retire_closed hg

/-! ### Reservations -/

/-- A place that is given back unused. -/
theorem releaseReservation_reserve {key : Name} {datasourceId : Option Name} {publish : Bool}
    {id : ReservationId} (ha : Accounted limits reg)
    (h : reserve reg key datasourceId publish = .ok (id, reg')) :
    ∃ r : Reservation, reg'.reservations[id]? = some r ∧ r.publish = publish ∧
      r.released = false ∧ reg'.published = reg.published ∧ Accounted limits reg' ∧
      ∃ reservations, releaseReservation reg' id r = { reg with reservations := reservations } := by
  have haccounted : Accounted limits reg' := by
    refine accounted_step (e := .reserve key datasourceId publish) ha ?_
    simp only [Runtime.Datasources.step, h]
  obtain ⟨slot, -, rfl, rfl⟩ := reserve_ok h
  let r : Reservation := ⟨key, datasourceId, publish, false, slot⟩
  refine ⟨r, List.getElem?_concat_length .., rfl, rfl, rfl, haccounted,
    (reg.reservations ++ [r]).set reg.reservations.length
      { r with released := true, retiredSlot := false }, ?_⟩
  have hnonneg : 0 ≤ reg.dsCandidates key := by
    rw [ha.candidates.perKey]
    exact Int.natCast_nonneg _
  have hcounter : decrement (increment reg.dsCandidates key) key = reg.dsCandidates := by
    funext other
    have hone : 1 ≤ increment reg.dsCandidates key key := by
      rw [increment_apply, decide_eq_true rfl, unit_true]
      omega
    rw [decrement_apply hone, increment_apply, Int.add_sub_cancel]
  have hreserved : (if slot then reg.reservedRetired + unit slot - 1
      else reg.reservedRetired + unit slot) = reg.reservedRetired := by
    cases slot
    · exact Int.add_zero _
    · exact Int.add_sub_cancel ..
  rw [releaseReservation, if_neg Bool.false_ne_true]
  simp only [r, hcounter, hreserved, Int.add_sub_cancel]

end

/-! ### The catalog -/

section

variable {v : Validators}

/-- The triples of one record. -/
def shown (record : CatalogRecord v) : Set Shown :=
  { t | record.1.enabled = true ∧ t = (record.1.id, record.1.alias_, record.1.revision) }

theorem mem_enabledSet {records : List (CatalogRecord v)} {t : Shown} :
    t ∈ enabledSet records ↔ ∃ record ∈ records, t ∈ shown record := Iff.rfl

theorem fst_of_mem_shown {record : CatalogRecord v} {t : Shown} (h : t ∈ shown record) :
    t.1 = record.1.id := by
  rw [h.2]

/-- The set depends on the records, not on their order. -/
theorem enabledSet_congr {records records' : List (CatalogRecord v)}
    (h : ∀ record, record ∈ records' ↔ record ∈ records) :
    enabledSet records' = enabledSet records := by
  ext t
  simp only [mem_enabledSet, h]

/-- A record of a new id. -/
theorem enabledSet_append {records : List (CatalogRecord v)} {record : CatalogRecord v}
    (hfresh : ∀ other ∈ records, other.1.id ≠ record.1.id) :
    enabledSet (records ++ [record]) =
      without (enabledSet records) record.1.id ∪ shown record := by
  ext t
  simp only [mem_enabledSet, List.mem_append, List.mem_singleton, without, Set.mem_union,
    Set.mem_ofPred_eq]
  constructor
  · rintro ⟨other, hother | rfl, ht⟩
    · exact Or.inl ⟨⟨other, hother, ht⟩, fst_of_mem_shown ht ▸ hfresh other hother⟩
    · exact Or.inr ht
  · rintro (⟨⟨other, hother, ht⟩, -⟩ | ht)
    · exact ⟨other, Or.inl hother, ht⟩
    · exact ⟨record, Or.inr rfl, ht⟩

/-- A record in the place of the one of its id. -/
theorem enabledSet_replaceRecord {records : List (CatalogRecord v)}
    {current updated : CatalogRecord v} (hcurrent : current ∈ records)
    (hid : updated.1.id = current.1.id) :
    enabledSet (replaceRecord records updated) =
      without (enabledSet records) updated.1.id ∪ shown updated := by
  ext t
  simp only [mem_enabledSet, Datasource.mem_replaceRecord, without, Set.mem_union, Set.mem_ofPred_eq]
  constructor
  · rintro ⟨record, ⟨hrecord, hne⟩ | ⟨rfl, -⟩, ht⟩
    · exact Or.inl ⟨⟨record, hrecord, ht⟩, fst_of_mem_shown ht ▸ hne⟩
    · exact Or.inr ht
  · rintro (⟨⟨record, hrecord, ht⟩, hne⟩ | ht)
    · exact ⟨record, Or.inl ⟨hrecord, fst_of_mem_shown ht ▸ hne⟩, ht⟩
    · exact ⟨updated, Or.inr ⟨rfl, current, hcurrent, hid.symm⟩, ht⟩

/-- The records without those of an id. -/
theorem enabledSet_filter (records : List (CatalogRecord v)) (id : Name) :
    enabledSet (records.filter fun record => record.1.id != id) =
      without (enabledSet records) id := by
  ext t
  simp only [mem_enabledSet, List.mem_filter, bne_iff_ne, without, Set.mem_ofPred_eq]
  constructor
  · rintro ⟨record, ⟨hrecord, hne⟩, ht⟩
    exact ⟨⟨record, hrecord, ht⟩, fst_of_mem_shown ht ▸ hne⟩
  · rintro ⟨⟨record, hrecord, ht⟩, hne⟩
    exact ⟨record, ⟨hrecord, fst_of_mem_shown ht ▸ hne⟩, ht⟩

end

end MaskGateway.Proofs.DatasourceService
