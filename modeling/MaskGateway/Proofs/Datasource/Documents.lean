import MaskGateway.Datasource.Catalog
import MaskGateway.Proofs.Datasource.Models

/-!
# `MaskGateway.Proofs.Datasource.Documents`: what is written is read back

For each of the three documents: what its parser makes of what its writer wrote, and what is known
of anything the parser lets through.

* A catalog is read back under the key it was written with (`parseCatalog_serializeDocument`); a
  key whose tags differ gets a key error (`parseCatalog_other_key`).
* An anchor and a journal are read back (`parseAnchor_anchorContent`,
  `parseJournalDocument_journalContent`); a journal that parses names two consecutive revisions
  (`wellFormed_of_parse`).
-/

set_option autoImplicit false

namespace MaskGateway.Proofs.Datasource

open MaskGateway.Datasource MaskGateway.Lib

variable {v : Validators} {crypto : Crypto}

/-! ### Anchors -/

theorem requireHex_ok {error : StoreError} {value : Name} (h : fixedHex value = true) :
    requireHex error (.str value) = .ok value :=
  if_pos h

theorem fixedHex_of_requireHex {error : StoreError} {value : Json} {text : Name}
    (h : requireHex error value = .ok text) : fixedHex text = true := by
  cases value with
  | str value =>
      rw [requireHex, ite_else_error_eq_ok] at h
      cases h.2
      exact h.1
  | _ => cases h

/-- An anchor is read back. -/
theorem parseAnchor_anchorContent {anchor : Anchor} (hrevision : 1 ≤ anchor.revision)
    (hdigest : fixedHex anchor.digest = true) :
    parseAnchor (anchorContent anchor) = .ok anchor := by
  simp only [parseAnchor, bind_eq_ok, pure_eq_ok]
  exact ⟨_, rfl, _, rfl, (), requireKeys_ok rfl, (), refuseIf_ok (by rintro ⟨⟩), _,
    requireHex_ok hdigest, _, requireInt_natCast hrevision, (), refuseIf_ok (by rintro ⟨⟩), rfl⟩

/-! ### Journals -/

/-- What `_parse_journal_document` checks. -/
structure WellFormed (journal : Journal) : Prop where
  next : journal.newRevision = journal.oldRevision + 1
  first : journal.oldRevision = 0 ↔ journal.oldDigest = none
  newDigest : fixedHex journal.newDigest = true
  oldDigest : ∀ digest, journal.oldDigest = some digest → fixedHex digest = true
  oldAuthTag : fixedHex journal.oldAuthTag = true
  newAuthTag : fixedHex journal.newAuthTag = true

theorem requireOldDigest_ok {digest : Option Name}
    (h : ∀ value, digest = some value → fixedHex value = true) :
    requireOldDigest (optionalText digest) = .ok digest := by
  cases digest with
  | none => rfl
  | some value => exact if_pos (h value rfl)

/-- A journal is read back. -/
theorem parseJournalDocument_journalContent {journal : Journal} (h : WellFormed journal) :
    parseJournalDocument (journalContent journal) = .ok journal := by
  have hnew : 1 ≤ journal.newRevision := by
    rw [h.next]
    omega
  simp only [parseJournalDocument, bind_eq_ok, pure_eq_ok]
  exact ⟨_, rfl, _, rfl, (), requireKeys_ok rfl, (), refuseIf_ok (by rintro ⟨⟩), _,
    requireHex_ok h.newDigest, _, requireOldDigest_ok h.oldDigest, _,
    requireInt_natCast (Nat.zero_le _), _, requireInt_natCast hnew, (),
    refuseIf_ok (not_not_intro h.next), (), refuseIf_ok (not_not_intro h.first), _,
    requireHex_ok h.oldAuthTag, _, requireHex_ok h.newAuthTag, (), refuseIf_ok (by rintro ⟨⟩),
    rfl⟩

theorem fixedHex_of_requireOldDigest {value : Json} {digest : Option Name} {text : Name}
    (h : requireOldDigest value = .ok digest) (hsome : digest = some text) :
    fixedHex text = true := by
  subst hsome
  cases value with
  | str value =>
      rw [requireOldDigest, ite_else_error_eq_ok] at h
      cases h.2
      exact h.1
  | null => cases h
  | _ => cases h

/-- A journal that parses is well formed, whatever the file. -/
theorem wellFormed_of_parse {data : Content} {journal : Journal}
    (h : parseJournalDocument data = .ok journal) : WellFormed journal := by
  simp only [parseJournalDocument, bind_eq_ok, pure_eq_ok, refuseIf_eq_ok, not_not] at h
  obtain ⟨_, -, _, -, -, -, -, -, newDigest, hnew, oldDigest, hold, oldRevision, -, newRevision, -,
    -, hnext, -, hfirst, oldTag, hoTag, newTag, hnTag, -, -, rfl⟩ := h
  exact ⟨hnext, hfirst, fixedHex_of_requireHex hnew,
    fun _ hsome => fixedHex_of_requireOldDigest hold hsome, fixedHex_of_requireHex hoTag,
    fixedHex_of_requireHex hnTag⟩

/-- The state before a well-formed journal is one revision behind the state after. -/
theorem oldState_revision {journal : Journal} (h : WellFormed journal) {state : State}
    (hstate : journal.oldState = some state) : state.1 + 1 = journal.newState.1 := by
  rw [Journal.oldState] at hstate
  split at hstate
  · cases hstate
  · cases hstate
    exact h.next.symm

/-- The states of a journal differ. -/
theorem oldState_ne_newState {journal : Journal} (h : WellFormed journal) :
    journal.oldState ≠ some journal.newState := by
  intro heq
  have := oldState_revision h heq
  omega

/-- The state before a transaction, as its journal has it. -/
theorem newJournal_oldState {oldRevision newRevision : Nat} {oldDigest newDigest : Name}
    {oldKey newKey : Key} (h : 1 ≤ oldRevision) :
    (newJournal crypto oldRevision (some oldDigest) newRevision newDigest oldKey newKey).oldState =
      some (oldRevision, oldDigest) := by
  have hne : oldRevision ≠ 0 := by omega
  simp [Journal.oldState, newJournal, hne]

/-- The journal of a transaction is well formed. -/
theorem newJournal_wellFormed {oldRevision : Nat} {oldDigest : Option Name} {newDigest : Name}
    {oldKey newKey : Key} (hfirst : oldRevision = 0 ↔ oldDigest = none)
    (hold : ∀ digest, oldDigest = some digest → fixedHex digest = true)
    (hnew : fixedHex newDigest = true) :
    WellFormed (newJournal crypto oldRevision oldDigest (oldRevision + 1) newDigest oldKey newKey)
    where
  next := rfl
  first := hfirst
  newDigest := hnew
  oldDigest := hold
  oldAuthTag := crypto.tag_hex ..
  newAuthTag := crypto.tag_hex ..

/-- The key before a transaction authenticates its journal as the old one. -/
theorem newJournal_asOld {oldRevision newRevision : Nat} {oldDigest : Option Name}
    {newDigest : Name} {oldKey newKey : Key} :
    (journalRoles crypto (newJournal crypto oldRevision oldDigest newRevision newDigest oldKey
      newKey) oldKey).1 = true := by
  simp [journalRoles, newJournal, Journal.payload]

/-- The key after a transaction authenticates its journal as the new one. -/
theorem newJournal_asNew {oldRevision newRevision : Nat} {oldDigest : Option Name}
    {newDigest : Name} {oldKey newKey : Key} :
    (journalRoles crypto (newJournal crypto oldRevision oldDigest newRevision newDigest oldKey
      newKey) newKey).2 = true := by
  simp [journalRoles, newJournal, Journal.payload]

/-- A transaction under one key does not write the journal of a rotation. -/
theorem newJournal_isRotation_self {oldRevision newRevision : Nat} {oldDigest : Option Name}
    {newDigest : Name} {key : Key} :
    (newJournal crypto oldRevision oldDigest newRevision newDigest key key).isRotation = false := by
  simp [Journal.isRotation, newJournal]

/-! ### Catalogs -/

/-- What `_parse_catalog` checks of the records. -/
structure CatalogOk (crypto : Crypto) (catalog : ParsedCatalog v) : Prop where
  revision : 1 ≤ catalog.revision
  digest : fixedHex catalog.digest = true
  sorted : (catalog.records.map fun record => record.1.id).Pairwise (· ≤ ·)
  ids : (catalog.records.map fun record => record.1.id).Nodup
  aliases : (catalog.records.map fun record => record.1.alias_).Nodup

theorem requireInt_le {minimum n : Nat} {value : Json} (h : requireInt minimum value = .ok n) :
    minimum ≤ n := by
  cases value with
  | int value =>
      rw [requireInt, ite_else_error_eq_ok] at h
      obtain ⟨hle, heq⟩ := h
      cases heq
      omega
  | _ => cases h

/-- A catalog that parses is in order. -/
theorem catalogOk_of_parse {data : Content} {key : Key} {catalog : ParsedCatalog v}
    (h : parseCatalog v crypto data key = .ok catalog) : CatalogOk crypto catalog := by
  simp only [parseCatalog, bind_eq_ok, pure_eq_ok, refuseIf_eq_ok, not_not] at h
  obtain ⟨_, -, _, -, -, -, -, -, revision, hrevision, _, -, -, -, -, -, -, -, -, -, _, -, records, -,
    -, hsorted, -, hids, -, haliases, rfl⟩ := h
  exact ⟨requireInt_le hrevision, crypto.digest_hex _, hsorted, hids, haliases⟩

/-- A key whose tags all differ from those of the key that authenticates a catalog gets a key
error from it. -/
theorem parseCatalog_other_key {data : Content} {key other : Key} {catalog : ParsedCatalog v}
    (htags : ∀ payload, crypto.tag key payload ≠ crypto.tag other payload)
    (h : parseCatalog v crypto data key = .ok catalog) :
    parseCatalog v crypto data other =
      .error ⟨.key, "nao foi possivel autenticar o catalogo"⟩ := by
  simp only [parseCatalog, bind_eq_ok] at h
  obtain ⟨_, hloads, _, hmapping, _, hkeys, _, hversion, _, hrevision, _, hauth, _, hauthKeys, _,
    halgorithm, _, hcanonical, _, hverify, -⟩ := h
  simp only [parseCatalog, hloads, hmapping, hkeys, hversion, hrevision, hauth, hauthKeys,
    halgorithm, hcanonical, Bind.bind, Except.bind]
  -- the same tag, checked under the other key
  generalize member _ "tag" = tag at hverify ⊢
  cases tag with
  | str value =>
      simp only [verifyCatalogAuth] at hverify ⊢
      split at hverify
      · cases hverify
      · rename_i hlength
        split at hverify
        · cases hverify
        · rename_i hascii
          rw [ite_else_error_eq_ok] at hverify
          have hne : crypto.tag other _ ≠ value := fun heq =>
            htags _ (hverify.1.trans heq.symm)
          rw [if_neg hlength, if_neg hascii, if_neg hne]
  | _ => cases hverify

/-! ### Records in order -/

theorem sortRecords_perm (records : List (CatalogRecord v)) :
    (sortRecords records).Perm records :=
  List.perm_insertionSort _ _

theorem sortRecords_sorted (records : List (CatalogRecord v)) :
    ((sortRecords records).map fun record => record.1.id).Pairwise (· ≤ ·) := by
  have htotal : Std.Total fun a b : CatalogRecord v => a.1.id ≤ b.1.id :=
    ⟨fun a b => le_total a.1.id b.1.id⟩
  have htrans : IsTrans (CatalogRecord v) fun a b => a.1.id ≤ b.1.id :=
    ⟨fun _ _ _ hab hbc => le_trans hab hbc⟩
  rw [List.pairwise_map]
  exact List.pairwise_insertionSort _ _

/-- A list of valid records is read back from its JSON form. -/
theorem mapM_parseRecord (records : List (CatalogRecord v)) :
    (records.map fun record => recordToJson record.1).mapM (parseRecord v) = .ok records := by
  rw [mapM_eq_ok, List.forall₂_map_left_iff]
  exact List.forall₂_same.mpr fun record _ => parseRecord_recordToJson record

/-- The tag of a catalog is accepted under its key. -/
theorem verifyCatalogAuth_tag (payload : Json) (key : Key) :
    verifyCatalogAuth crypto payload (.str (crypto.tag key payload)) key = .ok () := by
  have hhex := crypto.tag_hex key payload
  simp only [fixedHex, Bool.and_eq_true, beq_iff_eq, List.all_eq_true] at hhex
  have hascii : ((crypto.tag key payload).any fun c => decide (128 ≤ c.toNat)) = false := by
    rw [List.any_eq_false]
    intro c hc
    have hdigits : ("0123456789abcdef".toList.all fun d => !decide (128 ≤ d.toNat)) = true := rfl
    have hdigit := List.all_eq_true.mp hdigits c (List.contains_iff_mem.mp (hhex.2 c hc))
    simpa using hdigit
  simp [verifyCatalogAuth, hhex.1, hascii]

/-- **A catalog is read back under its key**, with its records in order. -/
theorem parseCatalog_serializeDocument {revision : Nat} {records : List (CatalogRecord v)}
    (key : Key) (hrevision : 1 ≤ revision)
    (hids : (records.map fun record => record.1.id).Nodup)
    (haliases : (records.map fun record => record.1.alias_).Nodup) :
    parseCatalog v crypto (serializeDocument crypto revision records key) key =
      .ok ⟨revision, crypto.digest (makePayload revision records), sortRecords records⟩ := by
  have hperm := sortRecords_perm records
  have hids' := (hperm.map fun record => record.1.id).nodup_iff.mpr hids
  have haliases' := (hperm.map fun record => record.1.alias_).nodup_iff.mpr haliases
  simp only [parseCatalog, bind_eq_ok, pure_eq_ok]
  exact ⟨_, rfl, _, rfl, (), requireKeys_ok rfl, (), refuseIf_ok (by rintro (⟨⟨⟩⟩ | ⟨⟨⟩⟩)), _,
    requireInt_natCast hrevision, _, rfl, (), requireKeys_ok rfl, (), refuseIf_ok (by rintro ⟨⟩),
    (), refuseIf_ok (by rintro ⟨⟩), (), verifyCatalogAuth_tag _ key, _, rfl, _,
    mapM_parseRecord _, (), refuseIf_ok (not_not_intro (sortRecords_sorted records)), (),
    refuseIf_ok (not_not_intro hids'), (), refuseIf_ok (not_not_intro haliases'), rfl⟩

end MaskGateway.Proofs.Datasource
