import MaskGateway.Datasource.Addresses
import MaskGateway.Proofs.Runtime.DatasourcePinned

/-!
# `MaskGateway.Proofs.Runtime.Resolution`: resolution is canonical

`resolve_destination` works on texts; what it decides is a matter of the addresses they spell.

* `canonicalAddresses_congr`: texts that spell the same addresses have the same canonical list.
* `canonicalAddresses_eq_ok`: which list that is, and `sameAddresses_iff`: it says which addresses
  were spelled.
* `validateAddress_eq_ok`: the checks of one address are the policy.

`resolution_canonical` puts them together.
-/

set_option autoImplicit false

namespace MaskGateway.Proofs.DatasourceService

open MaskGateway.Lib
open MaskGateway.Datasource

section

variable {v : Validators} {classes : Classes}

/-! ### Spelling -/

/-- The address that the canonical text of an address spells. -/
theorem spelled_compressed {text : Name} {address : IPAddress} (h : spelled text = some address) :
    spelled address.compressed = some address := by
  obtain ⟨found, -, rfl⟩ := Option.map_eq_some_iff.mp h
  rw [spelled, ipAddress_compressed, Option.map_some, unmapped_unmapped]

/-- An IPv4 address that is spelled as an IPv6 one, in either way. -/
theorem spelled_mapped (address : IPv4Address) :
    spelled (mappedText address) = spelled address.text ∧
      spelled address.mapped.text = spelled address.text := by
  have hv4 : spelled address.text = some (.v4 address) := by
    rw [spelled, show address.text = (IPAddress.v4 address).compressed from rfl,
      ipAddress_compressed]
    rfl
  have hv6 : spelled address.mapped.text = some (.v4 address) := by
    rw [spelled, show address.mapped.text = (IPAddress.v6 address.mapped).compressed from rfl,
      ipAddress_compressed]
    simp [IPAddress.unmapped, IPv4Address.ipv4Mapped_mapped]
  rw [hv4, hv6, spelled, ipAddress_mappedText]
  exact ⟨rfl, rfl⟩

/-- The model of `ipaddress` keeps the laws that are relied on elsewhere. -/
theorem lawful_ofClasses (hv : ∀ text, v.isAddress text = (ipAddress text).isSome) :
    Lawful v (.ofClasses classes) where
  again := by
    intro text canonical h
    obtain ⟨address, haddress, rfl⟩ := Option.map_eq_some_iff.mp h
    exact Option.map_eq_some_iff.mpr ⟨address, spelled_compressed haddress, rfl⟩
  parses := by
    intro text canonical h
    obtain ⟨address, -, rfl⟩ := Option.map_eq_some_iff.mp h
    rw [hv, ipAddress_compressed, Option.isSome_some]

/-! ### The canonical list -/

/-- `_canonical_addresses` without its loop. -/
theorem canonicalAddresses_eq (net : Addressing) (texts : List Name) :
    canonicalAddresses net texts =
      if none ∈ texts.map net.canonical then
        .error (destinationError "endereco resolvido invalido")
      else if texts = [] then .error (destinationError "destino nao resolvido")
      else .ok ((texts.filterMap net.canonical).dedup.insertionSort TextOrder) := by
  have hloop : texts.mapM (canonicalAddress net) =
      if none ∈ texts.map net.canonical then
        .error (destinationError "endereco resolvido invalido")
      else .ok (texts.filterMap net.canonical) := by
    induction texts with
    | nil => rfl
    | cons text texts ih =>
      rw [List.mapM_cons, ih, canonicalAddress]
      cases h : net.canonical text with
      | none => simp [h]; rfl
      | some address =>
        by_cases hrest : none ∈ texts.map net.canonical
        · simp only [hrest, if_true, List.map_cons, List.mem_cons, or_true]
          rfl
        · have hcons : none ∉ (text :: texts).map net.canonical := by
            rw [List.map_cons, h, List.mem_cons]
            exact fun hmem => hmem.elim (fun h => by cases h) hrest
          rw [if_neg hrest, if_neg hcons, List.filterMap_cons_some h]
          rfl
  rw [canonicalAddresses, hloop]
  by_cases hnone : none ∈ texts.map net.canonical
  · rw [if_pos hnone, if_pos hnone]
    rfl
  · have hnil : texts.filterMap net.canonical = [] ↔ texts = [] := by
      cases texts with
      | nil => simp
      | cons text texts =>
        cases h : net.canonical text with
        | none => exact absurd (by simp [h]) hnone
        | some address => simp [List.filterMap_cons_some h]
    rw [if_neg hnone, if_neg hnone]
    by_cases hempty : texts = []
    · subst hempty
      rfl
    · rw [if_neg hempty]
      show (refuseIf _ _).bind _ = _
      rw [refuseIf, if_neg (hnil.not.mpr hempty)]
      rfl

/-- What is in the sorted list without duplicates is all that there is to it. -/
theorem sorted_dedup_congr {texts texts' : List Name} (h : ∀ text, text ∈ texts ↔ text ∈ texts') :
    texts.dedup.insertionSort TextOrder = texts'.dedup.insertionSort TextOrder := by
  have htotal := textOrder_total
  have htrans := textOrder_trans
  have hperm : texts.dedup.Perm texts'.dedup :=
    (List.perm_ext_iff_of_nodup (List.nodup_dedup _) (List.nodup_dedup _)).mpr fun text => by
      rw [List.mem_dedup, List.mem_dedup, h]
  have hsorted := ((List.perm_insertionSort TextOrder _).trans hperm).trans
    (List.perm_insertionSort TextOrder texts'.dedup).symm
  exact hsorted.eq_of_pairwise (fun a b _ _ hab hba => List.le_antisymm hab hba)
    (List.pairwise_insertionSort _ _) (List.pairwise_insertionSort _ _)

/-- Texts that spell the same addresses have the same canonical list, or the same error. -/
theorem canonicalAddresses_congr {texts texts' : List Name} (h : SameAddresses texts texts') :
    canonicalAddresses (.ofClasses classes) texts =
      canonicalAddresses (.ofClasses classes) texts' := by
  have hmap : ∀ texts : List Name, texts.map (Addressing.ofClasses classes).canonical =
      (texts.map spelled).map (Option.map IPAddress.compressed) := by
    intro texts
    rw [List.map_map]
    rfl
  have hcanonical : ∀ x, x ∈ texts.map (Addressing.ofClasses classes).canonical ↔
      x ∈ texts'.map (Addressing.ofClasses classes).canonical := by
    intro x
    rw [hmap, hmap]
    simp only [List.mem_map (f := Option.map IPAddress.compressed), h _]
  have hempty : texts = [] ↔ texts' = [] := by
    rw [← List.map_eq_nil_iff (f := spelled), ← List.map_eq_nil_iff (f := spelled) (l := texts'),
      List.eq_nil_iff_forall_not_mem, List.eq_nil_iff_forall_not_mem]
    simp only [h _]
  have hfound : ∀ x, x ∈ texts.filterMap (Addressing.ofClasses classes).canonical ↔
      x ∈ texts'.filterMap (Addressing.ofClasses classes).canonical := by
    intro x
    rw [List.mem_filterMap, List.mem_filterMap, ← List.mem_map, ← List.mem_map]
    exact hcanonical (some x)
  rw [canonicalAddresses_eq, canonicalAddresses_eq]
  simp only [hcanonical none, hempty]
  rw [sorted_dedup_congr hfound]

/-- The canonical list of texts is the sorted texts of the addresses they spell, each once. -/
theorem canonicalAddresses_eq_ok {texts resolved : List Name} :
    canonicalAddresses (.ofClasses classes) texts = .ok resolved ↔
      texts ≠ [] ∧ (∀ text ∈ texts, ∃ address, spelled text = some address) ∧
        resolved.Pairwise TextOrder ∧ resolved.Nodup ∧
        ∀ text, text ∈ resolved ↔
          ∃ raw ∈ texts, ∃ address, spelled raw = some address ∧ address.compressed = text := by
  have htotal := textOrder_total
  have htrans := textOrder_trans
  have hnone : none ∈ texts.map (Addressing.ofClasses classes).canonical ↔
      ¬ ∀ text ∈ texts, ∃ address, spelled text = some address := by
    simp [List.mem_map, Addressing.ofClasses, Option.eq_none_iff_forall_ne_some]
  have hmem : ∀ text, text ∈ (texts.filterMap (Addressing.ofClasses classes).canonical) ↔
      ∃ raw ∈ texts, ∃ address, spelled raw = some address ∧ address.compressed = text := by
    intro text
    rw [List.mem_filterMap]
    simp only [Addressing.ofClasses, Option.map_eq_some_iff]
  rw [canonicalAddresses_eq]
  constructor
  · intro h
    split at h
    · exact nomatch h
    next hall =>
      split at h
      · exact nomatch h
      next hne =>
        obtain rfl := Except.ok.inj h
        refine ⟨hne, not_not.mp (hnone.not.mp hall), List.pairwise_insertionSort TextOrder _,
          (List.perm_insertionSort _ _).nodup_iff.mpr (List.nodup_dedup _), fun text => ?_⟩
        rw [(List.perm_insertionSort _ _).mem_iff, List.mem_dedup, hmem]
  · rintro ⟨hne, hall, hsorted, hnodup, htexts⟩
    rw [if_neg (hnone.not.mpr (not_not.mpr hall)), if_neg hne]
    have hsame : ∀ text, text ∈ texts.filterMap (Addressing.ofClasses classes).canonical ↔
        text ∈ resolved := by
      intro text
      rw [hmem, htexts]
    rw [sorted_dedup_congr hsame, hnodup.dedup, hsorted.insertionSort_eq]

/-- Two lists with the same canonical list spell the same addresses. -/
theorem sameAddresses_of_eq {texts texts' resolved : List Name}
    (h : canonicalAddresses (.ofClasses classes) texts = .ok resolved)
    (h' : canonicalAddresses (.ofClasses classes) texts' = .ok resolved) :
    SameAddresses texts texts' := by
  have one : ∀ {texts texts' : List Name},
      canonicalAddresses (.ofClasses classes) texts = .ok resolved →
      canonicalAddresses (.ofClasses classes) texts' = .ok resolved →
      ∀ address, address ∈ texts.map spelled → address ∈ texts'.map spelled := by
    intro texts texts' h h' address hmem
    obtain ⟨-, hall, -, -, htexts⟩ := canonicalAddresses_eq_ok.mp h
    obtain ⟨-, -, -, -, htexts'⟩ := canonicalAddresses_eq_ok.mp h'
    obtain ⟨raw, hraw, rfl⟩ := List.mem_map.mp hmem
    obtain ⟨address, haddress⟩ := hall raw hraw
    have hresolved := (htexts address.compressed).mpr ⟨raw, hraw, address, haddress, rfl⟩
    obtain ⟨raw', hraw', address', haddress', htext⟩ := (htexts' _).mp hresolved
    rw [haddress, ← compressed_injective htext]
    exact List.mem_map.mpr ⟨raw', hraw', haddress'⟩
  exact fun address => ⟨one h h' address, one h' h address⟩

/-! ### The policy -/

/-- The checks of one canonical address are the policy. -/
theorem validateAddress_eq_ok {text host : Name} {policy : DestinationPolicy} {address : IPAddress}
    (h : spelled text = some address) :
    validateAddress v (.ofClasses classes) address.compressed host policy = .ok () ↔
      Allowed v classes host policy address := by
  have hspelled := spelled_compressed h
  have hcanonical : canonicalAddress (.ofClasses classes) address.compressed =
      .ok address.compressed := by
    simp [canonicalAddress, Addressing.ofClasses, hspelled]
  rw [validateAddress, hcanonical, Allowed]
  simp only [bind_eq_ok, refuseIf_eq_ok, Except.ok.injEq, exists_eq_left', Addressing.ofClasses,
    hspelled, Option.any_some]
  cases classes.isLoopback address <;> cases classes.isPrivate address <;>
    simp [and_assoc]

/-- The destination of a host, in terms of addresses: the policy lets it resolve to each of
them. -/
theorem resolveDestination_eq_ok {host : Name} {port : Nat} {policy : DestinationPolicy}
    {resolver : Name → Nat → Except StoreError (List Name)} {resolved : List Name} :
    resolveDestination v (.ofClasses classes) host port policy resolver none = .ok resolved ↔
      validHost v host = true ∧ (1 ≤ port ∧ port ≤ 65535) ∧
        ∃ answers, resolver host port = .ok answers ∧
          canonicalAddresses (.ofClasses classes) answers = .ok resolved ∧
          ∀ raw ∈ answers, ∃ address, spelled raw = some address ∧
            Allowed v classes host policy address := by
  simp only [resolveDestination, bind_eq_ok, pure_eq_ok, refuseIf_eq_ok, checkPinned,
    exists_const, true_and, Bool.not_eq_false, not_not]
  constructor
  · rintro ⟨hhost, hport, answers, hanswers, found, hfound, _, hvalid, rfl⟩
    have hvalid' := forM_eq_ok.mp hvalid
    refine ⟨hhost, hport, answers, hanswers, hfound, fun raw hraw => ?_⟩
    obtain ⟨-, hall, -, -, htexts⟩ := canonicalAddresses_eq_ok.mp hfound
    obtain ⟨address, haddress⟩ := hall raw hraw
    have hresolved := (htexts address.compressed).mpr ⟨raw, hraw, address, haddress, rfl⟩
    exact ⟨address, haddress, (validateAddress_eq_ok haddress).mp (hvalid' _ hresolved)⟩
  · rintro ⟨hhost, hport, answers, hanswers, hfound, hallowed⟩
    refine ⟨hhost, hport, answers, hanswers, resolved, hfound, (),
      forM_eq_ok.mpr fun text htext => ?_, rfl⟩
    obtain ⟨-, -, -, -, htexts⟩ := canonicalAddresses_eq_ok.mp hfound
    obtain ⟨raw, hraw, address, haddress, rfl⟩ := (htexts text).mp htext
    obtain ⟨address', haddress', hallow⟩ := hallowed raw hraw
    obtain rfl : address' = address := Option.some_inj.mp (haddress'.symm.trans haddress)
    exact (validateAddress_eq_ok haddress).mpr hallow

/-- Pinned addresses are accepted when they are those that were resolved. -/
theorem resolveDestination_expected {host : Name} {port : Nat} {policy : DestinationPolicy}
    {resolver : Name → Nat → Except StoreError (List Name)} {expected resolved : List Name} :
    resolveDestination v (.ofClasses classes) host port policy resolver (some expected) =
        .ok resolved ↔
      resolveDestination v (.ofClasses classes) host port policy resolver none = .ok resolved ∧
        ∃ answers, resolver host port = .ok answers ∧ SameAddresses answers expected := by
  have hpinned : ∀ {answers},
      canonicalAddresses (.ofClasses classes) answers = .ok resolved →
      (checkPinned (.ofClasses classes) resolved (some expected) = .ok () ↔
        SameAddresses answers expected) := by
    intro answers h
    rw [checkPinned]
    constructor
    · intro hcheck
      cases hexpected : canonicalAddresses (.ofClasses classes) expected with
      | error e =>
        rw [hexpected] at hcheck
        cases hcheck
      | ok found =>
        rw [hexpected] at hcheck
        obtain rfl : resolved = found := by simpa using hcheck
        exact sameAddresses_of_eq h hexpected
    · intro hsame
      have hexpected : canonicalAddresses (.ofClasses classes) expected = .ok resolved := by
        rw [← canonicalAddresses_congr hsame, h]
      simp [hexpected]
  simp only [resolveDestination, bind_eq_ok, pure_eq_ok, refuseIf_eq_ok, exists_const]
  constructor
  · rintro ⟨hhost, hport, answers, hanswers, found, hfound, u, hvalid, _, hcheck, rfl⟩
    exact ⟨⟨hhost, hport, answers, hanswers, found, hfound, u, hvalid, (), rfl, rfl⟩, answers,
      hanswers, (hpinned hfound).mp hcheck⟩
  · rintro ⟨⟨hhost, hport, answers, hanswers, found, hfound, u, hvalid, _, -, rfl⟩, answers',
      hanswers', hsame⟩
    obtain rfl := Except.ok.inj (hanswers.symm.trans hanswers')
    exact ⟨hhost, hport, answers, hanswers, found, hfound, u, hvalid, (),
      (hpinned hfound).mpr hsame, rfl⟩

/-- The resolver's answer counts only by the addresses it spells. -/
theorem resolveDestination_congr {host : Name} {port : Nat} {policy : DestinationPolicy}
    {resolver resolver' : Name → Nat → Except StoreError (List Name)} {answers answers' : List Name}
    (hanswers : resolver host port = .ok answers) (hanswers' : resolver' host port = .ok answers')
    (hsame : SameAddresses answers answers') (expected : Option (List Name)) :
    resolveDestination v (.ofClasses classes) host port policy resolver expected =
      resolveDestination v (.ofClasses classes) host port policy resolver' expected := by
  rw [resolveDestination, resolveDestination, hanswers, hanswers']
  show (refuseIf _ _ >>= fun _ => refuseIf _ _ >>= fun _ =>
      canonicalAddresses (.ofClasses classes) answers >>= _) = _
  rw [canonicalAddresses_congr hsame]
  rfl

/-- **Resolution is canonical.** What `resolve_destination` decides for a host, a port and a policy,
and the addresses it returns, depend on the set of addresses that the resolver's texts spell, and an
IPv4 address spells the same in the IPv6 forms. It returns the sorted texts of these addresses, each
once, where the policy allows every one; and with addresses to compare with, where these spell the
same set. -/
theorem resolution_canonical (v : Validators) (classes : Classes) (host : Name) (port : Nat)
    (policy : DestinationPolicy) (resolver : Name → Nat → Except StoreError (List Name)) :
    (∀ resolver' answers answers', resolver host port = .ok answers →
      resolver' host port = .ok answers' → SameAddresses answers answers' → ∀ expected,
      resolveDestination v (.ofClasses classes) host port policy resolver expected =
        resolveDestination v (.ofClasses classes) host port policy resolver' expected) ∧
    (∀ address : IPv4Address, spelled (mappedText address) = spelled address.text ∧
      spelled address.mapped.text = spelled address.text) ∧
    (∀ resolved,
      resolveDestination v (.ofClasses classes) host port policy resolver none = .ok resolved ↔
        validHost v host = true ∧ (1 ≤ port ∧ port ≤ 65535) ∧
          ∃ answers, resolver host port = .ok answers ∧ answers ≠ [] ∧
            (∀ raw ∈ answers, ∃ address, spelled raw = some address ∧
              Allowed v classes host policy address) ∧
            resolved.Pairwise TextOrder ∧ resolved.Nodup ∧
            ∀ text, text ∈ resolved ↔
              ∃ raw ∈ answers, ∃ address, spelled raw = some address ∧ address.compressed = text) ∧
    (∀ expected resolved,
      resolveDestination v (.ofClasses classes) host port policy resolver (some expected) =
          .ok resolved ↔
        resolveDestination v (.ofClasses classes) host port policy resolver none = .ok resolved ∧
          ∃ answers, resolver host port = .ok answers ∧ SameAddresses answers expected) := by
  refine ⟨fun resolver' answers answers' h h' hsame => resolveDestination_congr h h' hsame,
    spelled_mapped, fun resolved => ?_, fun expected resolved => resolveDestination_expected⟩
  rw [resolveDestination_eq_ok]
  refine and_congr_right fun _ => and_congr_right fun _ => exists_congr fun answers =>
    and_congr_right fun _ => ?_
  rw [canonicalAddresses_eq_ok]
  constructor
  · rintro ⟨⟨hne, -, htexts⟩, hallowed⟩
    exact ⟨hne, hallowed, htexts⟩
  · rintro ⟨hne, hallowed, htexts⟩
    refine ⟨⟨hne, fun raw hraw => ?_, htexts⟩, hallowed⟩
    obtain ⟨address, haddress, -⟩ := hallowed raw hraw
    exact ⟨address, haddress⟩

end

/-- Validators that ask for an address where they ask for one, and `10.x.x.x` as the only private
addresses. -/
def lanValidators : Validators where
  isAddress text := (ipAddress text).isSome
  isTimestamp _ := true
  isSpace c := c == ' '
  lower name := name.map Char.toLower
  policy raw := some raw
  policy_dump _ _ _ := rfl

def lanClasses : Classes where
  isLoopback address := decide (address = .v4 ⟨127, 0, 0, 1⟩)
  isUnspecified address := decide (address = .v4 ⟨0, 0, 0, 0⟩)
  isLinkLocal _ := false
  isMulticast _ := false
  isPrivate
    | .v4 address => address.a == 10
    | .v6 _ => false
  isGlobal
    | .v4 address => address.a != 10
    | .v6 _ => false

/-- One address in three spellings, pinned in a fourth order. -/
theorem resolution_canonical_lan :
    let host : Name := ['d', 'b', '.', 'l', 'a', 'n']
    let lan : IPv4Address := ⟨10, 0, 0, 5⟩
    resolveDestination lanValidators (.ofClasses lanClasses) host 5432 ⟨false, false, []⟩
      (fun _ _ => .ok [mappedText lan, lan.text, lan.mapped.text]) (some [lan.mapped.text]) =
        .ok [lan.text] := by
  intro host lan
  have hcanonical := resolution_canonical lanValidators lanClasses host 5432 ⟨false, false, []⟩
    fun _ _ => .ok [mappedText lan, lan.text, lan.mapped.text]
  have hlan : spelled lan.text = some (.v4 lan) := by
    rw [spelled, show lan.text = (IPAddress.v4 lan).compressed from rfl, ipAddress_compressed]
    rfl
  have hmapped : spelled (mappedText lan) = some (.v4 lan) := by rw [(spelled_mapped lan).1, hlan]
  have hmapped' : spelled lan.mapped.text = some (.v4 lan) := by rw [(spelled_mapped lan).2, hlan]
  have hallowed : Allowed lanValidators lanClasses host ⟨false, false, []⟩ (.v4 lan) :=
    ⟨by decide, by decide⟩
  refine (hcanonical.2.2.2 _ _).mpr ⟨(hcanonical.2.2.1 _).mpr ⟨by decide, by decide, _, rfl,
    by simp, ?_, by simp, by simp, ?_⟩, _, rfl, ?_⟩
  · simp [hmapped, hlan, hmapped', hallowed]
  · intro text
    simp [hmapped, hlan, hmapped', IPAddress.compressed, eq_comm]
  · intro address
    simp [hmapped, hlan, hmapped']

end MaskGateway.Proofs.DatasourceService
