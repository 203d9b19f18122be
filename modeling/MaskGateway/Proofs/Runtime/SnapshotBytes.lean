import MaskGateway.Proofs.Datasource.Exact
import MaskGateway.Proofs.Runtime.SnapshotText

/-!
# `MaskGateway.Proofs.Runtime.SnapshotBytes`: canonical bytes are read back

`decode_canonical`: the bytes that `_canonical` writes for an object without doubles, not too deep, are
decoded to that object with its keys sorted. `length_canonicalText_obj` says how long they are, which
does not depend on the order of the keys: the size limits of a template and of a snapshot are compared
through it.
-/

set_option autoImplicit false

namespace MaskGateway.Proofs.Runtime.Snapshot

open MaskGateway.Runtime.Snapshot MaskGateway.Lib
open MaskGateway.Datasource (Json Floats dumpsWith dumpsFieldsWith quotedWith readText notFinite)
open MaskGateway.Proofs.Datasource (Proper ProperItems ProperFields Ordered readText_dumpsWith
  proper_sorted proper_of_readText)

/-! ### Sorted keys -/

section

variable {cond : Json → Bool}

theorem everyItem_eq_all (items : List Json) : everyItem cond items = items.all (every cond) := by
  induction items with
  | nil => rfl
  | cons item items ih => rw [everyItem, List.all_cons, ih]

theorem everyField_eq_all (fields : List (Name × Json)) :
    everyField cond fields = fields.all fun field => every cond field.2 := by
  induction fields with
  | nil => rfl
  | cons field fields ih => rw [everyField, List.all_cons, ih]

theorem sortedFields_eq_map (fields : List (Name × Json)) :
    Json.sortedFields fields = fields.map fun field => (field.1, field.2.sorted) := by
  induction fields with
  | nil => rfl
  | cons field fields ih => rw [Json.sortedFields, List.map_cons, ih]

theorem sortedItems_eq_map (items : List Json) :
    Json.sortedItems items = items.map Json.sorted := by
  induction items with
  | nil => rfl
  | cons item items ih => rw [Json.sortedItems, List.map_cons, ih]

/-- The sorted fields are the fields with their values sorted, in another order. -/
theorem frozen_perm (fields : List (Name × Json)) :
    (frozen fields).Perm (fields.map fun field => (field.1, field.2.sorted)) := by
  rw [frozen, sortedFields_eq_map]
  exact List.perm_insertionSort _ _

theorem sorted_obj (fields : List (Name × Json)) :
    (Json.obj fields).sorted = .obj (frozen fields) := rfl

/-- The keys are the same. -/
theorem keys_frozen_perm (fields : List (Name × Json)) :
    ((frozen fields).map Prod.fst).Perm (fields.map Prod.fst) := by
  have hperm := (frozen_perm fields).map Prod.fst
  rwa [List.map_map] at hperm

/-- Sorting the keys does not matter to a condition. -/
def Stable (cond : Json → Bool) : Prop := ∀ value : Json, cond value.sorted = cond value

theorem stable_noFloat : Stable noFloat := by
  intro value
  cases value <;> rfl

theorem stable_printable : Stable printable := by
  intro value
  cases value <;> rfl

theorem stable_keysOnce : Stable keysOnce := by
  intro value
  cases value with
  | obj fields =>
      rw [sorted_obj, keysOnce, keysOnce, decide_eq_decide]
      exact (keys_frozen_perm fields).nodup_iff
  | _ => rfl

mutual

/-- What holds of every value inside still holds once the keys are sorted. -/
theorem every_sorted (h : Stable cond) : ∀ value : Json, every cond value.sorted = every cond value
  | .null | .bool _ | .int _ | .float _ | .str _ => rfl
  | .arr items => by
      have hcond := h (.arr items)
      rw [Json.sorted] at hcond
      rw [Json.sorted, every, every, everyItem_sorted h items, hcond]
  | .obj fields => by
      have hperm : (frozen fields).Perm (Json.sortedFields fields) := List.perm_insertionSort _ _
      have hcond := h (.obj fields)
      rw [sorted_obj] at hcond
      rw [sorted_obj, every, every, hcond, everyField_eq_all, hperm.all_eq, ← everyField_eq_all,
        everyField_sorted h fields]

theorem everyItem_sorted (h : Stable cond) :
    ∀ items : List Json, everyItem cond (Json.sortedItems items) = everyItem cond items
  | [] => rfl
  | item :: items => by
      rw [Json.sortedItems, everyItem, everyItem, every_sorted h item, everyItem_sorted h items]

theorem everyField_sorted (h : Stable cond) :
    ∀ fields : List (Name × Json),
      everyField cond (Json.sortedFields fields) = everyField cond fields
  | [] => rfl
  | (key, value) :: fields => by
      rw [Json.sortedFields, everyField, everyField, every_sorted h value,
        everyField_sorted h fields]

end

end

theorem depthFields_le {n : Nat} {fields : List (Name × Json)} :
    depthFields fields ≤ n ↔ ∀ field ∈ fields, depth field.2 ≤ n := by
  induction fields with
  | nil => simp [depthFields]
  | cons field fields ih => simp [depthFields, ih]

theorem depthItems_le {n : Nat} {items : List Json} :
    depthItems items ≤ n ↔ ∀ item ∈ items, depth item ≤ n := by
  induction items with
  | nil => simp [depthItems]
  | cons item items ih => simp [depthItems, ih]

mutual

/-- Sorting the keys adds no level. -/
theorem depth_sorted_le : ∀ value : Json, depth value.sorted ≤ depth value
  | .null | .bool _ | .int _ | .float _ | .str _ => Nat.le_refl _
  | .arr items => by
      have hitems := depthItems_sorted_le items
      rw [Json.sorted, depth, depth]
      omega
  | .obj fields => by
      have hperm : (frozen fields).Perm (Json.sortedFields fields) := List.perm_insertionSort _ _
      have hfields := depthFields_sorted_le fields
      have hfrozen : depthFields (frozen fields) ≤ depthFields fields :=
        depthFields_le.mpr fun field hfield =>
          depthFields_le.mp hfields field (hperm.mem_iff.mp hfield)
      rw [sorted_obj, depth, depth]
      omega

theorem depthItems_sorted_le :
    ∀ items : List Json, depthItems (Json.sortedItems items) ≤ depthItems items
  | [] => Nat.le_refl _
  | item :: items => by
      have hitem := depth_sorted_le item
      have hitems := depthItems_sorted_le items
      rw [Json.sortedItems, depthItems, depthItems]
      omega

theorem depthFields_sorted_le :
    ∀ fields : List (Name × Json), depthFields (Json.sortedFields fields) ≤ depthFields fields
  | [] => Nat.le_refl _
  | (key, value) :: fields => by
      have hvalue := depth_sorted_le value
      have hfields := depthFields_sorted_le fields
      rw [Json.sortedFields, depthFields, depthFields]
      omega

end

/-- Fields in the order of their keys stay where they are. -/
theorem insertionSort_keys {fields : List (Name × Json)}
    (h : fields.Pairwise fun a b => a.1 ≤ b.1) :
    fields.insertionSort (fun a b => a.1 ≤ b.1) = fields := by
  have htotal : Std.Total fun a b : Name × Json => a.1 ≤ b.1 := ⟨fun a b => le_total a.1 b.1⟩
  have htrans : IsTrans (Name × Json) fun a b => a.1 ≤ b.1 := ⟨fun _ _ _ hab hbc => le_trans hab hbc⟩
  exact List.Pairwise.insertionSort_eq h

/-- The sorted fields stand in the order of their keys. -/
theorem frozen_pairwise (fields : List (Name × Json)) :
    (frozen fields).Pairwise fun a b => a.1 ≤ b.1 := by
  have htotal : Std.Total fun a b : Name × Json => a.1 ≤ b.1 := ⟨fun a b => le_total a.1 b.1⟩
  have htrans : IsTrans (Name × Json) fun a b => a.1 ≤ b.1 := ⟨fun _ _ _ hab hbc => le_trans hab hbc⟩
  exact List.pairwise_insertionSort _ _

mutual

/-- Sorting the keys twice is sorting them once. -/
theorem sorted_sorted : ∀ value : Json, value.sorted.sorted = value.sorted
  | .null | .bool _ | .int _ | .float _ | .str _ => rfl
  | .arr items => by rw [Json.sorted, Json.sorted, sortedItems_sorted items]
  | .obj fields => by
      have hsame : Json.sortedFields (frozen fields) = frozen fields := by
        rw [sortedFields_eq_map]
        refine (List.map_congr_left fun field hfield => ?_).trans (List.map_id _)
        have hmem : field ∈ Json.sortedFields fields := (List.mem_insertionSort _).mp hfield
        exact Prod.ext rfl (sortedFields_sorted fields field hmem)
      rw [sorted_obj, sorted_obj, frozen, hsame, insertionSort_keys (frozen_pairwise fields)]

theorem sortedItems_sorted :
    ∀ items : List Json, Json.sortedItems (Json.sortedItems items) = Json.sortedItems items
  | [] => rfl
  | item :: items => by
      rw [Json.sortedItems, Json.sortedItems, sorted_sorted item, sortedItems_sorted items]

theorem sortedFields_sorted :
    ∀ fields : List (Name × Json), ∀ field ∈ Json.sortedFields fields, field.2.sorted = field.2
  | [], _, h => by cases h
  | (key, value) :: fields, field, h => by
      rcases List.mem_cons.mp h with rfl | h
      · exact sorted_sorted value
      · exact sortedFields_sorted fields field h

end

theorem frozen_frozen (fields : List (Name × Json)) : frozen (frozen fields) = frozen fields :=
  Json.obj.inj (sorted_sorted (.obj fields))

/-! ### Values that are read back -/

mutual

/-- A value without doubles and without repeated keys is proper. -/
theorem proper_of_every {floats : Floats} : ∀ value : Json, every keysOnce value = true →
    every noFloat value = true → Proper floats value
  | .null, _, _ | .bool _, _, _ | .int _, _, _ | .str _, _, _ => trivial
  | .float _, _, h => by cases h
  | .arr items, hkeys, hfloat => by
      simp only [every, Bool.and_eq_true] at hkeys hfloat
      exact properItems_of_every items hkeys.2 hfloat.2
  | .obj fields, hkeys, hfloat => by
      simp only [every, Bool.and_eq_true, keysOnce, decide_eq_true_eq] at hkeys hfloat
      exact ⟨hkeys.1, properFields_of_every fields hkeys.2 hfloat.2⟩

theorem properItems_of_every {floats : Floats} :
    ∀ items : List Json, everyItem keysOnce items = true → everyItem noFloat items = true →
      ProperItems floats items
  | [], _, _ => trivial
  | item :: items, hkeys, hfloat => by
      simp only [everyItem, Bool.and_eq_true] at hkeys hfloat
      exact ⟨proper_of_every item hkeys.1 hfloat.1, properItems_of_every items hkeys.2 hfloat.2⟩

theorem properFields_of_every {floats : Floats} :
    ∀ fields : List (Name × Json), everyField keysOnce fields = true →
      everyField noFloat fields = true → ProperFields floats fields
  | [], _, _ => trivial
  | (key, value) :: fields, hkeys, hfloat => by
      simp only [everyField, Bool.and_eq_true] at hkeys hfloat
      exact ⟨proper_of_every value hkeys.1 hfloat.1,
        properFields_of_every fields hkeys.2 hfloat.2⟩

end

mutual

/-- A proper value has no key twice. -/
theorem keysOnce_of_proper {floats : Floats} : ∀ value : Json, Proper floats value →
    every keysOnce value = true
  | .null, _ | .bool _, _ | .int _, _ | .float _, _ | .str _, _ => rfl
  | .arr items, h => by
      rw [every, keysOnceItems_of_proper items h]
      rfl
  | .obj fields, h => by
      rw [every, keysOnceFields_of_proper fields h.2, keysOnce, decide_eq_true h.1]
      rfl

theorem keysOnceItems_of_proper {floats : Floats} :
    ∀ items : List Json, ProperItems floats items → everyItem keysOnce items = true
  | [], _ => rfl
  | item :: items, h => by
      rw [everyItem, keysOnce_of_proper item h.1, keysOnceItems_of_proper items h.2]
      rfl

theorem keysOnceFields_of_proper {floats : Floats} :
    ∀ fields : List (Name × Json), ProperFields floats fields → everyField keysOnce fields = true
  | [], _ => rfl
  | (_, value) :: fields, h => by
      rw [everyField, keysOnce_of_proper value h.1, keysOnceFields_of_proper fields h.2]
      rfl

end

/-- Doubles that `allow_nan=False` lets through. -/
def finiteNode : Json → Bool
  | .float repr => !(notFinite.contains repr)
  | _ => true

theorem stable_finiteNode : Stable finiteNode := by
  intro value
  cases value <;> rfl

mutual

/-- A value is finite when every double inside it is. -/
theorem finite_eq_every : ∀ value : Json, value.finite = every finiteNode value
  | .null | .bool _ | .int _ | .float _ | .str _ => rfl
  | .arr items => by
      rw [Json.finite, every, finiteItems_eq_every items]
      rfl
  | .obj fields => by
      rw [Json.finite, every, finiteFields_eq_every fields]
      rfl

theorem finiteItems_eq_every : ∀ items : List Json, Json.finiteItems items = everyItem finiteNode items
  | [] => rfl
  | item :: items => by
      rw [Json.finiteItems, everyItem, finite_eq_every item, finiteItems_eq_every items]

theorem finiteFields_eq_every :
    ∀ fields : List (Name × Json), Json.finiteFields fields = everyField finiteNode fields
  | [] => rfl
  | (_, value) :: fields => by
      rw [Json.finiteFields, everyField, finite_eq_every value, finiteFields_eq_every fields]

end

theorem canonicalText_sorted (value : Json) : canonicalText value.sorted = canonicalText value := by
  rw [canonicalText, canonicalText, sorted_sorted]

/-- The canonical bytes do not depend on the order of the keys. -/
theorem canonical_sorted (value : Json) : canonical value.sorted = canonical value := by
  rw [canonical, canonical, canonicalText_sorted, every_sorted stable_printable, finite_eq_every,
    finite_eq_every, every_sorted stable_finiteNode]

/-- What `_canonical` writes, and when. -/
theorem canonical_eq_some {value : Json} {data : List UInt8} :
    canonical value = some data ↔ (value.finite = true ∧ every printable value = true ∧
      (canonicalText value).length ≤ maxSnapshotBytes) ∧ Ascii (canonicalText value) ∧
        asciiBytes (canonicalText value) = data := by
  rw [canonical]
  split_ifs with h
  · rw [encodeAscii_eq_some]
    exact (and_iff_right h).symm
  · simp [h]

theorem length_of_canonical {value : Json} {data : List UInt8} (h : canonical value = some data) :
    data.length = (canonicalText value).length := by
  obtain ⟨-, -, rfl⟩ := canonical_eq_some.mp h
  exact List.length_map _

/-! ### Decoding -/

/-- What is decoded has its keys in order, and the bytes are its canonical ones. -/
theorem ordered_of_decode {floats : Floats} {data : List UInt8} {fields : List (Name × Json)}
    (h : decode floats data = .ok fields) :
    Ordered floats (.obj fields) ∧ canonical (.obj fields) = some data := by
  rw [decode] at h
  split_ifs at h with hguard
  split at h
  · rename_i read hread
    split_ifs at h with hdata
    cases h
    obtain ⟨⟨hfinite, -, -⟩, hascii, rfl⟩ := canonical_eq_some.mp hdata
    rw [decodeAscii_asciiBytes hascii, Option.bind_some] at hread
    have hproper : Proper floats (.obj fields) := proper_of_readText hread hfinite
    -- the text is that of the sorted value, so that is what is read
    have hagain := readText_dumpsWith readable_escapeAscii (proper_sorted _ hproper)
    rw [← canonicalText, hread] at hagain
    exact ⟨⟨hproper, (Option.some.inj hagain).symm⟩, hdata⟩
  · cases h

/-- **Two ordered values with the same canonical bytes are the same.** -/
theorem canonical_injective {floats : Floats} {value other : Json} {data : List UInt8}
    (hvalue : Ordered floats value) (hother : Ordered floats other)
    (hdata : canonical value = some data) (hdata' : canonical other = some data) : value = other := by
  obtain ⟨-, hascii, hbytes⟩ := canonical_eq_some.mp hdata
  obtain ⟨-, hascii', hbytes'⟩ := canonical_eq_some.mp hdata'
  have htext := decodeAscii_asciiBytes hascii
  rw [hbytes, ← hbytes', decodeAscii_asciiBytes hascii', Option.some.injEq] at htext
  have hread := readText_dumpsWith readable_escapeAscii (proper_sorted _ hvalue.1)
  have hread' := readText_dumpsWith readable_escapeAscii (proper_sorted _ hother.1)
  rw [canonicalText, canonicalText] at htext
  rw [← htext, hread', hvalue.2, hother.2] at hread
  exact (Option.some.inj hread).symm

/-- What a snapshot is made of: a value without doubles, without repeated keys, and not too deep. -/
structure Plain (value : Json) : Prop where
  keys : every keysOnce value = true
  floats : every noFloat value = true
  depth : depth value ≤ maxDepth

theorem Plain.sorted {value : Json} (h : Plain value) : Plain value.sorted where
  keys := (every_sorted stable_keysOnce value).trans h.keys
  floats := (every_sorted stable_noFloat value).trans h.floats
  depth := (depth_sorted_le value).trans h.depth

theorem Plain.proper {value : Json} (h : Plain value) (floats : Floats) : Proper floats value :=
  proper_of_every value h.keys h.floats

/-- The guard lets the canonical bytes through. -/
theorem depthGuard_canonicalText {value : Json} (h : Plain value) :
    depthGuard (asciiBytes (canonicalText value)) = true := by
  have hroom : (0 : Int) + depth value.sorted ≤ maxDepth := by
    have := h.sorted.depth
    omega
  have hscan := guard_dumps value.sorted 0 [] h.sorted.floats hroom
  rw [List.append_nil] at hscan
  show (scan (outside 0) (canonicalText value)).isSome = true
  rw [canonicalText, hscan]
  rfl

theorem canonicalText_ne_nil (fields : List (Name × Json)) :
    canonicalText (.obj fields) ≠ [] := by
  rw [canonicalText, sorted_obj]
  cases frozen fields with
  | nil => simp [dumpsWith]
  | cons field rest => simp [dumpsWith]

/-- **Canonical bytes are decoded** to the object they are of, with its keys sorted. -/
theorem decode_canonical {fields : List (Name × Json)} {data : List UInt8}
    (h : Plain (.obj fields)) (hdata : canonical (.obj fields) = some data) (floats : Floats) :
    decode floats data = .ok (frozen fields) := by
  have hagain := canonical_sorted (.obj fields)
  rw [sorted_obj, hdata] at hagain
  obtain ⟨⟨-, -, hlength⟩, hascii, rfl⟩ := canonical_eq_some.mp hdata
  have hread : readText floats (canonicalText (.obj fields)) = some (.obj (frozen fields)) :=
    readText_dumpsWith readable_escapeAscii (h.sorted.proper floats)
  have hguard := depthGuard_canonicalText h
  rw [decode, if_neg, decodeAscii_asciiBytes hascii, Option.bind_some, hread]
  · exact if_pos hagain
  · rintro (hnil | hlong | hdeep)
    · exact canonicalText_ne_nil fields (List.map_eq_nil_iff.mp hnil)
    · rw [asciiBytes, List.length_map] at hlong
      omega
    · rw [hguard] at hdeep
      cases hdeep

/-! ### Lengths -/

/-- The length of a text between quotes, with the quote that ends it. -/
def quotedLength (text : Name) : Nat := (quotedWith escapeAscii text).length

/-- The length of a field: its key, its value, and the four marks around them but one. -/
def fieldLength (field : Name × Json) : Nat :=
  quotedLength field.1 + 3 + (canonicalText field.2).length

theorem length_dumpsFieldsWith (fields : List (Name × Json)) :
    (dumpsFieldsWith escapeAscii fields).length =
      (fields.map fun field =>
        quotedLength field.1 + 3 + (dumpsWith escapeAscii field.2).length).sum + 1 := by
  induction fields with
  | nil => rfl
  | cons field fields ih =>
      rw [dumpsFieldsWith, List.map_cons, List.sum_cons, quotedLength, List.length_cons,
        List.length_cons, List.length_append, List.length_cons, List.length_append, ih]
      omega

/-- **The length of an object** is that of its fields and one brace, in whatever order. -/
theorem length_canonicalText_obj {fields : List (Name × Json)} (h : fields ≠ []) :
    (canonicalText (.obj fields)).length = (fields.map fieldLength).sum + 1 := by
  have hsum : (dumpsFieldsWith escapeAscii (frozen fields)).length =
      (fields.map fieldLength).sum + 1 := by
    rw [length_dumpsFieldsWith, ((frozen_perm fields).map _).sum_nat, List.map_map]
    rfl
  have hne : frozen fields ≠ [] := fun hnil => by
    have hperm := frozen_perm fields
    rw [hnil] at hperm
    exact h (List.map_eq_nil_iff.mp hperm.symm.eq_nil)
  rw [canonicalText, sorted_obj, ← hsum]
  cases hfields : frozen fields with
  | nil => exact absurd hfields hne
  | cons field rest => rfl

/-- A value is no longer than the object it is in. -/
theorem length_field_le {fields : List (Name × Json)} {field : Name × Json} (h : field ∈ fields) :
    (canonicalText field.2).length ≤ (canonicalText (.obj fields)).length := by
  have hne : fields ≠ [] := List.ne_nil_of_mem h
  have hle : fieldLength field ≤ (fields.map fieldLength).sum :=
    List.le_sum_of_mem (List.mem_map_of_mem h)
  have hfield : (canonicalText field.2).length ≤ fieldLength field := Nat.le_add_left _ _
  rw [length_canonicalText_obj hne]
  omega

end MaskGateway.Proofs.Runtime.Snapshot
