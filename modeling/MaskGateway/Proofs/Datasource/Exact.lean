import MaskGateway.Proofs.Datasource.JsonText
import MaskGateway.Proofs.Datasource.Documents

/-!
# `MaskGateway.Proofs.Datasource.Exact`: when a value is the JSON form of what is read from it

The parsers take an object apart by its keys. Where an object has its keys in order and none twice,
its keys and the values under them determine it (`Ordered.eq_map`), so each part of a record that a
parser accepts is the JSON form of the result, except for what the parser does not compare: the
version of an envelope (`== 1`), the bits that a base64 text leaves over, and the policy, which is
validated and dumped anew (`recordExact`).
-/

set_option autoImplicit false

namespace MaskGateway.Proofs.Datasource

open MaskGateway.Datasource MaskGateway.Lib

variable {v : Validators} {floats : Floats}

/-! ### Objects with their keys in order -/

/-- A value whose keys are in order, none twice, at every depth. -/
def Ordered (floats : Floats) (value : Json) : Prop :=
  Proper floats value ∧ value.sorted = value

/-- A list with distinct keys is determined by its keys and what stands under them. -/
theorem eq_map_lookup {fields : List (Name × Json)} (hnodup : (fields.map Prod.fst).Nodup) :
    fields = (fields.map Prod.fst).map fun key => (key, (fields.lookup key).getD .null) := by
  induction fields with
  | nil => rfl
  | cons field fields ih =>
      rw [List.map_cons, List.nodup_cons] at hnodup
      have hrest : ∀ key ∈ fields.map Prod.fst,
          (key, ((field :: fields).lookup key).getD .null) =
            (key, (fields.lookup key).getD .null) := by
        intro key hkey
        have hne : (key == field.1) = false := by
          rw [beq_eq_false_iff_ne]
          rintro rfl
          exact hnodup.1 hkey
        rw [List.lookup_cons, hne]
      rw [List.map_cons, List.map_cons, List.lookup_cons_self, Option.getD_some,
        List.map_congr_left hrest, ← ih hnodup.2]

theorem sortedFields_eq_self_iff {fields : List (Name × Json)} :
    Json.sortedFields fields = fields ↔ ∀ field ∈ fields, field.2.sorted = field.2 := by
  induction fields with
  | nil => simp [Json.sortedFields]
  | cons field fields ih =>
      rw [Json.sortedFields, List.cons.injEq, ih, List.forall_mem_cons, Prod.mk.injEq]
      simp

theorem sortedItems_eq_self_iff {items : List Json} :
    Json.sortedItems items = items ↔ ∀ item ∈ items, item.sorted = item := by
  induction items with
  | nil => simp [Json.sortedItems]
  | cons item items ih => simp [Json.sortedItems, ih]

theorem properItems_iff {items : List Json} :
    ProperItems floats items ↔ ∀ item ∈ items, Proper floats item := by
  induction items with
  | nil => simp [ProperItems]
  | cons item items ih => simp [ProperItems, ih]

/-- An object has its keys sorted when they are in order and its values have theirs sorted. -/
theorem sorted_obj_iff {fields : List (Name × Json)} :
    (Json.obj fields).sorted = .obj fields ↔
      (fields.map Prod.fst).Pairwise (· ≤ ·) ∧ ∀ field ∈ fields, field.2.sorted = field.2 := by
  have htotal : Std.Total fun a b : Name × Json => a.1 ≤ b.1 := ⟨fun a b => le_total a.1 b.1⟩
  have htrans : IsTrans (Name × Json) fun a b => a.1 ≤ b.1 := ⟨fun _ _ _ hab hbc => le_trans hab hbc⟩
  have hpairwise : ∀ fields : List (Name × Json), (fields.map Prod.fst).Pairwise (· ≤ ·) ↔
      fields.Pairwise fun a b => a.1 ≤ b.1 := fun fields => List.pairwise_map
  rw [Json.sorted, Json.obj.injEq]
  constructor
  · intro heq
    have hkeys : (fields.map Prod.fst).Pairwise (· ≤ ·) := by
      rw [← heq, hpairwise]
      exact List.pairwise_insertionSort _ _
    refine ⟨hkeys, sortedFields_eq_self_iff.mp ?_⟩
    -- the keys are in order already, so sorting moves no field
    have hself := (hpairwise (Json.sortedFields fields)).mp (by rwa [keys_sortedFields])
    rwa [hself.insertionSort_eq] at heq
  · rintro ⟨hkeys, hvalues⟩
    rw [sortedFields_eq_self_iff.mpr hvalues]
    exact ((hpairwise fields).mp hkeys).insertionSort_eq

/-- The keys that the parsers expect are in order, none twice. -/
def KeyOrder (expected : List String) : Prop :=
  (expected.map String.toList).Pairwise (· ≤ ·) ∧ (expected.map String.toList).Nodup

instance (expected : List String) : Decidable (KeyOrder expected) :=
  inferInstanceAs (Decidable (_ ∧ _))

/-- The keys of an ordered object are the expected ones, in their order. -/
theorem keys_of_hasKeys {fields : List (Name × Json)} {expected : List String}
    (h : Ordered floats (.obj fields)) (hkeys : hasKeys fields expected = true)
    (horder : KeyOrder expected) : fields.map Prod.fst = expected.map String.toList := by
  have hanti : Std.Antisymm fun a b : Name => a ≤ b := ⟨fun _ _ => le_antisymm⟩
  refine List.Perm.eq_of_pairwise' (sorted_obj_iff.mp h.2).1 horder.1 ?_
  rw [List.perm_ext_iff_of_nodup h.1.1 horder.2]
  intro key
  simp only [hasKeys, Bool.and_eq_true, List.all_eq_true, List.contains_iff_mem] at hkeys
  refine ⟨hkeys.1 key, fun hkey => ?_⟩
  obtain ⟨text, htext, rfl⟩ := List.mem_map.mp hkey
  exact hkeys.2 text htext

/-- **An ordered object is its members under the expected keys.** -/
theorem Ordered.eq_map {fields : List (Name × Json)} {expected : List String}
    (h : Ordered floats (.obj fields)) (hkeys : hasKeys fields expected = true)
    (horder : KeyOrder expected) :
    fields = expected.map fun key => (key.toList, member fields key) := by
  have heq := eq_map_lookup h.1.1
  rw [keys_of_hasKeys h hkeys horder, List.map_map] at heq
  exact heq

/-- The members of an ordered object are ordered. -/
theorem Ordered.member {fields : List (Name × Json)} (h : Ordered floats (.obj fields))
    (key : String) : Ordered floats (member fields key) := by
  rw [Datasource.member]
  cases hlookup : fields.lookup key.toList with
  | none => exact ⟨trivial, rfl⟩
  | some value =>
      obtain ⟨l₁, l₂, heq, -⟩ := List.lookup_eq_some_iff.mp hlookup
      have hmem : (key.toList, value) ∈ fields := by simp [heq]
      exact ⟨properFields_iff.mp h.1.2 _ hmem, (sorted_obj_iff.mp h.2).2 _ hmem⟩

/-- The items of an ordered array are ordered. -/
theorem Ordered.item {items : List Json} (h : Ordered floats (.arr items)) {item : Json}
    (hitem : item ∈ items) : Ordered floats item :=
  ⟨properItems_iff.mp h.1 item hitem,
    sortedItems_eq_self_iff.mp (Json.arr.inj h.2) item hitem⟩

@[simp] theorem ordered_optionalText (value : Option Name) :
    Ordered floats (optionalText value) := by
  cases value <;> exact ⟨trivial, rfl⟩

/-- The value under a key of an object. -/
def field (value : Json) (key : String) : Json :=
  match value with
  | .obj fields => member fields key
  | _ => .null

end MaskGateway.Proofs.Datasource
