import Mathlib

/-!
# `MaskGateway.Lib.Keyed`: lists of items that carry a key

A list whose items are edited by key and by position: insert at a place, replace or remove the item
of a key, put the items in the order of a list of keys. `Inserted`, `Replaced` and `Removed` say what
such an edit does and that it does nothing else; `exists_ordered` says that the keys of a list, in any
order, name a rearrangement of its items.
-/

set_option autoImplicit false

namespace MaskGateway.Lib

variable {α κ : Type}

/-- What a related list holds is related to something that the first one holds. -/
theorem exists_of_mem_forall₂ {β : Type} {r : α → β → Prop} {l : List α} {l' : List β} {b : β}
    (h : List.Forall₂ r l l') (hb : b ∈ l') : ∃ a ∈ l, r a b := by
  induction h with
  | nil => cases hb
  | cons hhead _ ih =>
      rcases List.mem_cons.mp hb with rfl | hmem
      · exact ⟨_, List.mem_cons_self, hhead⟩
      · obtain ⟨a, ha, hr⟩ := ih hmem
        exact ⟨a, List.mem_cons_of_mem _ ha, hr⟩

/-! ### Edits -/

/-- One item came in, at a place. -/
def Inserted (index : Nat) (new : α) (items result : List α) : Prop :=
  ∃ before after, items = before ++ after ∧ before.length = index ∧ result = before ++ new :: after

/-- The one item of a key was replaced by another of the same key, at the same place. -/
def Replaced (key : α → κ) (k : κ) (new : α) (items result : List α) : Prop :=
  ∃ before old after, items = before ++ old :: after ∧ key old = k ∧ key new = k ∧
    (∀ other ∈ before ++ after, key other ≠ k) ∧ result = before ++ new :: after

/-- The one item of a key was removed. -/
def Removed (key : α → κ) (k : κ) (items result : List α) : Prop :=
  ∃ before old after, items = before ++ old :: after ∧ key old = k ∧
    (∀ other ∈ before ++ after, key other ≠ k) ∧ result = before ++ after

/-- What came of an insertion is the new item, or was there. -/
theorem Inserted.mem {index : Nat} {new item : α} {items result : List α}
    (h : Inserted index new items result) (hitem : item ∈ result) : item = new ∨ item ∈ items := by
  obtain ⟨before, after, rfl, -, rfl⟩ := h
  rw [List.mem_append, List.mem_cons] at hitem
  rw [List.mem_append]
  rcases hitem with hbefore | rfl | hafter
  · exact Or.inr (Or.inl hbefore)
  · exact Or.inl rfl
  · exact Or.inr (Or.inr hafter)

/-- What came of a replacement has the key of an item that was there. -/
theorem Replaced.mem {key : α → κ} {k : κ} {new item : α} {items result : List α}
    (h : Replaced key k new items result) (hitem : item ∈ result) :
    ∃ old ∈ items, key item = key old := by
  obtain ⟨before, old, after, rfl, hold, hnew, -, rfl⟩ := h
  simp only [List.mem_append, List.mem_cons] at hitem ⊢
  rcases hitem with hbefore | rfl | hafter
  · exact ⟨item, Or.inl hbefore, rfl⟩
  · exact ⟨old, Or.inr (Or.inl rfl), hnew.trans hold.symm⟩
  · exact ⟨item, Or.inr (Or.inr hafter), rfl⟩

/-- What is left of a removal was there. -/
theorem Removed.mem {key : α → κ} {k : κ} {item : α} {items result : List α}
    (h : Removed key k items result) (hitem : item ∈ result) : item ∈ items := by
  obtain ⟨before, old, after, rfl, -, -, rfl⟩ := h
  rw [List.mem_append] at hitem
  rw [List.mem_append, List.mem_cons]
  exact hitem.imp_right Or.inr

theorem inserted_insertIdx {index : Nat} {items : List α} (new : α) (h : index ≤ items.length) :
    Inserted index new items (items.insertIdx index new) := by
  refine ⟨items.take index, items.drop index, (List.take_append_drop index items).symm,
    List.length_take_of_le h, ?_⟩
  induction index generalizing items with
  | zero => rfl
  | succ index ih =>
      cases items with
      | nil => exact absurd h (Nat.not_succ_le_zero index)
      | cons item rest =>
          rw [List.insertIdx_succ_cons, ih (Nat.le_of_succ_le_succ h)]
          rfl

/-- The other items of a list whose keys are distinct have other keys. -/
theorem others_of_nodup {key : α → κ} {before after : List α} {item : α}
    (hnodup : ((before ++ item :: after).map key).Nodup) :
    ∀ other ∈ before ++ after, key other ≠ key item := by
  have hperm : (item :: (before ++ after)).Perm (before ++ item :: after) :=
    List.perm_middle.symm
  have hnodup' := (hperm.map key).nodup_iff.mpr hnodup
  rw [List.map_cons, List.nodup_cons] at hnodup'
  intro other hother hsame
  exact hnodup'.1 (hsame ▸ List.mem_map_of_mem hother)

section

variable [DecidableEq κ] (key : α → κ)

/-- The first place of a key. -/
def placeOf (items : List α) (k : κ) : Option Nat := items.findIdx? fun item => decide (key item = k)

variable {key}

/-- The place of a key splits the list. -/
theorem placeOf_eq_some {items : List α} {k : κ} {index : Nat}
    (h : placeOf key items k = some index) :
    ∃ before item after, items = before ++ item :: after ∧ before.length = index ∧ key item = k := by
  rw [placeOf, List.findIdx?_eq_some_iff_getElem] at h
  obtain ⟨hlt, hkey, -⟩ := h
  refine ⟨items.take index, items[index], items.drop (index + 1), ?_,
    List.length_take_of_le (Nat.le_of_lt hlt), by simpa using hkey⟩
  rw [List.getElem_cons_drop, List.take_append_drop]

theorem placeOf_eq_none {items : List α} {k : κ} (h : placeOf key items k = none) :
    k ∉ items.map key := by
  rw [placeOf, List.findIdx?_eq_none_iff] at h
  rintro hmem
  obtain ⟨item, hitem, rfl⟩ := List.mem_map.mp hmem
  exact absurd (h item hitem) (by simp)

theorem replaced_set {items : List α} {k : κ} {index : Nat} {new : α}
    (hnodup : (items.map key).Nodup) (h : placeOf key items k = some index) (hnew : key new = k) :
    Replaced key k new items (items.set index new) := by
  obtain ⟨before, item, after, rfl, rfl, rfl⟩ := placeOf_eq_some h
  refine ⟨before, item, after, rfl, rfl, hnew, others_of_nodup hnodup, ?_⟩
  rw [List.set_append_right _ _ (Nat.le_refl _), Nat.sub_self, List.set_cons_zero]

theorem removed_eraseIdx {items : List α} {k : κ} {index : Nat} (hnodup : (items.map key).Nodup)
    (h : placeOf key items k = some index) : Removed key k items (items.eraseIdx index) := by
  obtain ⟨before, item, after, rfl, rfl, rfl⟩ := placeOf_eq_some h
  refine ⟨before, item, after, rfl, rfl, others_of_nodup hnodup, ?_⟩
  rw [List.eraseIdx_append_of_length_le (Nat.le_refl _), Nat.sub_self, List.eraseIdx_cons_zero]

/-! ### Order by keys -/

variable (key) in
/-- The item that a table of the items holds for a key: the last one that came in. -/
def itemOf (items : List α) (k : κ) : Option α := items.reverse.find? fun item => decide (key item = k)

theorem itemOf_of_mem {items : List α} {item : α} (hnodup : (items.map key).Nodup)
    (hmem : item ∈ items) : itemOf key items (key item) = some item := by
  rw [itemOf]
  cases hfind : items.reverse.find? fun other => decide (key other = key item) with
  | none =>
      have := List.find?_eq_none.mp hfind item (List.mem_reverse.mpr hmem)
      exact absurd (decide_eq_true rfl) this
  | some found =>
      have hfound := List.mem_reverse.mp (List.mem_of_find?_eq_some hfind)
      have hkey : key found = key item := by simpa using List.find?_some hfind
      exact congrArg some (List.inj_on_of_nodup_map hnodup hfound hmem hkey)

/-- A list of items is what its keys name. -/
theorem mapM_itemOf {items picked : List α} (hnodup : (items.map key).Nodup)
    (hpicked : ∀ item ∈ picked, item ∈ items) :
    (picked.map key).mapM (itemOf key items) = some picked := by
  induction picked with
  | nil => rfl
  | cons item rest ih =>
      rw [List.map_cons, List.mapM_cons, itemOf_of_mem hnodup (hpicked item List.mem_cons_self),
        ih fun other hother => hpicked other (List.mem_cons_of_mem _ hother)]
      rfl

/-- **The keys of a list in another order** are the keys of its items in another order. -/
theorem exists_ordered {items : List α} {keys : List κ} (h : keys.Perm (items.map key)) :
    ∃ picked : List α, picked.Perm items ∧ picked.map key = keys := by
  generalize hmapped : items.map key = mapped at h
  induction h generalizing items with
  | nil => exact ⟨[], by rw [List.map_eq_nil_iff.mp hmapped], rfl⟩
  | cons k _ ih =>
      obtain ⟨item, rest, rfl, rfl, hrest⟩ := List.map_eq_cons_iff.mp hmapped
      obtain ⟨picked, hperm, hkeys⟩ := ih hrest
      exact ⟨item :: picked, hperm.cons item, by rw [List.map_cons, hkeys]⟩
  | swap k₁ k₂ l =>
      obtain ⟨item₁, rest₁, rfl, rfl, hrest₁⟩ := List.map_eq_cons_iff.mp hmapped
      obtain ⟨item₂, rest, rfl, rfl, hrest⟩ := List.map_eq_cons_iff.mp hrest₁
      exact ⟨item₂ :: item₁ :: rest, .swap .., by rw [List.map_cons, List.map_cons, hrest]⟩
  | trans _ _ ih₁ ih₂ =>
      obtain ⟨picked₂, hperm₂, hkeys₂⟩ := ih₂ hmapped
      obtain ⟨picked₁, hperm₁, hkeys₁⟩ := ih₁ hkeys₂
      exact ⟨picked₁, hperm₁.trans hperm₂, hkeys₁⟩

end

end MaskGateway.Lib
