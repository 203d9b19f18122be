import Mathlib

/-!
# `MaskGateway.Lib.Fields`: fields that end in a separator

A sequence of fields, none of which holds the separator, is written by putting the separator
after each field. The reader that cuts off the last separator and splits at the others is its
inverse: `eq_terminated_iff`, for sequences with at least one field.
-/

set_option autoImplicit false

namespace MaskGateway.Lib

variable {α : Type} {sep : α}

/-- The fields, each with its separator. -/
def terminated (sep : α) (fields : List (List α)) : List α :=
  fields.flatMap fun field => field ++ [sep]

/-- The parts of a split do not hold the separator. -/
theorem not_mem_of_mem_splitOn [DecidableEq α] {l field : List α} (h : field ∈ l.splitOn sep) : sep ∉ field := by
  induction l generalizing field with
  | nil =>
      rw [List.splitOn_nil, List.mem_singleton] at h
      rw [h]
      exact List.not_mem_nil
  | cons a l ih =>
      rw [List.splitOn_cons_eq_if_modifyHead] at h
      obtain ⟨first, rest, hsplit⟩ := List.exists_cons_of_ne_nil (List.splitOn_ne_nil sep l)
      rw [hsplit] at h ih
      by_cases ha : (a == sep) = true
      · rw [if_pos ha] at h
        cases h with
        | head => exact List.not_mem_nil
        | tail _ h => exact ih h
      · rw [if_neg ha] at h
        cases h with
        | head =>
            have hne : a ≠ sep := fun heq => ha (beq_iff_eq.mpr heq)
            have hfirst : sep ∉ first := ih List.mem_cons_self
            simp [hne.symm, hfirst]
        | tail _ h => exact ih (List.mem_cons_of_mem _ h)

/-- The last separator stands after the others, which stand between the fields. -/
theorem terminated_eq {fields : List (List α)} (h : fields ≠ []) :
    terminated sep fields = [sep].intercalate fields ++ [sep] := by
  induction fields with
  | nil => exact (h rfl).elim
  | cons field fields ih =>
      cases fields with
      | nil => simp [terminated, List.intercalate]
      | cons second rest =>
          have hrest := ih (List.cons_ne_nil second rest)
          have hstep : terminated sep (field :: second :: rest) =
              field ++ [sep] ++ terminated sep (second :: rest) := by simp [terminated]
          rw [hstep, hrest, List.intercalate_cons_of_ne_nil (List.cons_ne_nil second rest)]
          simp only [List.append_assoc]

/-- **Splitting inverts writing.** -/
theorem eq_terminated_iff [DecidableEq α] {l : List α} {fields : List (List α)} (hne : fields ≠ []) :
    (l ++ [sep] = terminated sep fields ∧ ∀ field ∈ fields, sep ∉ field) ↔
      l.splitOn sep = fields := by
  rw [terminated_eq hne, List.append_left_inj]
  constructor
  · rintro ⟨rfl, hfields⟩
    exact List.splitOn_intercalate sep hfields hne
  · rintro rfl
    exact ⟨(List.intercalate_splitOn sep).symm, fun _ => not_mem_of_mem_splitOn⟩

end MaskGateway.Lib
