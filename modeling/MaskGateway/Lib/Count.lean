import Mathlib

/-!
# `MaskGateway.Lib.Count`: counters beside the objects they count

A component that counts its objects keeps a number, or a table of numbers, beside a list of the
objects. The lemmas say how a count over the list moves when one object is made, changed or taken
out, over the integers: a counter in the code can go below zero, and that it does not is a result.
A table is a function that counts zero for what was never counted.
-/

set_option autoImplicit false

namespace MaskGateway.Lib

variable {α κ : Type}

/-- One or zero. -/
def unit (b : Bool) : Int := if b then 1 else 0

@[simp] theorem unit_true : unit true = 1 := rfl

@[simp] theorem unit_false : unit false = 0 := rfl

/-- A unit is zero or one. -/
theorem unit_bounds (b : Bool) : 0 ≤ unit b ∧ unit b ≤ 1 := by
  cases b <;> decide

/-- A new object is counted if it qualifies. -/
theorem countP_concat (p : α → Bool) (l : List α) (a : α) :
    ((l ++ [a]).countP p : Int) = l.countP p + unit (p a) := by
  rw [List.countP_append, List.countP_singleton]
  cases p a <;> simp

/-- An object that changes leaves the count and enters it as what it became. -/
theorem countP_set_of_getElem? (p : α → Bool) {l : List α} {i : Nat} {a : α} (b : α)
    (h : l[i]? = some a) :
    ((l.set i b).countP p : Int) = l.countP p - unit (p a) + unit (p b) := by
  obtain ⟨hi, ha⟩ := List.getElem?_eq_some_iff.mp h
  rw [List.countP_set hi, ha]
  -- the subtraction of the library is truncated, so `a` has to be in the count
  have hpos : p a = true → 0 < l.countP p := by
    intro hp
    exact List.countP_pos_iff.mpr ⟨a, List.mem_of_getElem? h, hp⟩
  cases hp : p a with
  | true =>
      have := hpos hp
      cases p b <;> simp <;> omega
  | false => cases p b <;> simp

/-- An object that is in the list leaves the count. -/
theorem countP_erase_of_mem [DecidableEq α] (p : α → Bool) {l : List α} {a : α} (h : a ∈ l) :
    ((l.erase a).countP p : Int) = l.countP p - unit (p a) := by
  have hperm := (List.perm_cons_erase h).countP_eq p
  rw [List.countP_cons] at hperm
  cases hp : p a <;> simp [hp] at hperm ⊢ <;> omega

/-- A predicate that changes for one object of a list without repetitions moves the count by that
object. -/
theorem countP_update [DecidableEq α] (p : α → Bool) {l : List α} {a : α} (hl : l.Nodup)
    (h : a ∈ l) (b : Bool) :
    (l.countP (Function.update p a b) : Int) = l.countP p - unit (p a) + unit b := by
  have hperm := List.perm_cons_erase h
  have hrest : (l.erase a).countP (Function.update p a b) = (l.erase a).countP p := by
    refine List.countP_congr fun c hc => ?_
    rw [Function.update_of_ne ((hl.mem_erase_iff).mp hc).1]
  rw [hperm.countP_eq p, hperm.countP_eq (Function.update p a b), List.countP_cons,
    List.countP_cons, hrest, Function.update_self]
  cases p a <;> cases b <;> simp

/-- An object that qualifies is in the count. -/
theorem one_le_countP (p : α → Bool) {l : List α} {i : Nat} {a : α} (h : l[i]? = some a)
    (hp : p a = true) : (1 : Int) ≤ l.countP p := by
  have := List.countP_pos_iff.mpr ⟨a, List.mem_of_getElem? h, hp⟩
  omega

/-! ### Tables of counters -/

variable [DecidableEq κ]

/-- At most one element qualifies when none does after one that does. -/
theorem countP_le_one {p : α → Bool} {l : List α}
    (h : ∀ before a after, l = before ++ a :: after → p a = true → ∀ b ∈ after, p b = false) :
    l.countP p ≤ 1 := by
  induction l with
  | nil => simp
  | cons a l ih =>
      have hrest := ih fun before b after heq =>
        h (a :: before) b after (congrArg (List.cons a) heq)
      cases hp : p a with
      | false => simpa [hp] using hrest
      | true =>
          have hnone : l.countP p = 0 := by
            rw [List.countP_eq_zero]
            intro b hb
            simp [h [] a l rfl hp b hb]
          simp [hp, hnone]

/-- Count one more under a key. -/
def increment (counter : κ → Int) (key : κ) : κ → Int :=
  Function.update counter key (counter key + 1)

/-- Count one less under a key; an entry that is not positive is taken out. -/
def decrement (counter : κ → Int) (key : κ) : κ → Int :=
  Function.update counter key (if counter key - 1 ≤ 0 then 0 else counter key - 1)

/-- The table after one more. -/
theorem increment_apply (counter : κ → Int) (key k : κ) :
    increment counter key k = counter k + unit (decide (k = key)) := by
  rw [increment, Function.update_apply]
  by_cases h : k = key
  · simp [h]
  · simp [h]

/-- The table after one less, where there was one. -/
theorem decrement_apply {counter : κ → Int} {key : κ} (h : 1 ≤ counter key) (k : κ) :
    decrement counter key k = counter k - unit (decide (k = key)) := by
  rw [decrement, Function.update_apply]
  by_cases hk : k = key
  · subst hk
    simp only [if_true, decide_true, unit_true]
    split <;> omega
  · simp [hk]

end MaskGateway.Lib
