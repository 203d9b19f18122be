import Mathlib

/-!
# `MaskGateway.Lib.Supply`: what was taken of something that comes in order, and what is left

A supply is taken from at its front and grows at its end. `Supply.all` is everything that has come
so far: taking does not change it (`all_take`), and what comes only continues it (`all_arrive`). So
what was taken in between is what came next (`next_of_taken`).
-/

set_option autoImplicit false

namespace MaskGateway.Lib

/-- A supply as far as it has come: what was taken of it, and what is left. -/
structure Supply (α : Type) where
  taken : List α
  left : List α

namespace Supply

variable {α : Type}

/-- More comes. -/
def arrive (supply : Supply α) (more : List α) : Supply α :=
  { supply with left := supply.left ++ more }

/-- Some of what is left is taken. -/
def take (supply : Supply α) (count : Nat) : Supply α :=
  ⟨supply.taken ++ supply.left.take count, supply.left.drop count⟩

/-- All that has come. -/
def all (supply : Supply α) : List α :=
  supply.taken ++ supply.left

@[simp] theorem taken_arrive (supply : Supply α) (more : List α) :
    (supply.arrive more).taken = supply.taken := rfl

@[simp] theorem taken_take (supply : Supply α) (count : Nat) :
    (supply.take count).taken = supply.taken ++ supply.left.take count := rfl

@[simp] theorem all_arrive (supply : Supply α) (more : List α) :
    (supply.arrive more).all = supply.all ++ more := by
  simp [all, arrive]

@[simp] theorem all_take (supply : Supply α) (count : Nat) : (supply.take count).all = supply.all := by
  simp [all, take]

/-- What was taken since then is what came next. -/
theorem next_of_taken {supply supply' : Supply α} {piece : List α}
    (h : supply'.taken = supply.taken ++ piece) :
    (supply'.all.drop supply.taken.length).take piece.length = piece := by
  rw [all, h, List.append_assoc, List.drop_left, List.take_left]

end Supply

end MaskGateway.Lib
