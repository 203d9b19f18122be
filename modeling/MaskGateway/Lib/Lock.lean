import Mathlib

/-!
# `MaskGateway.Lib.Lock`: exclusive locks and their holders

A lock is the name of its holder, if it has one. Each participant of a system knows by itself
whether it holds the lock; `Owns` says that the two agree. A participant keeps what it has, takes a
lock that is free, or gives the lock back (`Passes`), and each of these keeps the agreement.
-/

set_option autoImplicit false

namespace MaskGateway.Lib

variable {π : Type}

/-- Those who hold the lock are exactly its holder. -/
def Owns (lock : Option π) (holds : π → Bool) : Prop :=
  ∀ p, holds p = true ↔ lock = some p

/-- A lock has one holder. -/
theorem Owns.unique {lock : Option π} {holds : π → Bool} (h : Owns lock holds) {p q : π}
    (hp : holds p = true) (hq : holds q = true) : p = q := by
  have hlock := (h p).mp hp
  rw [(h q).mp hq] at hlock
  exact (Option.some.inj hlock).symm

section

variable [DecidableEq π]

/-- What one participant does with a lock, as it goes from `before` to `after`. -/
inductive Passes (p : π) (before after : Bool) (lock : Option π) : Option π → Prop
  | keep (h : after = before) : Passes p before after lock lock
  | take (hfree : lock = none) (hafter : after = true) : Passes p before after lock (some p)
  | give (hafter : after = false) :
      Passes p before after lock (if lock = some p then none else lock)

/-- Holder and lock agree after what one participant does. -/
theorem Owns.passes {lock lock' : Option π} {holds : π → Bool} {p : π} {after : Bool}
    (h : Owns lock holds) (hp : Passes p (holds p) after lock lock') :
    Owns lock' (Function.update holds p after) := by
  intro q
  cases hp with
  | keep hsame =>
      rw [hsame, Function.update_eq_self]
      exact h q
  | take hfree hafter =>
      by_cases hq : q = p
      · subst hq
        simp [hafter]
      · have hnot : ¬ holds q = true := by
          rw [h q, hfree]
          exact Option.some_ne_none q ∘ Eq.symm
        rw [Function.update_of_ne hq]
        exact iff_of_false hnot fun hsome => hq (Option.some.inj hsome).symm
  | give hafter =>
      by_cases hq : q = p
      · subst hq
        by_cases hlock : lock = some q <;> simp [hafter, hlock]
      · rw [Function.update_of_ne hq, h q]
        by_cases hlock : lock = some p
        · rw [if_pos hlock, hlock]
          exact iff_of_false (fun hsome => hq (Option.some.inj hsome).symm)
            (Option.some_ne_none q ∘ Eq.symm)
        · rw [if_neg hlock]

end

end MaskGateway.Lib
