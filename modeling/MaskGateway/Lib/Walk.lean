import Mathlib

/-!
# `MaskGateway.Lib.Walk`: the breadth-first walk of a finite tree

A visitor takes the next node from a queue, looks at it, and puts its children at the end of
the queue. This file has that loop over any type of nodes with a `children` function and a
`size` that bounds the work left (`Sized`), and says what it visits:

    m ∈ walk t fuel queue ↔ ∃ r ∈ queue, Below t r m

whenever the fuel covers the sizes of the queue (`mem_walk_iff`). `Below` is the reflexive and
transitive closure of "is a child of", so the right side no longer mentions the queue, its
order or the fuel. A visitor that stops below some nodes is the walk of the pruned tree
(`Sized.prune`).
-/

set_option autoImplicit false

namespace MaskGateway.Lib

/-- A tree given by its children, with a size that grows by at least one from the children
together to their parent. -/
structure Sized (α : Type) where
  /-- The children of a node, in the order in which they are queued. -/
  children : α → List α
  /-- What a node costs, itself included. -/
  size : α → Nat
  /-- A node costs more than its children together. -/
  children_lt : ∀ a, ((children a).map size).sum < size a

/-- The tree cut below the nodes where `stop` holds: they are visited, their children are not. -/
def Sized.prune {α : Type} (t : Sized α) (stop : α → Bool) : Sized α where
  children a := if stop a then [] else t.children a
  size := t.size
  children_lt a := by
    have h := t.children_lt a
    cases stop a with
    | true => simpa using Nat.zero_lt_of_lt h
    | false => simpa using h

/-- The loop of the visitor: the nodes in the order of the visits. -/
def walk {α : Type} (t : Sized α) : Nat → List α → List α
  | 0, _ => []
  | _ + 1, [] => []
  | fuel + 1, a :: rest => a :: walk t fuel (rest ++ t.children a)

/-- A whole walk from one root. -/
def Sized.nodes {α : Type} (t : Sized α) (root : α) : List α :=
  walk t (t.size root) [root]

/-- `m` is `a` itself or lies below it. -/
def Below {α : Type} (t : Sized α) (a m : α) : Prop :=
  Relation.ReflTransGen (fun x y => y ∈ t.children x) a m

variable {α : Type} {t : Sized α}

@[refl] theorem Below.refl (a : α) : Below t a a := Relation.ReflTransGen.refl

/-- A child lies below its parent. -/
theorem Below.child {a b : α} (h : b ∈ t.children a) : Below t a b :=
  Relation.ReflTransGen.single h

/-- Below is transitive. -/
theorem Below.trans {a b c : α} (hab : Below t a b) (hbc : Below t b c) : Below t a c :=
  Relation.ReflTransGen.trans hab hbc

/-- A node below `a` is `a` or lies below one of its children. -/
theorem below_iff {a m : α} : Below t a m ↔ m = a ∨ ∃ b ∈ t.children a, Below t b m := by
  constructor
  · intro h
    rcases Relation.ReflTransGen.cases_head h with h | ⟨b, hb, h⟩
    · exact Or.inl h.symm
    · exact Or.inr ⟨b, hb, h⟩
  · rintro (rfl | ⟨b, hb, h⟩)
    · exact Below.refl _
    · exact (Below.child hb).trans h

/-- A map that takes children to children takes what lies below to what lies below. -/
theorem Below.map {β : Type} {u : Sized β} (f : α → β)
    (hf : ∀ a, ∀ b ∈ t.children a, f b ∈ u.children (f a)) {a m : α} (h : Below t a m) :
    Below u (f a) (f m) := by
  induction h with
  | refl => exact Below.refl _
  | @tail x y _ hy ih => exact ih.trans (Below.child (hf x y hy))

/-- What lies below in the pruned tree lies below in the whole tree. -/
theorem Below.of_prune {stop : α → Bool} {a m : α} (h : Below (t.prune stop) a m) :
    Below t a m := by
  refine h.map id ?_
  intro x y hy
  cases hx : stop x with
  | true => simp [Sized.prune, hx] at hy
  | false => simpa [Sized.prune, hx] using hy

/-- **What the walk visits.** With fuel for the sizes in the queue, exactly the nodes below
one of the queued ones. -/
theorem mem_walk_iff (m : α) : ∀ (fuel : Nat) (queue : List α),
    (queue.map t.size).sum ≤ fuel → (m ∈ walk t fuel queue ↔ ∃ r ∈ queue, Below t r m) := by
  intro fuel
  induction fuel with
  | zero =>
      intro queue hfuel
      cases queue with
      | nil => simp [walk]
      | cons a rest =>
          -- a node costs at least one, so no fuel means an empty queue
          have ha := t.children_lt a
          simp only [List.map_cons, List.sum_cons] at hfuel
          omega
  | succ fuel ih =>
      intro queue hfuel
      cases queue with
      | nil => simp [walk]
      | cons a rest =>
          have ha := t.children_lt a
          have hrest : ((rest ++ t.children a).map t.size).sum ≤ fuel := by
            simp only [List.map_cons, List.sum_cons] at hfuel
            rw [List.map_append, List.sum_append]
            omega
          rw [walk, List.mem_cons, ih _ hrest]
          simp only [List.mem_append, List.mem_cons, or_and_right, exists_or, exists_eq_left,
            below_iff (a := a) (m := m)]
          rw [or_comm (a := ∃ r, r ∈ rest ∧ Below t r m), or_assoc]

/-- A whole walk visits exactly the nodes below its root. -/
@[simp] theorem mem_nodes_iff (root m : α) : m ∈ t.nodes root ↔ Below t root m := by
  rw [Sized.nodes, mem_walk_iff m _ _ (by simp)]
  simp

end MaskGateway.Lib
