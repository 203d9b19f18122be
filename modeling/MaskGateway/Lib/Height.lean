import Mathlib

/-!
# `MaskGateway.Lib.Height`: how far one can go in a graph

A graph is given by the list of what follows each node. A walk is a list of nodes that follow each
other, and the height of a node is the number of nodes of a longest walk from it (`IsHeight`).

* `isHeight_succ`: the height of a node from the heights of what follows it.
* `acyclic_of_bounded`: where walks are bounded there is no way back.
* `not_mem_of_walk`: where there is no way back a walk does not come to a node twice.
-/

set_option autoImplicit false

namespace MaskGateway.Lib

variable {α : Type}

/-- `b` follows `a`. -/
def Follows (next : α → List α) (a b : α) : Prop := b ∈ next a

/-- The nodes follow each other. -/
abbrev IsWalk (next : α → List α) (nodes : List α) : Prop := nodes.IsChain (Follows next)

/-- No node can be reached from itself. -/
def Acyclic (next : α → List α) : Prop := ∀ a, ¬ Relation.TransGen (Follows next) a a

/-- A longest walk from a node has that many nodes. -/
structure IsHeight (next : α → List α) (a : α) (height : Nat) : Prop where
  bound : ∀ rest, IsWalk next (a :: rest) → rest.length + 1 ≤ height
  reached : ∃ rest, IsWalk next (a :: rest) ∧ rest.length + 1 = height

/-- The largest height of some nodes, zero where there are none. -/
structure IsBest (next : α → List α) (nodes : List α) (best : Nat) : Prop where
  bound : ∀ a ∈ nodes, ∃ height ≤ best, IsHeight next a height
  reached : best = 0 ∨ ∃ a ∈ nodes, IsHeight next a best

variable {next : α → List α} {a b : α} {best height : Nat} {nodes : List α}

/-- A height is positive. -/
theorem IsHeight.pos (h : IsHeight next a height) : 0 < height := by
  obtain ⟨rest, -, hlen⟩ := h.reached
  omega

/-- A node has one height. -/
theorem IsHeight.unique {height' : Nat} (h : IsHeight next a height)
    (h' : IsHeight next a height') : height = height' := by
  obtain ⟨rest, hwalk, hlen⟩ := h.reached
  obtain ⟨rest', hwalk', hlen'⟩ := h'.reached
  have hle := h'.bound rest hwalk
  have hge := h.bound rest' hwalk'
  omega

/-- What follows a node is lower. -/
theorem IsHeight.lt {height' : Nat} (h : IsHeight next a height) (h' : IsHeight next b height')
    (hab : Follows next a b) : height' < height := by
  obtain ⟨rest, hwalk, hlen⟩ := h'.reached
  have hbound := h.bound (b :: rest) (List.isChain_cons_cons.mpr ⟨hab, hwalk⟩)
  rw [List.length_cons] at hbound
  omega

/-- No nodes. -/
theorem isBest_nil : IsBest next [] 0 :=
  ⟨fun _ h => (nomatch h), .inl rfl⟩

/-- One node more. -/
theorem IsBest.concat (h : IsBest next nodes best) (ha : IsHeight next a height) :
    IsBest next (nodes ++ [a]) (max best height) := by
  constructor
  · intro b hb
    rcases List.mem_append.mp hb with hb | hb
    · obtain ⟨height', hle, hb⟩ := h.bound b hb
      exact ⟨height', by omega, hb⟩
    · obtain rfl := List.mem_singleton.mp hb
      exact ⟨height, by omega, ha⟩
  · by_cases hle : best ≤ height
    · rw [Nat.max_eq_right hle]
      exact .inr ⟨a, by simp, ha⟩
    · rw [Nat.max_eq_left (by omega)]
      rcases h.reached with hzero | ⟨b, hb, hbest⟩
      · exact .inl hzero
      · exact .inr ⟨b, by simp [hb], hbest⟩

/-- A node is one higher than the highest that follows it. -/
theorem isHeight_succ (h : IsBest next (next a) best) : IsHeight next a (best + 1) := by
  constructor
  · intro rest hwalk
    cases rest with
    | nil => simp
    | cons b rest =>
      obtain ⟨hab, hwalk⟩ := List.isChain_cons_cons.mp hwalk
      obtain ⟨height, hle, hheight⟩ := h.bound b hab
      have hbound := hheight.bound rest hwalk
      rw [List.length_cons]
      omega
  · rcases h.reached with hzero | ⟨b, hb, hheight⟩
    · exact ⟨[], List.isChain_singleton a, by simp [hzero]⟩
    · obtain ⟨rest, hwalk, hlen⟩ := hheight.reached
      exact ⟨b :: rest, List.isChain_cons_cons.mpr ⟨hb, hwalk⟩, by rw [List.length_cons, hlen]⟩

/-- From a node that can be reached again there are walks of any length. -/
theorem exists_walk_of_cycle (h : Relation.TransGen (Follows next) a a) (n : Nat) :
    ∃ rest, IsWalk next (a :: rest) ∧ n ≤ rest.length := by
  induction n with
  | zero => exact ⟨[], List.isChain_singleton a, Nat.zero_le _⟩
  | succ n ih =>
    obtain ⟨rest, hwalk, hlen⟩ := ih
    -- one way around, then the walk that was there
    have around : ∀ {b}, Relation.TransGen (Follows next) b a →
        ∃ rest', IsWalk next (b :: rest') ∧ n + 1 ≤ rest'.length := by
      intro b hb
      induction hb using Relation.TransGen.head_induction_on with
      | single hstep =>
        exact ⟨a :: rest, List.isChain_cons_cons.mpr ⟨hstep, hwalk⟩, by
          rw [List.length_cons]
          omega⟩
      | head hstep _ ih =>
        obtain ⟨rest', hwalk', hlen'⟩ := ih
        exact ⟨_ :: rest', List.isChain_cons_cons.mpr ⟨hstep, hwalk'⟩, by
          rw [List.length_cons]
          omega⟩
    exact around h

/-- Where walks are bounded there is no way back. -/
theorem acyclic_of_bounded {bound : Nat} (h : ∀ nodes, IsWalk next nodes → nodes.length ≤ bound) :
    Acyclic next := by
  intro a hcycle
  obtain ⟨rest, hwalk, hlen⟩ := exists_walk_of_cycle hcycle bound
  have hbound := h _ hwalk
  rw [List.length_cons] at hbound
  omega

/-- Where there is no way back a walk does not come to a node twice. -/
theorem not_mem_of_walk (hacyclic : Acyclic next) (hwalk : IsWalk next (nodes ++ [a])) :
    a ∉ nodes := by
  intro hmem
  have htrans : (nodes ++ [a]).IsChain (Relation.TransGen (Follows next)) :=
    hwalk.imp fun _ _ h => .single h
  have hpairwise := (List.isChain_iff_pairwise.mp htrans)
  exact hacyclic a ((List.pairwise_append.mp hpairwise).2.2 a hmem a (by simp))

end MaskGateway.Lib
