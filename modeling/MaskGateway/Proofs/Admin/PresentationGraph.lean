import MaskGateway.Admin.Presentation
import MaskGateway.Lib.Height
import MaskGateway.Masking.Engine

/-!
# `MaskGateway.Proofs.Admin.PresentationGraph`: which references `_graph` accepts

`visit` walks down from a definition with the set of its ancestors, and remembers the height of every
definition that it has finished. What it remembers is right (`visit_sound`): the height is the number
of nodes of a longest chain, whatever place the definition was first visited from. Where all
references are defined and no chain is too long, it refuses nothing (`visit_complete`).

`references_iff` is the whole, for any order of the definitions.
-/

set_option autoImplicit false

namespace MaskGateway.Proofs.Presentation

open MaskGateway.Lib
open MaskGateway.Admin.Presentation

/-- What `_need` lets pass. -/
@[simp] theorem need_eq_ok {condition : Bool} {u : Unit} :
    need condition = .ok u ↔ condition = true := by
  rw [need, refuseIf_eq_ok, Bool.not_eq_false]

/-- What a definition refers to, nothing where it is not defined. -/
def follow (edges : Edges) (key : Name) : List Name := (edges.lookup key).getD []

/-- The definition of this key is there. -/
def Present (edges : Edges) (key : Name) : Prop := (edges.lookup key).isSome = true

/-- Every reference is defined. -/
def Defined (edges : Edges) : Prop := ∀ key, ∀ ref ∈ follow edges key, Present edges ref

/-- No chain of references has more than `MAX_DEPTH` nodes. -/
def Bounded (edges : Edges) : Prop :=
  ∀ nodes, IsWalk (follow edges) nodes → nodes.length ≤ maxDepth

/-- What a visit finds out about a definition. -/
structure Visited (edges : Edges) (key : Name) (height : Nat) : Prop where
  present : Present edges key
  refs : ∀ ref ∈ follow edges key, Present edges ref
  isHeight : IsHeight (follow edges) key height
  le : height ≤ maxDepth

/-- What is remembered is right. -/
def Remembered (edges : Edges) (heights : Heights) : Prop :=
  ∀ key height, heights.lookup key = some height → Visited edges key height

section

variable {edges : Edges}

/-- Nothing is remembered at first. -/
theorem remembered_nil : Remembered edges [] := by
  intro key height h
  exact nomatch h

/-- What is remembered after a visit. -/
theorem Remembered.cons {heights : Heights} {key : Name} {height : Nat}
    (h : Remembered edges heights) (hvisited : Visited edges key height) :
    Remembered edges ((key, height) :: heights) := by
  intro key' height' hlookup
  rw [List.lookup_cons] at hlookup
  split at hlookup
  next heq =>
    obtain rfl := Option.some_inj.mp hlookup
    rw [beq_iff_eq] at heq
    exact heq ▸ hvisited
  next => exact h key' height' hlookup

/-- The loop of `visit` over the references, where a visit does what it should. -/
theorem loop_sound {room : Nat} {ancestors : List Name}
    (hvisit : ∀ {key : Name} {heights heights' : Heights} {height : Nat},
      visit edges room key ancestors heights = .ok (height, heights') → Remembered edges heights →
      Visited edges key height ∧ Remembered edges heights')
    {refs done : List Name} {best best' : Nat} {heights heights' : Heights}
    (h : refs.foldlM (fun (best, heights) ref => do
      let (height, heights) ← visit edges room ref ancestors heights
      return (max best height, heights)) (best, heights) = .ok (best', heights'))
    (hbest : IsBest (follow edges) done best) (hdone : ∀ ref ∈ done, Present edges ref)
    (hheights : Remembered edges heights) :
    IsBest (follow edges) (done ++ refs) best' ∧ (∀ ref ∈ done ++ refs, Present edges ref) ∧
      Remembered edges heights' := by
  induction refs generalizing done best heights with
  | nil =>
    simp only [List.foldlM_nil, pure_eq_ok, Prod.mk.injEq] at h
    obtain ⟨rfl, rfl⟩ := h
    rw [List.append_nil]
    exact ⟨hbest, hdone, hheights⟩
  | cons ref refs ih =>
    simp only [List.foldlM_cons, bind_eq_ok, pure_eq_ok] at h
    obtain ⟨-, ⟨⟨height, heights₁⟩, hstep, rfl⟩, hrest⟩ := h
    obtain ⟨hvisited, hheights₁⟩ := hvisit hstep hheights
    rw [← List.singleton_append, ← List.append_assoc]
    refine ih hrest (hbest.concat hvisited.isHeight) ?_ hheights₁
    intro other hother
    rcases List.mem_append.mp hother with hother | hother
    · exact hdone other hother
    · exact List.mem_singleton.mp hother ▸ hvisited.present

/-- What a visit finds out is right. -/
theorem visit_sound {room : Nat} {key : Name} {ancestors : List Name} {heights heights' : Heights}
    {height : Nat} (h : visit edges room key ancestors heights = .ok (height, heights'))
    (hheights : Remembered edges heights) :
    Visited edges key height ∧ Remembered edges heights' := by
  induction room generalizing key ancestors heights heights' height with
  | zero => cases h
  | succ room ih =>
    rw [visit] at h
    split at h
    · cases h
    next refs hrefs =>
      have hfollow : follow edges key = refs := by rw [follow, hrefs, Option.getD_some]
      split at h
      · cases h
      · split at h
        next hknown =>
          obtain ⟨rfl, rfl⟩ := Prod.mk.inj (Except.ok.inj h)
          exact ⟨hheights key _ hknown, hheights⟩
        next =>
          simp only [bind_eq_ok, pure_eq_ok] at h
          obtain ⟨⟨best, heights₁⟩, hloop, _, hneed, hresult⟩ := h
          obtain ⟨rfl, rfl⟩ := Prod.mk.inj hresult
          obtain ⟨hbest, hpresent, hheights₁⟩ :=
            loop_sound ih hloop isBest_nil (fun _ h => by cases h) hheights
          rw [List.nil_append] at hbest hpresent
          have hvisited : Visited edges key (best + 1) :=
            { present := by rw [Present, hrefs, Option.isSome_some]
              refs := hfollow ▸ hpresent
              isHeight := isHeight_succ (hfollow ▸ hbest)
              le := by simpa using hneed }
          exact ⟨hvisited, hheights₁.cons hvisited⟩

/-- The loop of `visit` over the references, where no visit is refused. -/
theorem loop_complete {room : Nat} {ancestors refs : List Name}
    (hvisit : ∀ ref ∈ refs, ∀ heights, Remembered edges heights →
      ∃ height heights', visit edges room ref ancestors heights = .ok (height, heights'))
    (best : Nat) {heights : Heights} (hheights : Remembered edges heights) :
    ∃ best' heights', refs.foldlM (fun (best, heights) ref => do
      let (height, heights) ← visit edges room ref ancestors heights
      return (max best height, heights)) (best, heights) = .ok (best', heights') := by
  induction refs generalizing best heights with
  | nil => exact ⟨best, heights, rfl⟩
  | cons ref refs ih =>
    obtain ⟨height, heights₁, hstep⟩ := hvisit ref List.mem_cons_self heights hheights
    obtain ⟨-, hheights₁⟩ := visit_sound hstep hheights
    obtain ⟨best', heights', hrest⟩ :=
      ih (fun ref h => hvisit ref (List.mem_cons_of_mem _ h)) (max best height) hheights₁
    refine ⟨best', heights', ?_⟩
    simp only [List.foldlM_cons, bind_eq_ok, pure_eq_ok]
    exact ⟨_, ⟨_, hstep, rfl⟩, hrest⟩

/-- Where all references are defined and chains are short, a visit along a chain is not refused. -/
theorem visit_complete (hdefined : Defined edges) (hacyclic : Acyclic (follow edges))
    (hbounded : Bounded edges) {room : Nat} {key : Name} {ancestors : List Name} {heights : Heights}
    (hroom : room + ancestors.length = maxDepth) (hpresent : Present edges key)
    (hwalk : IsWalk (follow edges) (ancestors.reverse ++ [key]))
    (hheights : Remembered edges heights) :
    ∃ height heights', visit edges room key ancestors heights = .ok (height, heights') := by
  induction room generalizing key ancestors heights with
  | zero =>
    have hlen := hbounded _ hwalk
    rw [List.length_append, List.length_reverse, List.length_singleton] at hlen
    omega
  | succ room ih =>
    obtain ⟨refs, hrefs⟩ := Option.isSome_iff_exists.mp hpresent
    have hfollow : follow edges key = refs := by rw [follow, hrefs, Option.getD_some]
    have hnew : key ∉ ancestors :=
      fun h => not_mem_of_walk hacyclic hwalk (List.mem_reverse.mpr h)
    simp only [visit, hrefs, if_neg hnew]
    split
    next height hknown => exact ⟨height, heights, rfl⟩
    next =>
      have hvisit : ∀ ref ∈ refs, ∀ heights, Remembered edges heights → ∃ height heights',
          visit edges room ref (key :: ancestors) heights = .ok (height, heights') := by
        intro ref href heights hheights
        refine ih (by rw [List.length_cons]; omega) (hdefined key ref (hfollow ▸ href)) ?_ hheights
        have hfollows : Follows (follow edges) key ref := by rwa [Follows, hfollow]
        have hlonger : (ancestors.reverse ++ key :: ref :: []).IsChain (Follows (follow edges)) :=
          List.isChain_append_cons_cons.mpr ⟨hwalk, hfollows, List.isChain_singleton ref⟩
        simpa using hlonger
      obtain ⟨best, heights', hloop⟩ := loop_complete hvisit 0 hheights
      obtain ⟨hbest, -, -⟩ := loop_sound (fun h hh => visit_sound h hh) hloop isBest_nil
        (fun _ h => by cases h) hheights
      rw [List.nil_append, ← hfollow] at hbest
      obtain ⟨rest, hlongest, hlen⟩ := (isHeight_succ hbest).reached
      have hle : best + 1 ≤ maxDepth := by
        have hbound := hbounded _ hlongest
        rwa [List.length_cons, hlen] at hbound
      refine ⟨best + 1, (key, best + 1) :: heights', ?_⟩
      simp only [bind_eq_ok, pure_eq_ok, need_eq_ok, decide_eq_true_eq]
      exact ⟨_, hloop, (), hle, rfl⟩

/-- The loop of `_graph` over the definitions, where it comes to its end. -/
theorem definitions_sound {definitions : Edges} {heights heights' : Heights}
    (h : definitions.foldlM (fun heights (key, _) => do
      let (_, heights) ← visit edges maxDepth key [] heights
      return heights) heights = .ok heights')
    (hheights : Remembered edges heights) :
    ∀ definition ∈ definitions, ∃ height, Visited edges definition.1 height := by
  induction definitions generalizing heights with
  | nil => simp
  | cons definition definitions ih =>
    simp only [List.foldlM_cons, bind_eq_ok, pure_eq_ok] at h
    obtain ⟨-, ⟨⟨height, heights₁⟩, hstep, rfl⟩, hrest⟩ := h
    obtain ⟨hvisited, hheights₁⟩ := visit_sound hstep hheights
    intro other hother
    rcases List.mem_cons.mp hother with rfl | hother
    · exact ⟨height, hvisited⟩
    · exact ih hrest hheights₁ other hother

/-- The loop of `_graph` over the definitions, where it refuses nothing. -/
theorem definitions_complete (hdefined : Defined edges) (hacyclic : Acyclic (follow edges))
    (hbounded : Bounded edges) {definitions : Edges}
    (hpresent : ∀ definition ∈ definitions, Present edges definition.1) {heights : Heights}
    (hheights : Remembered edges heights) :
    ∃ heights', definitions.foldlM (fun heights (key, _) => do
      let (_, heights) ← visit edges maxDepth key [] heights
      return heights) heights = .ok heights' := by
  induction definitions generalizing heights with
  | nil => exact ⟨heights, rfl⟩
  | cons definition definitions ih =>
    have hvisit : ∃ height heights',
        visit edges maxDepth definition.1 [] heights = .ok (height, heights') :=
      visit_complete hdefined hacyclic hbounded rfl (hpresent _ List.mem_cons_self)
        (List.isChain_singleton _) hheights
    obtain ⟨height, heights₁, hstep⟩ := hvisit
    obtain ⟨-, hheights₁⟩ := visit_sound hstep hheights
    obtain ⟨heights', hrest⟩ := ih (fun d h => hpresent d (List.mem_cons_of_mem _ h)) hheights₁
    refine ⟨heights', ?_⟩
    simp only [List.foldlM_cons, bind_eq_ok, pure_eq_ok]
    exact ⟨_, ⟨_, hstep, rfl⟩, hrest⟩

/-- A definition that is found is in the list. -/
theorem present_iff {key : Name} : Present edges key ↔ ∃ refs, (key, refs) ∈ edges := by
  rw [Present, List.lookup_isSome_iff]
  constructor
  · rintro ⟨definition, hmem, hkey⟩
    obtain rfl := beq_iff_eq.mp hkey
    exact ⟨definition.2, hmem⟩
  · rintro ⟨refs, hmem⟩
    exact ⟨(key, refs), hmem, beq_self_eq_true key⟩

/-- Something follows only a definition that is there. -/
theorem present_of_mem_follow {key ref : Name} (h : ref ∈ follow edges key) : Present edges key := by
  rw [follow] at h
  cases hlookup : edges.lookup key with
  | none =>
    rw [hlookup] at h
    cases h
  | some refs => rw [Present, hlookup, Option.isSome_some]

/-- What was visited everywhere has only short chains. -/
theorem bounded_of_visited (h : ∀ key, Present edges key → ∃ height, Visited edges key height) :
    Bounded edges := by
  intro nodes hwalk
  cases nodes with
  | nil => exact Nat.zero_le _
  | cons key rest =>
    cases rest with
    | nil => exact Nat.le_of_ble_eq_true rfl
    | cons next rest =>
      obtain ⟨height, hvisited⟩ := h key (present_of_mem_follow (List.isChain_cons_cons.mp hwalk).1)
      exact Nat.le_trans (hvisited.isHeight.bound _ hwalk) hvisited.le

/-- Where the references are accepted, every definition was visited. -/
theorem visited_of_references (h : references edges = .ok ()) {key : Name}
    (hpresent : Present edges key) : ∃ height, Visited edges key height := by
  simp only [references, bind_eq_ok] at h
  obtain ⟨heights, hloop, -⟩ := h
  obtain ⟨refs, hmem⟩ := present_iff.mp hpresent
  exact definitions_sound hloop remembered_nil _ hmem

/-- **The references are accepted exactly where they should be**: every one is defined, none leads
back, and no chain has more than `MAX_DEPTH` nodes. -/
theorem references_iff :
    references edges = .ok () ↔ Defined edges ∧ Acyclic (follow edges) ∧ Bounded edges := by
  constructor
  · intro h
    have hbounded := bounded_of_visited fun _ => visited_of_references h
    refine ⟨fun key ref href => ?_, acyclic_of_bounded hbounded, hbounded⟩
    obtain ⟨height, hkey⟩ := visited_of_references h (present_of_mem_follow href)
    exact hkey.refs ref href
  · rintro ⟨hdefined, hacyclic, hbounded⟩
    obtain ⟨heights, hloop⟩ := definitions_complete hdefined hacyclic hbounded
      (fun definition h => present_iff.mpr ⟨definition.2, h⟩) remembered_nil
    rw [references, hloop]
    rfl

/-- The order of definitions with different keys does not matter to what is found. -/
theorem lookup_perm {edges' : Edges} (hnodup : (edges.map (·.1)).Nodup) (hperm : edges.Perm edges')
    (key : Name) : edges.lookup key = edges'.lookup key := by
  have found : ∀ {edges : Edges}, (edges.map (·.1)).Nodup → ∀ refs,
      edges.lookup key = some refs ↔ (key, refs) ∈ edges := by
    intro edges hnodup refs
    induction edges with
    | nil => simp
    | cons definition edges ih =>
      rw [List.map_cons, List.nodup_cons] at hnodup
      rw [List.lookup_cons, List.mem_cons, ← ih hnodup.2]
      split
      next heq =>
        obtain rfl := beq_iff_eq.mp heq
        have hnew : edges.lookup definition.1 ≠ some refs := fun h =>
          hnodup.1 (List.mem_map.mpr ⟨_, (ih hnodup.2).mp h, rfl⟩)
        rw [Option.some_inj, Prod.ext_iff]
        simp [hnew, eq_comm]
      next hne =>
        have hother : (key, refs) ≠ definition := by
          rintro rfl
          simp at hne
        simp [hother]
  have hnodup' : (edges'.map (·.1)).Nodup := (hperm.map _).nodup_iff.mp hnodup
  rw [Option.ext_iff]
  intro refs
  rw [found hnodup, found hnodup', hperm.mem_iff]

/-- Nor does it matter to `_graph`. -/
theorem references_perm {edges' : Edges} (hnodup : (edges.map (·.1)).Nodup)
    (hperm : edges.Perm edges') : references edges = .ok () ↔ references edges' = .ok () := by
  have hlookup := lookup_perm hnodup hperm
  have hfollow : follow edges = follow edges' := funext fun key => by rw [follow, follow, hlookup]
  simp only [references_iff, Defined, Bounded, Present, hfollow, hlookup]

end

end MaskGateway.Proofs.Presentation
