import MaskGateway.Proofs.Sql.Ambiguity

/-!
# `MaskGateway.Proofs.Sql.Rearranged`: statements up to the order of FROM items and branches

`Rearranged` relates two statements that differ only in the order of FROM items and of
set-operation branches, in any select at any depth. What the analysis reads of a statement apart
from its order is the same for both (`Matches`): the names that a position mentions, the
relations, the exported names and, up to rearrangement again, the inner selects.

The order is lost at one place only, the map of exported names, so a statement that draws on no
collision has the same outcome in every arrangement (`outcome_of_rearranged`).
-/

set_option autoImplicit false

namespace MaskGateway.Proofs.Sql

open MaskGateway.Sql MaskGateway.Masking MaskGateway.Lib

/-! ### Rearranging a statement -/

/-- The node with each of its children replaced. -/
def mapChildren (f : Node → Node) : Node → Node
  | .columnRef fields => .columnRef fields
  | .funcCall funcname args => .funcCall funcname (args.map f)
  | .typeCast arg => .typeCast (f arg)
  | .subLink testexpr subselect => .subLink (testexpr.map f) (f subselect)
  | .resTarget name val => .resTarget name (f val)
  | .rangeVar schemaname relname as => .rangeVar schemaname relname as
  | .rangeSubselect lateral subquery as => .rangeSubselect lateral (f subquery) as
  | .joinExpr larg rarg quals as => .joinExpr (f larg) (f rarg) (quals.map f) as
  | .commonTableExpr ctename aliascolnames ctequery =>
      .commonTableExpr ctename aliascolnames (f ctequery)
  | .withClause ctes recursive => .withClause (ctes.map f) recursive
  | .selectStmt distinctClause targetList fromClause clauses valuesLists modifiers with_ =>
      .selectStmt (distinctClause.map f) (targetList.map f) (fromClause.map f) (clauses.map f)
        (valuesLists.map (List.map f)) (modifiers.map f) (with_.map f)
  | .setOperation op all modifiers with_ larg rarg =>
      .setOperation op all (modifiers.map f) (with_.map f) (f larg) (f rarg)
  | .other children => .other (children.map f)

theorem children_mapChildren (f : Node → Node) (node : Node) :
    (mapChildren f node).children = node.children.map f := by
  cases node <;> simp [mapChildren, Node.children, List.map_flatten]

/-- What hangs on the set operations of a select beside its branches. -/
def setClauses : Node → List Node
  | .setOperation _ _ modifiers with_ larg rarg =>
      modifiers ++ with_ ++ (if larg.isSelect then setClauses larg else [larg]) ++
        (if rarg.isSelect then setClauses rarg else [rarg])
  | _ => []

/-- The same statement with FROM items, and branches of set operations that keep their output
names, in another order. -/
inductive Rearranged : Node → Node → Prop
  | refl (node : Node) : Rearranged node node
  | symm {node node' : Node} : Rearranged node node' → Rearranged node' node
  | trans {node node' node'' : Node} :
      Rearranged node node' → Rearranged node' node'' → Rearranged node node''
  | fromItems {distinctClause targetList fromClause fromClause' clauses modifiers with_ : List Node}
      {valuesLists : List (List Node)} : fromClause.Perm fromClause' →
      Rearranged
        (.selectStmt distinctClause targetList fromClause clauses valuesLists modifiers with_)
        (.selectStmt distinctClause targetList fromClause' clauses valuesLists modifiers with_)
  | setBranches {select select' : Node} :
      isSetOperation select = true → isSetOperation select' = true →
      (branches select).Perm (branches select') → (setClauses select).Perm (setClauses select') →
      outputNames select = outputNames select' → Rearranged select select'
  | inside (node : Node) (f g : Node → Node) :
      (∀ child ∈ node.children, Rearranged (f child) (g child)) →
      Rearranged (mapChildren f node) (mapChildren g node)

/-! ### What lies below -/

/-- Below a select lie its branches and what hangs on its set operations. -/
theorem below_parts {u : Sized Node}
    (hu : ∀ node, isSetOperation node = true → u.children node = node.children) {m : Node}
    (hm : isSetOperation m = false) (select : Node) :
    Below u select m ↔ ∃ part ∈ setClauses select ++ branches select, Below u part m := by
  induction select using branches_induction with
  | plain node hnode =>
      have hclauses : setClauses node = [] := by cases node <;> first | rfl | cases hnode
      rw [hclauses, branches_of_plain hnode]
      simp
  | setOperation op all modifiers with_ larg rarg ihl ihr =>
      have hne : m ≠ .setOperation op all modifiers with_ larg rarg := by
        rintro rfl
        cases hm
      have happend : ∀ l l' : List Node, (∃ part ∈ l ++ l', Below u part m) ↔
          (∃ part ∈ l, Below u part m) ∨ ∃ part ∈ l', Below u part m := by
        intro l l'
        simp only [List.mem_append, or_and_right, exists_or]
      have hside : ∀ side : Node,
          (Below u side m ↔ ∃ part ∈ setClauses side ++ branches side, Below u part m) →
          (Below u side m ↔ (∃ part ∈ if side.isSelect then setClauses side else [side],
            Below u part m) ∨ ∃ part ∈ if side.isSelect then branches side else [],
              Below u part m) := by
        intro side ih
        cases side.isSelect with
        | true => exact ih.trans (happend _ _)
        | false => simp
      have hchildren : (Node.setOperation op all modifiers with_ larg rarg).children =
          modifiers ++ (with_ ++ ([larg] ++ [rarg])) := by simp [Node.children]
      have hsingle : ∀ side : Node, (∃ part ∈ [side], Below u part m) ↔ Below u side m := by simp
      rw [below_iff, hu _ rfl, hchildren, setClauses, branches]
      simp only [hne, false_or, happend, hsingle]
      rw [hside larg ihl, hside rarg ihr]
      simp only [or_assoc, or_left_comm]

/-- The inner select is collected at a node below. -/
def Collected (node inner : Node) : Prop :=
  ∃ m, Below levelTree node m ∧ innerSelect? m = some inner

theorem mem_innerSelects {select inner : Node} :
    inner ∈ innerSelects select ↔ Collected select inner := by
  simp [innerSelects, Collected]

theorem isSetOperation_of_innerSelect {m inner : Node} (h : innerSelect? m = some inner) :
    isSetOperation m = false := by
  cases m <;> first | rfl | cases h

/-- A node that collects an inner select hides what lies below it. -/
theorem collected_iff {node inner : Node} :
    Collected node inner ↔ innerSelect? node = some inner ∨
      (innerSelect? node = none ∧ ∃ child ∈ node.children, Collected child inner) := by
  constructor
  · rintro ⟨m, hbelow, hm⟩
    rcases below_iff.mp hbelow with rfl | ⟨child, hchild, hbelow⟩
    · exact .inl hm
    · cases hinner : innerSelect? node with
      | some _ => simp [levelTree, Sized.prune, hinner] at hchild
      | none =>
          refine .inr ⟨rfl, child, ?_, m, hbelow, hm⟩
          simpa [levelTree, Sized.prune, hinner, tree] using hchild
  · rintro (h | ⟨hnone, child, hchild, m, hbelow, hm⟩)
    · exact ⟨node, Below.refl node, h⟩
    · refine ⟨m, below_iff.mpr (.inr ⟨child, ?_, hbelow⟩), hm⟩
      simpa [levelTree, Sized.prune, hnone, tree] using hchild

/-! ### What a rearrangement keeps -/

/-- A column reference or a table, where a walk ends. -/
def isLeaf : Node → Bool
  | .columnRef _ | .rangeVar .. => true
  | _ => false

/-- Every reference below the one lies below the other. -/
def FieldsBelow (target target' : Node) : Prop :=
  ∀ fields, Below tree target (.columnRef fields) → Below tree target' (.columnRef fields)

/-- What the analysis reads of a node is there in the other, apart from the order. -/
structure Matches (node node' : Node) : Prop where
  isSelect : node.isSelect = node'.isSelect
  isRef : ∀ fields, node = .columnRef fields → node' = .columnRef fields
  name : outputName node = outputName node'
  leaf : ∀ m, isLeaf m = true → Below tree node m → Below tree node' m
  collected : ∀ inner, Collected node inner →
    ∃ inner', Collected node' inner' ∧ Rearranged inner inner'
  branch : ∀ branch ∈ branches node, ∃ branch' ∈ branches node',
    List.Forall₂ FieldsBelow branch.targetList branch'.targetList
  names : outputNames node = outputNames node'

theorem FieldsBelow.refl_list (targets : List Node) :
    List.Forall₂ FieldsBelow targets targets := by
  induction targets with
  | nil => exact .nil
  | cons target targets ih => exact .cons (fun _ h => h) ih

theorem FieldsBelow.trans_list {l l' l'' : List Node} (h : List.Forall₂ FieldsBelow l l')
    (h' : List.Forall₂ FieldsBelow l' l'') : List.Forall₂ FieldsBelow l l'' := by
  induction h generalizing l'' with
  | nil => exact h'
  | cons hhead _ ih =>
      cases h' with
      | cons hhead' hrest' => exact .cons (fun fields h => hhead' fields (hhead fields h)) (ih hrest')

theorem Matches.refl (node : Node) : Matches node node where
  isSelect := rfl
  isRef := fun _ h => h
  name := rfl
  leaf := fun _ _ h => h
  collected := fun inner h => ⟨inner, h, .refl inner⟩
  branch := fun branch h => ⟨branch, h, FieldsBelow.refl_list _⟩
  names := rfl

theorem Matches.trans {node node' node'' : Node} (h : Matches node node')
    (h' : Matches node' node'') : Matches node node'' where
  isSelect := h.isSelect.trans h'.isSelect
  isRef := fun fields hn => h'.isRef fields (h.isRef fields hn)
  name := h.name.trans h'.name
  leaf := fun m hm hb => h'.leaf m hm (h.leaf m hm hb)
  collected := by
    intro inner hinner
    obtain ⟨inner', hinner', hr⟩ := h.collected inner hinner
    obtain ⟨inner'', hinner'', hr'⟩ := h'.collected inner' hinner'
    exact ⟨inner'', hinner'', hr.trans hr'⟩
  branch := by
    intro branch hb
    obtain ⟨branch', hb', ht⟩ := h.branch branch hb
    obtain ⟨branch'', hb'', ht'⟩ := h'.branch branch' hb'
    exact ⟨branch'', hb'', FieldsBelow.trans_list ht ht'⟩
  names := h.names.trans h'.names

/-- Another order of the FROM items. -/
theorem matches_fromItems {distinctClause targetList fromClause fromClause' clauses modifiers
    with_ : List Node} {valuesLists : List (List Node)} (h : fromClause.Perm fromClause') :
    Matches (.selectStmt distinctClause targetList fromClause clauses valuesLists modifiers with_)
      (.selectStmt distinctClause targetList fromClause' clauses valuesLists modifiers with_) := by
  have hmem : ∀ child, child ∈ (Node.selectStmt distinctClause targetList fromClause clauses
      valuesLists modifiers with_).children → child ∈ (Node.selectStmt distinctClause targetList
      fromClause' clauses valuesLists modifiers with_).children := by
    intro child hchild
    simpa [Node.children, h.mem_iff] using hchild
  constructor
  case isSelect => rfl
  case isRef =>
    intro fields hn
    cases hn
  case name => rfl
  case leaf =>
    intro m hm hb
    rcases below_iff.mp hb with rfl | ⟨child, hchild, hb⟩
    · cases hm
    · exact below_iff.mpr (.inr ⟨child, hmem child hchild, hb⟩)
  case collected =>
    intro inner hinner
    rcases collected_iff.mp hinner with hself | ⟨-, child, hchild, hinner⟩
    · cases hself
    · exact ⟨inner, collected_iff.mpr (.inr ⟨rfl, child, hmem child hchild, hinner⟩), .refl inner⟩
  case branch =>
    intro branch hb
    rw [branches_of_plain rfl, List.mem_singleton] at hb
    rw [branches_of_plain rfl, hb]
    exact ⟨_, List.mem_singleton.mpr rfl, FieldsBelow.refl_list targetList⟩
  case names => rfl

theorem isSelect_of_isSetOperation {node : Node} (h : isSetOperation node = true) :
    node.isSelect = true := by
  cases node <;> first | rfl | cases h

theorem outputName_of_isSetOperation {node : Node} (h : isSetOperation node = true) :
    outputName node = none := by
  cases node <;> first | rfl | cases h

/-- Another order of the branches. -/
theorem matches_branches {select select' : Node} (hs : isSetOperation select = true)
    (hs' : isSetOperation select' = true) (hb : (branches select).Perm (branches select'))
    (hc : (setClauses select).Perm (setClauses select'))
    (hn : outputNames select = outputNames select') : Matches select select' := by
  have hparts : ∀ part, part ∈ setClauses select ++ branches select →
      part ∈ setClauses select' ++ branches select' := by
    intro part hpart
    exact (hc.append hb).mem_iff.mp hpart
  have hlevel : ∀ node, isSetOperation node = true → levelTree.children node = node.children := by
    intro node hnode
    cases node <;> first | rfl | cases hnode
  constructor
  case isSelect =>
    rw [isSelect_of_isSetOperation hs, isSelect_of_isSetOperation hs']
  case isRef =>
    rintro fields rfl
    cases hs
  case name => rw [outputName_of_isSetOperation hs, outputName_of_isSetOperation hs']
  case leaf =>
    intro m hm hbelow
    have hplain : isSetOperation m = false := by cases m <;> first | rfl | cases hm
    obtain ⟨part, hpart, hbelow⟩ := (below_parts (fun _ _ => rfl) hplain select).mp hbelow
    exact (below_parts (fun _ _ => rfl) hplain select').mpr ⟨part, hparts part hpart, hbelow⟩
  case collected =>
    rintro inner ⟨m, hbelow, hm⟩
    have hplain := isSetOperation_of_innerSelect hm
    obtain ⟨part, hpart, hbelow⟩ := (below_parts hlevel hplain select).mp hbelow
    exact ⟨inner, ⟨m, (below_parts hlevel hplain select').mpr ⟨part, hparts part hpart, hbelow⟩,
      hm⟩, .refl inner⟩
  case branch =>
    intro branch hbranch
    exact ⟨branch, hb.mem_iff.mp hbranch, FieldsBelow.refl_list _⟩
  case names => exact hn

/-- A leaf is kept when the children of a node are replaced. -/
theorem mapChildren_eq_leaf {f : Node → Node} {node m : Node} (hm : isLeaf m = true) :
    mapChildren f node = m ↔ node = m := by
  cases m with
  | columnRef fields => cases node <;> simp [mapChildren]
  | rangeVar schemaname relname as => cases node <;> simp [mapChildren]
  | _ => cases hm

/-- The child that a CTE or a FROM subquery is about. -/
def innerChild : Node → Option Node
  | .commonTableExpr _ _ inner | .rangeSubselect _ inner _ => some inner
  | _ => none

theorem innerSelect?_mapChildren (f : Node → Node) (node : Node) :
    innerSelect? (mapChildren f node) =
      (innerChild node).bind fun inner => if (f inner).isSelect then some (f inner) else none := by
  cases node <;> rfl

theorem innerChild_mem {node inner : Node} (h : innerChild node = some inner) :
    inner ∈ node.children := by
  cases node with
  | commonTableExpr ctename aliascolnames ctequery =>
      cases h
      exact List.mem_singleton.mpr rfl
  | rangeSubselect lateral subquery as =>
      cases h
      exact List.mem_singleton.mpr rfl
  | _ => cases h

/-- A value that is no reference gives its target no name. -/
theorem outputName_of_not_ref {name : Option Name} {val : Node}
    (h : ∀ fields, val ≠ .columnRef fields) :
    outputName (.resTarget name val) = outputName (.resTarget name (.other [])) := by
  match name with
  | some (_ :: _) => rfl
  | some [] | none =>
      cases val with
      | columnRef fields => exact absurd rfl (h fields)
      | _ => rfl

/-- The name of a target depends on its value as far as that is a reference. -/
theorem outputName_congr {name : Option Name} {val val' : Node}
    (h : ∀ fields, val = .columnRef fields ↔ val' = .columnRef fields) :
    outputName (.resTarget name val) = outputName (.resTarget name val') := by
  by_cases href : ∃ fields, val = .columnRef fields
  · obtain ⟨fields, rfl⟩ := href
    rw [(h fields).mp rfl]
  · have hnone : ∀ fields, val ≠ .columnRef fields := fun fields hv => href ⟨fields, hv⟩
    have hnone' : ∀ fields, val' ≠ .columnRef fields := fun fields hv =>
      hnone fields ((h fields).mpr hv)
    rw [outputName_of_not_ref hnone, outputName_of_not_ref hnone']

/-- The names of a set operation are those of its first side with a branch. -/
theorem outputNames_setOperation (op : SetOperation) (all : Bool) (modifiers with_ : List Node)
    (larg rarg : Node) :
    outputNames (.setOperation op all modifiers with_ larg rarg) =
      if larg.isSelect = true ∧ branches larg ≠ [] then outputNames larg
      else if rarg.isSelect = true then outputNames rarg else [] := by
  rw [outputNames, branches]
  cases hl : larg.isSelect with
  | true =>
      cases hb : branches larg with
      | nil => cases hr : rarg.isSelect <;> simp [outputNames]
      | cons branch rest => simp [outputNames, hb]
  | false => cases hr : rarg.isSelect <;> simp [outputNames]

/-- Other children that match. -/
theorem matches_inside {node : Node} {f g : Node → Node}
    (hr : ∀ child ∈ node.children, Rearranged (f child) (g child))
    (h : ∀ child ∈ node.children, Matches (f child) (g child) ∧ Matches (g child) (f child)) :
    Matches (mapChildren f node) (mapChildren g node) := by
  constructor
  case isSelect => cases node <;> rfl
  case isRef =>
    intro fields hn
    rw [mapChildren_eq_leaf rfl] at hn ⊢
    exact hn
  case name =>
    cases node with
    | resTarget name val =>
        obtain ⟨hval, hval'⟩ := h val (List.mem_singleton.mpr rfl)
        exact outputName_congr fun fields => ⟨hval.isRef fields, hval'.isRef fields⟩
    | _ => rfl
  case leaf =>
    intro m hm hbelow
    rcases below_iff.mp hbelow with hself | ⟨child, hchild, hbelow⟩
    · have hnode : node = m := (mapChildren_eq_leaf hm).mp hself.symm
      rw [(mapChildren_eq_leaf hm).mpr hnode]
    · have hmem : child ∈ (mapChildren f node).children := hchild
      rw [children_mapChildren] at hmem
      obtain ⟨part, hpart, rfl⟩ := List.mem_map.mp hmem
      refine below_iff.mpr (.inr ⟨g part, ?_, (h part hpart).1.leaf m hm hbelow⟩)
      show g part ∈ (mapChildren g node).children
      rw [children_mapChildren]
      exact List.mem_map_of_mem hpart
  case collected =>
    intro inner hinner
    rw [collected_iff, innerSelect?_mapChildren] at hinner
    rcases hinner with hself | ⟨hnone, child, hchild, hinner⟩
    · obtain ⟨part, hpart, hselect⟩ := Option.bind_eq_some_iff.mp hself
      have hmem := innerChild_mem hpart
      by_cases hs : (f part).isSelect = true
      case neg => rw [if_neg hs] at hselect; cases hselect
      case pos =>
        rw [if_pos hs] at hselect
        have hs' : (g part).isSelect = true := (h part hmem).1.isSelect ▸ hs
        refine ⟨g part, collected_iff.mpr (.inl ?_), Option.some.inj hselect ▸ hr part hmem⟩
        rw [innerSelect?_mapChildren, hpart]
        exact if_pos hs'
    · rw [children_mapChildren] at hchild
      obtain ⟨part, hpart, rfl⟩ := List.mem_map.mp hchild
      obtain ⟨inner', hinner', hrearranged⟩ := (h part hpart).1.collected inner hinner
      refine ⟨inner', collected_iff.mpr (.inr ⟨?_, g part, ?_, hinner'⟩), hrearranged⟩
      · rw [innerSelect?_mapChildren]
        cases hchild : innerChild node with
        | none => rfl
        | some part' =>
            rw [hchild] at hnone
            have hsame := (h part' (innerChild_mem hchild)).1.isSelect
            show (if (g part').isSelect then some (g part') else none) = none
            rw [← hsame, if_neg]
            intro hs
            simp [hs] at hnone
      · rw [children_mapChildren]
        exact List.mem_map_of_mem hpart
  case branch =>
    intro branch hb
    cases node with
    | selectStmt distinctClause targetList fromClause clauses valuesLists modifiers with_ =>
        have hbranch := List.mem_singleton.mp hb
        subst hbranch
        refine ⟨_, List.mem_singleton.mpr rfl, ?_⟩
        show List.Forall₂ FieldsBelow (targetList.map f) (targetList.map g)
        rw [List.forall₂_map_left_iff, List.forall₂_map_right_iff, List.forall₂_same]
        intro target htarget fields
        exact (h target (by simp [Node.children, htarget])).1.leaf _ rfl
    | setOperation op all modifiers with_ larg rarg =>
        have hl := (h larg (by simp [Node.children])).1
        have hr := (h rarg (by simp [Node.children])).1
        have hmem : branch ∈ (if (f larg).isSelect then branches (f larg) else []) ++
            (if (f rarg).isSelect then branches (f rarg) else []) := hb
        show ∃ branch' ∈ (if (g larg).isSelect then branches (g larg) else []) ++
            (if (g rarg).isSelect then branches (g rarg) else []), _
        rw [← hl.isSelect, ← hr.isSelect]
        rcases List.mem_append.mp hmem with hmem | hmem
        · by_cases hs : (f larg).isSelect = true
          case neg => simp [hs] at hmem
          case pos =>
            rw [if_pos hs] at hmem ⊢
            obtain ⟨branch', hb', ht⟩ := hl.branch branch hmem
            exact ⟨branch', List.mem_append_left _ hb', ht⟩
        · by_cases hs : (f rarg).isSelect = true
          case neg => simp [hs] at hmem
          case pos =>
            rw [if_pos hs] at hmem ⊢
            obtain ⟨branch', hb', ht⟩ := hr.branch branch hmem
            exact ⟨branch', List.mem_append_right _ hb', ht⟩
    | _ =>
        have hbranch := List.mem_singleton.mp hb
        subst hbranch
        exact ⟨_, List.mem_singleton.mpr rfl, .nil⟩
  case names =>
    cases node with
    | selectStmt distinctClause targetList fromClause clauses valuesLists modifiers with_ =>
        show (targetList.map f).map outputName = (targetList.map g).map outputName
        rw [List.map_map, List.map_map]
        exact List.map_congr_left fun target htarget =>
          (h target (by simp [Node.children, htarget])).1.name
    | setOperation op all modifiers with_ larg rarg =>
        obtain ⟨hl, hl'⟩ := h larg (by simp [Node.children])
        have hr := (h rarg (by simp [Node.children])).1
        have hnil : branches (f larg) = [] ↔ branches (g larg) = [] := by
          simp only [List.eq_nil_iff_forall_not_mem]
          constructor
          · intro hnone branch hb
            obtain ⟨branch', hb', -⟩ := hl'.branch branch hb
            exact hnone branch' hb'
          · intro hnone branch hb
            obtain ⟨branch', hb', -⟩ := hl.branch branch hb
            exact hnone branch' hb'
        rw [mapChildren, mapChildren, outputNames_setOperation, outputNames_setOperation,
          hl.isSelect, hr.isSelect, hl.names, hr.names]
        simp only [ne_eq, hnil]
    | _ => rfl

/-- **A rearranged statement matches**, in both directions. -/
theorem Rearranged.matches {node node' : Node} (h : Rearranged node node') :
    Matches node node' ∧ Matches node' node := by
  induction h with
  | refl node => exact ⟨.refl node, .refl node⟩
  | symm _ ih => exact ⟨ih.2, ih.1⟩
  | trans _ _ ih ih' => exact ⟨ih.1.trans ih'.1, ih'.2.trans ih.2⟩
  | fromItems h => exact ⟨matches_fromItems h, matches_fromItems h.symm⟩
  | setBranches hs hs' hb hc hn =>
      exact ⟨matches_branches hs hs' hb hc hn, matches_branches hs' hs hb.symm hc.symm hn.symm⟩
  | inside node f g hr ih =>
      exact ⟨matches_inside hr ih,
        matches_inside (fun child hc => (hr child hc).symm) fun child hc => (ih child hc).symm⟩

end MaskGateway.Proofs.Sql
