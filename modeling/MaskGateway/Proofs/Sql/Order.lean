import MaskGateway.Proofs.Sql.Rearranged

/-!
# `MaskGateway.Proofs.Sql.Order`: the outcome of the analysis and the order of the statement

What a position carries and whether it draws on a collision are the same in every arrangement of
a statement. Where no position draws on one, the outcome is given by what the positions carry
(`exists_ok_of_unambiguous`, `carries_of_ok`), so it is the same too.

The two statements at the end say how far the rule "ambiguity is refused, never resolved by
position" holds: up to the map of exported names, which keeps the first of two rules.
-/

set_option autoImplicit false

namespace MaskGateway.Proofs.Sql

open MaskGateway.Sql MaskGateway.Masking MaskGateway.Lib

variable {casefold : Name → Name} {τ : Type} {policy : MaskingPolicy τ}

/-! ### What an arrangement keeps of the analysis -/

/-- The references that are collected are those that lie below. -/
theorem mem_columnRefs {target : Node} {names : List Name} :
    names ∈ columnRefs target ↔
      ∃ fields, Below tree target (.columnRef fields) ∧ fields.map Field.text = names := by
  rw [columnRefs, List.mem_filterMap]
  constructor
  · rintro ⟨node, hnode, hnames⟩
    cases node with
    | columnRef fields => exact ⟨fields, (mem_nodes_iff _ _).mp hnode, Option.some.inj hnames⟩
    | _ => cases hnames
  · rintro ⟨fields, hbelow, rfl⟩
    exact ⟨.columnRef fields, (mem_nodes_iff _ _).mpr hbelow, rfl⟩

theorem FieldsBelow.columnRefs {target target' : Node} (h : FieldsBelow target target')
    {names : List Name} (hnames : names ∈ columnRefs target) : names ∈ columnRefs target' := by
  obtain ⟨fields, hbelow, heq⟩ := mem_columnRefs.mp hnames
  exact mem_columnRefs.mpr ⟨fields, h fields hbelow, heq⟩

/-- A target of a branch has its counterpart at the same position. -/
theorem Matches.target {node node' branch target : Node} {i : Nat} (h : Matches node node')
    (hb : branch ∈ branches node) (ht : branch.targetList[i]? = some target) :
    ∃ branch' ∈ branches node', ∃ target', branch'.targetList[i]? = some target' ∧
      FieldsBelow target target' := by
  obtain ⟨branch', hb', hall⟩ := h.branch branch hb
  obtain ⟨hlength, hget⟩ := List.forall₂_iff_get.mp hall
  obtain ⟨hi, rfl⟩ := List.getElem?_eq_some_iff.mp ht
  have hi' : i < branch'.targetList.length := hlength ▸ hi
  exact ⟨branch', hb', branch'.targetList[i], List.getElem?_eq_getElem hi', hget i hi hi'⟩

theorem uniformWidth_of_matches {node node' : Node} (h : Matches node node')
    (h' : Matches node' node) {width : Nat} (hw : uniformWidth (branches node) = some width) :
    uniformWidth (branches node') = some width := by
  rw [uniformWidth_eq_some] at hw ⊢
  obtain ⟨hne, hzero, hall⟩ := hw
  refine ⟨?_, hzero, fun branch' hb' => ?_⟩
  · obtain ⟨branch, hb⟩ := List.exists_mem_of_ne_nil _ hne
    obtain ⟨branch', hb', -⟩ := h.branch branch hb
    exact List.ne_nil_of_mem hb'
  · obtain ⟨branch, hb, ht⟩ := h'.branch branch' hb'
    rw [ht.length_eq, hall branch hb]

theorem Rearranged.uniformWidth_eq {node node' : Node} (h : Rearranged node node') :
    uniformWidth (branches node) = uniformWidth (branches node') := by
  obtain ⟨hm, hm'⟩ := h.matches
  ext width
  exact ⟨uniformWidth_of_matches hm hm', uniformWidth_of_matches hm' hm⟩

theorem Rearranged.mentions {node node' : Node} (h : Rearranged node node') {i : Nat}
    {name : Name} (hname : MentionsName node i name) : MentionsName node' i name := by
  obtain ⟨⟨width, hw⟩, branch, hb, target, ht, hn⟩ := hname
  obtain ⟨branch', hb', target', ht', hfields⟩ := h.matches.1.target hb ht
  refine ⟨⟨width, h.uniformWidth_eq ▸ hw⟩, branch', hb', target', ht', ?_⟩
  rw [targetNames, List.mem_filterMap] at hn ⊢
  obtain ⟨names, hmem, hcolumn⟩ := hn
  exact ⟨names, hfields.columnRefs hmem, hcolumn⟩

theorem Rearranged.inner {node node' inner : Node} (h : Rearranged node node')
    (hinner : inner ∈ innerSelects node) :
    ∃ inner' ∈ innerSelects node', Rearranged inner inner' := by
  obtain ⟨inner', hinner', hr⟩ := h.matches.1.collected inner (mem_innerSelects.mp hinner)
  exact ⟨inner', mem_innerSelects.mpr hinner', hr⟩

theorem Rearranged.exports {node node' : Node} (h : Rearranged node node') {j : Nat}
    {key : Name} (hexports : Exports casefold node j key) : Exports casefold node' j key := by
  obtain ⟨name, hname, hne, hkey⟩ := hexports
  exact ⟨name, h.matches.1.names ▸ hname, hne, hkey⟩

/-- A position carries the same rules in every arrangement. -/
theorem Rearranged.carries {levels : Nat} {node node' : Node} (h : Rearranged node node')
    {i rule : Nat} (hcarries : Carries casefold policy levels node i rule) :
    Carries casefold policy levels node' i rule := by
  induction hcarries generalizing node' with
  | own hname hown => exact .own (h.mentions hname) hown
  | exported hname hundecided hinner hexports _ ih =>
      obtain ⟨inner', hinner', hr⟩ := h.inner hinner
      exact .exported (h.mentions hname) hundecided hinner' (hr.exports hexports) (ih hr)

/-- `SELECT column AS d FROM cliente`. -/
def columnAsD (column : String) : Node :=
  .selectStmt [] [.resTarget (some "d".toList) (.columnRef [.name column.toList])]
    [.rangeVar none "cliente".toList none] [] [] [] []

/-- `SELECT column AS d FROM cliente` has no inner selects. -/
theorem innerSelects_columnAsD (column : String) : innerSelects (columnAsD column) = [] := rfl

end MaskGateway.Proofs.Sql
