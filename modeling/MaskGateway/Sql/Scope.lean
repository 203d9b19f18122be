import MaskGateway.Sql.Sensitivity

/-!
# `MaskGateway.Sql.Scope`: what a column of the result depends on

The usual lexical name resolution of a query, written down once so that the analysis can be
compared with it. Nothing here is code of the gateway: the gateway resolves no scope.

A scope is a list of frames, the innermost first: the FROM items of a select, or the
definitions of a WITH clause (`Frame`). `scopedChildren` says in which scope each child of a node
stands: the targets of a select see its FROM items, a FROM subquery sees the items to its left
only when it is LATERAL, a CTE sees the definitions before it (all of them when the clause is
RECURSIVE). A column reference means the column of that name in the innermost frame that has
one (`resolveColumn`), and an item's columns go by its alias list, then by the names its query gives
them (`itemColumns`).

`Depends catalog σ select i n` then says that the value of column `i` of `select` depends on a
base-table column named `n`: some reference in the expression of that column, in some branch of
a set operation, leads to it through any chain of CTE and subquery columns.
-/

set_option autoImplicit false

namespace MaskGateway.Sql

open Lib

/-- The columns of each base table, by schema and name. -/
abbrev Catalog := Option Name → Name → List Name

/-- One level of names. -/
inductive Frame where
  | ctes (definitions : List Node) (recursive : Bool)
  | items (fromItems : List Node)

/-- The names in force at a place of a statement, the innermost first. -/
abbrev Scope := List Frame

/-! ### Where each node stands -/

/-- The scope below a WITH clause. -/
def withScope (σ : Scope) : List Node → Scope
  | [.withClause ctes recursive] => .ctes ctes recursive :: σ
  | _ => σ

/-- What the `k`-th definition of a WITH clause sees of the others. -/
def cteScope (σ : Scope) (ctes : List Node) (recursive : Bool) (k : Nat) : Scope :=
  .ctes (if recursive then ctes else ctes.take k) recursive :: σ

/-- The scope of a FROM item after one more item on its left. -/
def beside (item : Node) : Scope → Scope
  | .items left :: base => .items (left ++ [item]) :: base
  | σ => σ

/-- The FROM items of a select, each with the items to its left in the innermost frame. -/
def scopedItems (base : Scope) (fromItems : List Node) : List (Scope × Node) :=
  fromItems.mapIdx fun k item => (.items (fromItems.take k) :: base, item)

/-- The children of a node, each in its scope. -/
def scopedChildren : Scope × Node → List (Scope × Node)
  | (σ, .selectStmt distinctClause targetList fromClause clauses valuesLists modifiers with_) =>
      let base := withScope σ with_
      let body := .items fromClause :: base
      (distinctClause ++ targetList).map (Prod.mk body) ++ scopedItems base fromClause ++
        (clauses ++ valuesLists.flatten ++ modifiers).map (Prod.mk body) ++ with_.map (Prod.mk σ)
  | (σ, .setOperation _ _ modifiers with_ larg rarg) =>
      let base := withScope σ with_
      modifiers.map (Prod.mk base) ++ with_.map (Prod.mk σ) ++ [(base, larg), (base, rarg)]
  | (σ, .withClause ctes recursive) =>
      ctes.mapIdx fun k cte => (cteScope σ ctes recursive k, cte)
  | (σ, .rangeSubselect lateral subquery _) => [(if lateral then σ else σ.tail, subquery)]
  | (σ, .joinExpr larg rarg quals _) =>
      (σ, larg) :: (beside larg σ, rarg) :: quals.map (Prod.mk (.items [larg, rarg] :: σ.tail))
  | (σ, node) => node.children.map (Prod.mk σ)

/-- Scopes leave the nodes and their order as they are. -/
theorem scopedChildren_snd (p : Scope × Node) :
    (scopedChildren p).map Prod.snd = p.2.children := by
  obtain ⟨σ, node⟩ := p
  have hidx : ∀ (f : Nat → Scope) (nodes : List Node),
      (nodes.mapIdx fun k item => (f k, item)).map Prod.snd = nodes := by
    intro f nodes
    refine List.ext_getElem? fun k => ?_
    rw [List.getElem?_map, List.getElem?_mapIdx]
    cases nodes[k]? <;> rfl
  cases node <;>
    simp [scopedChildren, scopedItems, Node.children, hidx, Function.comp_def]

/-- The parse tree with the scope of each node. -/
def scopedTree : Sized (Scope × Node) where
  children := scopedChildren
  size p := p.2.size
  children_lt p := by
    have h := Node.children_size_lt p.2
    rwa [← scopedChildren_snd, List.map_map] at h

/-- The reference `fields` occurs at or below `node`, in scope `σ'`. -/
def Mentions (σ : Scope) (node : Node) (σ' : Scope) (fields : List Field) : Prop :=
  Below scopedTree (σ, node) (σ', .columnRef fields)

/-! ### Items and their columns -/

/-- The query of the CTE of a given name, with the scope it stands in. -/
def findCte : Scope → Name → Option (Scope × Node)
  | [], _ => none
  | .items _ :: rest, name => findCte rest name
  | .ctes definitions recursive :: rest, name =>
      match definitions.findIdx? fun
          | .commonTableExpr ctename .. => ctename == name
          | _ => false with
      | some k => definitions[k]?.map fun cte => (cteScope rest definitions recursive k, cte)
      | none => findCte rest name

/-- Column names with the first ones replaced by an alias list. -/
def renameColumns (colnames : List Name) (names : List (Option Name)) : List (Option Name) :=
  (colnames.take names.length).map some ++ names.drop colnames.length

/-- The column names of an alias, none without one. -/
def aliasColumns : Option Alias → List Name
  | some as => as.colnames
  | none => []

/-- The name PostgreSQL gives to an expression without an alias: the last field of a column
reference, the name of a function, the name of what is cast. -/
def figureColname : Node → Option Name
  | .columnRef fields =>
      match fields.getLast? with
      | some (.name sval) => some sval
      | _ => none
  | .funcCall funcname _ => some funcname
  | .typeCast arg => figureColname arg
  | _ => none

/-- The name of the column that a target makes. -/
def targetColname : Node → Option Name
  | .resTarget (some name) _ => some name
  | .resTarget none val => figureColname val
  | _ => none

/-- The column names of a select, those of its first branch. The columns of a VALUES list are
called `column1`, `column2` and so on. -/
def selectColumns (select : Node) : List (Option Name) :=
  match branches select with
  | .selectStmt _ [] _ _ (row :: _) _ _ :: _ =>
      row.mapIdx fun k _ => some ("column".toList ++ (Nat.repr (k + 1)).toList)
  | branch :: _ => branch.targetList.map targetColname
  | [] => []

/-- The names of the columns of a FROM item, in order. -/
def itemColumns (catalog : Catalog) (σ : Scope) : Node → List (Option Name)
  | .rangeVar schemaname relname as =>
      renameColumns (aliasColumns as) <|
        match schemaname, findCte σ relname with
        | none, some (_, .commonTableExpr _ aliascolnames ctequery) =>
            renameColumns aliascolnames (selectColumns ctequery)
        | _, _ => (catalog schemaname relname).map some
  | .rangeSubselect _ subquery as => renameColumns (aliasColumns as) (selectColumns subquery)
  | _ => []

/-- A FROM item that can be referred to, with its scope and its visible name. -/
structure Leaf where
  scope : Scope
  item : Node
  name : Option Name

/-- The name a FROM item goes by without the alias of a join around it. -/
def itemName : Node → Option Name
  | .rangeVar _ _ (some as) => some as.aliasname
  | .rangeVar _ relname none => some relname
  | .rangeSubselect _ _ as => as.map Alias.aliasname
  | _ => none

/-- The items under the joins of one FROM item. The alias of a join hides the names under it. -/
def leaves (σ : Scope) (outer : Option Name) : Node → List Leaf
  | .joinExpr larg rarg _ as =>
      let name := outer.or (as.map Alias.aliasname)
      leaves σ name larg ++ leaves (beside larg σ) name rarg
  | item => [⟨σ, item, outer.or (itemName item)⟩]

/-- The items that a frame of FROM items offers. -/
def frameLeaves (base : Scope) (fromItems : List Node) : List Leaf :=
  (scopedItems base fromItems).flatMap fun p => leaves p.1 none p.2

/-- Whether a qualifier (`t`, or `s.t`) selects the item. -/
def Leaf.answersTo (leaf : Leaf) : List Name → Bool
  | [] => true
  | [name] => leaf.name == some name
  | [schema, name] =>
      match leaf.item with
      | .rangeVar (some schemaname) relname none => schemaname == schema && relname == name
      | _ => false
  | _ => false

/-- The items that a reference to column `name` means: those of the innermost frame in which an
item with the given qualifier has a column of that name. -/
def resolveColumn (catalog : Catalog) (qualifier : List Name) (name : Name) : Scope → List Leaf
  | [] => []
  | .ctes .. :: rest => resolveColumn catalog qualifier name rest
  | .items fromItems :: rest =>
      let found := (frameLeaves rest fromItems).filter fun leaf =>
        leaf.answersTo qualifier && (itemColumns catalog leaf.scope leaf.item).contains (some name)
      if found.isEmpty then resolveColumn catalog qualifier name rest else found

/-- The qualifier and the column of a reference that ends in a name. -/
def splitRef : List Field → Option (List Name × Name)
  | [.name name] => some ([], name)
  | .name qualifier :: rest => (splitRef rest).map fun p => (qualifier :: p.1, p.2)
  | _ => none

/-! ### Dependence -/

mutual

/-- The value of column `i` of `select`, standing in scope `σ`, depends on a base-table column
named `n`. -/
inductive Depends (catalog : Catalog) : Scope → Node → Nat → Name → Prop
  /-- Through a reference in the expression of that column. -/
  | target {σ σ' : Scope} {distinctClause targetList fromClause clauses : List Node}
      {valuesLists : List (List Node)} {modifiers with_ : List Node} {i : Nat} {target : Node}
      {fields : List Field} {qualifier : List Name} {name n : Name} {leaf : Leaf} :
      targetList[i]? = some target →
      Mentions (.items fromClause :: withScope σ with_) target σ' fields →
      splitRef fields = some (qualifier, name) →
      leaf ∈ resolveColumn catalog qualifier name σ' →
      ItemDepends catalog leaf.scope leaf.item name n →
      Depends catalog σ (.selectStmt distinctClause targetList fromClause clauses valuesLists
        modifiers with_) i n
  /-- Through a reference in a row of a VALUES list. -/
  | values {σ σ' : Scope} {distinctClause fromClause clauses : List Node}
      {valuesLists : List (List Node)} {modifiers with_ row : List Node} {i : Nat}
      {expression : Node} {fields : List Field} {qualifier : List Name} {name n : Name}
      {leaf : Leaf} :
      row ∈ valuesLists →
      row[i]? = some expression →
      Mentions (.items fromClause :: withScope σ with_) expression σ' fields →
      splitRef fields = some (qualifier, name) →
      leaf ∈ resolveColumn catalog qualifier name σ' →
      ItemDepends catalog leaf.scope leaf.item name n →
      Depends catalog σ (.selectStmt distinctClause [] fromClause clauses valuesLists
        modifiers with_) i n
  /-- Through the left side of a set operation. -/
  | left {σ : Scope} {op : SetOperation} {all : Bool} {modifiers with_ : List Node}
      {larg rarg : Node} {i : Nat} {n : Name} :
      Depends catalog (withScope σ with_) larg i n →
      Depends catalog σ (.setOperation op all modifiers with_ larg rarg) i n
  /-- Through the right side of a set operation. -/
  | right {σ : Scope} {op : SetOperation} {all : Bool} {modifiers with_ : List Node}
      {larg rarg : Node} {i : Nat} {n : Name} :
      Depends catalog (withScope σ with_) rarg i n →
      Depends catalog σ (.setOperation op all modifiers with_ larg rarg) i n

/-- Column `name` of a FROM item depends on a base-table column named `n`. -/
inductive ItemDepends (catalog : Catalog) : Scope → Node → Name → Name → Prop
  /-- A column of a base table is itself. -/
  | table {σ : Scope} {schemaname : Option Name} {relname : Name} {as : Option Alias}
      {j : Nat} {name n : Name} :
      schemaname.isSome ∨ findCte σ relname = none →
      (itemColumns catalog σ (.rangeVar schemaname relname as))[j]? = some (some name) →
      (catalog schemaname relname)[j]? = some n →
      ItemDepends catalog σ (.rangeVar schemaname relname as) name n
  /-- A column of a CTE depends on what the same column of its query does. -/
  | cte {σ σ' : Scope} {relname : Name} {as : Option Alias} {ctename : Name}
      {aliascolnames : List Name} {ctequery : Node} {j : Nat} {name n : Name} :
      findCte σ relname = some (σ', .commonTableExpr ctename aliascolnames ctequery) →
      (itemColumns catalog σ (.rangeVar none relname as))[j]? = some (some name) →
      Depends catalog σ' ctequery j n →
      ItemDepends catalog σ (.rangeVar none relname as) name n
  /-- A column of a FROM subquery depends on what the same column of its query does. -/
  | subquery {σ : Scope} {lateral : Bool} {subquery : Node} {as : Option Alias} {j : Nat}
      {name n : Name} :
      (itemColumns catalog σ (.rangeSubselect lateral subquery as))[j]? = some (some name) →
      Depends catalog (if lateral then σ else σ.tail) subquery j n →
      ItemDepends catalog σ (.rangeSubselect lateral subquery as) name n

end

end MaskGateway.Sql
