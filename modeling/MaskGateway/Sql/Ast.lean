import MaskGateway.Lib.Walk
import MaskGateway.Masking.Engine

/-!
# `MaskGateway.Sql.Ast`: the parse tree the analysis reads

The nodes of the tree that pglast produces, as far as `sql/sensitivity.py` tells them apart:
column references, select-list targets, FROM items, common table expressions and the two shapes
of `SelectStmt` (a plain select, and a set operation over two selects, which pglast
distinguishes by the field `op`). Every other node kind is `other`, with its child nodes. An
optional slot is a list with at most one node.

`Node.children` lists the child nodes in the order of pglast's slots, which is the order in
which its `Visitor` queues them; `tree` is that walk with a size for its fuel. Nothing here
says what a well-formed statement is: the code tests node kinds where it needs them, and so do
the definitions that follow.
-/

set_option autoImplicit false

namespace MaskGateway.Sql

/-- One part of a dotted column reference: a `String` node or `A_Star`. -/
inductive Field where
  | name (sval : Name)
  | star
  deriving DecidableEq

/-- An alias of a FROM item, with its column list. -/
structure Alias where
  aliasname : Name
  colnames : List Name := []
  deriving DecidableEq

/-- The set operations of `enums.SetOperation`, `SETOP_NONE` apart. -/
inductive SetOperation where
  | union
  | intersect
  | except
  deriving DecidableEq

/-- A node of the parse tree. -/
inductive Node where
  /-- `a`, `t.a`, `s.t.a`, `*`, `t.*`. -/
  | columnRef (fields : List Field)
  /-- A function call; its name is the last part of `funcname`. -/
  | funcCall (funcname : Name) (args : List Node)
  /-- `arg::type`. -/
  | typeCast (arg : Node)
  /-- A subquery in an expression, with the left side of `IN` or `ANY`. -/
  | subLink (testexpr : List Node) (subselect : Node)
  /-- One entry of a select list. -/
  | resTarget (name : Option Name) (val : Node)
  /-- A table or CTE by name. -/
  | rangeVar (schemaname : Option Name) (relname : Name) (as : Option Alias)
  /-- A subquery in FROM. -/
  | rangeSubselect (lateral : Bool) (subquery : Node) (as : Option Alias)
  /-- A join, with its `ON` condition. -/
  | joinExpr (larg rarg : Node) (quals : List Node) (as : Option Alias)
  /-- One definition of a WITH clause. -/
  | commonTableExpr (ctename : Name) (aliascolnames : List Name) (ctequery : Node)
  /-- A WITH clause. -/
  | withClause (ctes : List Node) (recursive : Bool)
  /-- A `SelectStmt` whose `op` is `SETOP_NONE`. `clauses` stands for WHERE, GROUP BY, HAVING
  and WINDOW, `modifiers` for ORDER BY, LIMIT and locking; a VALUES list has rows of
  expressions and no targets. -/
  | selectStmt (distinctClause targetList fromClause clauses : List Node)
      (valuesLists : List (List Node)) (modifiers with_ : List Node)
  /-- A `SelectStmt` whose `op` is a set operation. -/
  | setOperation (op : SetOperation) (all : Bool) (modifiers with_ : List Node)
      (larg rarg : Node)
  /-- Any other node kind. -/
  | other (children : List Node)

namespace Node

/-- `isinstance(node, ast.SelectStmt)`. -/
def isSelect : Node → Bool
  | selectStmt .. | setOperation .. => true
  | _ => false

/-- The child nodes, in the order of pglast's slots. -/
def children : Node → List Node
  | columnRef _ => []
  | funcCall _ args => args
  | typeCast arg => [arg]
  | subLink testexpr subselect => testexpr ++ [subselect]
  | resTarget _ val => [val]
  | rangeVar .. => []
  | rangeSubselect _ subquery _ => [subquery]
  | joinExpr larg rarg quals _ => larg :: rarg :: quals
  | commonTableExpr _ _ ctequery => [ctequery]
  | withClause ctes _ => ctes
  | selectStmt distinctClause targetList fromClause clauses valuesLists modifiers with_ =>
      distinctClause ++ targetList ++ fromClause ++ clauses ++ valuesLists.flatten ++
        modifiers ++ with_
  | setOperation _ _ modifiers with_ larg rarg => modifiers ++ with_ ++ [larg, rarg]
  | other children => children

mutual

/-- The number of nodes of a tree. -/
def size : Node → Nat
  | columnRef _ => 1
  | funcCall _ args => sizes args + 1
  | typeCast arg => arg.size + 1
  | subLink testexpr subselect => sizes testexpr + subselect.size + 1
  | resTarget _ val => val.size + 1
  | rangeVar .. => 1
  | rangeSubselect _ subquery _ => subquery.size + 1
  | joinExpr larg rarg quals _ => larg.size + rarg.size + sizes quals + 1
  | commonTableExpr _ _ ctequery => ctequery.size + 1
  | withClause ctes _ => sizes ctes + 1
  | selectStmt distinctClause targetList fromClause clauses valuesLists modifiers with_ =>
      sizes distinctClause + sizes targetList + sizes fromClause + sizes clauses +
        sizesOfRows valuesLists + sizes modifiers + sizes with_ + 1
  | setOperation _ _ modifiers with_ larg rarg =>
      sizes modifiers + sizes with_ + larg.size + rarg.size + 1
  | other children => sizes children + 1

/-- The number of nodes of several trees. -/
def sizes : List Node → Nat
  | [] => 0
  | node :: rest => node.size + sizes rest

/-- The number of nodes of the rows of a VALUES list. -/
def sizesOfRows : List (List Node) → Nat
  | [] => 0
  | row :: rest => sizes row + sizesOfRows rest

end

theorem sizes_eq (nodes : List Node) : sizes nodes = (nodes.map size).sum := by
  induction nodes with
  | nil => simp [sizes]
  | cons node rest ih => simp [sizes, ih]

theorem sizesOfRows_eq (rows : List (List Node)) :
    sizesOfRows rows = (rows.flatten.map size).sum := by
  induction rows with
  | nil => simp [sizesOfRows]
  | cons row rest ih => simp [sizesOfRows, sizes_eq, ih]

/-- A node is counted beside the nodes below it. -/
theorem children_size_lt (node : Node) : (node.children.map size).sum < node.size := by
  cases node <;> simp [children, size, sizes_eq, sizesOfRows_eq] <;> omega

end Node

/-- The parse tree as pglast's `Visitor` walks it. -/
def tree : Lib.Sized Node where
  children := Node.children
  size := Node.size
  children_lt := Node.children_size_lt

end MaskGateway.Sql
