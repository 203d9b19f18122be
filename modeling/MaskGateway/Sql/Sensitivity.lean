import MaskGateway.Lib.Except
import MaskGateway.Sql.Ast

/-!
# `MaskGateway.Sql.Sensitivity`: which output positions of a statement are sensitive

`sql/sensitivity.py`. For each position of the result the analysis looks up every column name
that the target of that position mentions, in every branch of a set operation, and reports the
rule that covers it. Names that CTEs and FROM subqueries export are looked up in a map built by
the same analysis of each inner select; that map goes by name, not by scope.

Two things make it refuse a statement (`QueryRejected`): a position that two different rules
cover, and a reference of one field that spells the name of a relation, taken for its whole row.

The recursion of `_analyze_select` counts its depth up to `MAX_DEPTH`; here the number of
levels still allowed counts down, so that no level left is the `depth > MAX_DEPTH` of the
source.
-/

set_option autoImplicit false

namespace MaskGateway.Sql

open Masking Lib

/-- The two reasons for which the analysis raises `QueryRejected`. -/
inductive QueryRejected where
  | ambiguousSensitiveExpression
  | wholeRowSerialization
  deriving DecidableEq

/-- The fixed text of a rejection. -/
def QueryRejected.message : QueryRejected → String
  | .ambiguousSensitiveExpression => "expressao depende de mais de uma regra de protecao"
  | .wholeRowSerialization => "expressao serializa uma linha inteira"

/-- For each position of the result, the index of the rule that covers it. -/
abbrev Sensitivity := List (Option Nat)

/-- How deep nested selects are analysed. -/
def maxDepth : Nat := 16

/-! ### What is read off the tree -/

/-- The targets of a plain select; a set operation has none of its own. -/
def Node.targetList : Node → List Node
  | .selectStmt _ targetList .. => targetList
  | _ => []

/-- `_branches`: the branches of a set operation, flattened. -/
def branches : Node → List Node
  | .setOperation _ _ _ _ larg rarg =>
      (if larg.isSelect then branches larg else []) ++
        (if rarg.isSelect then branches rarg else [])
  | node => [node]

/-- The select of a CTE or of a FROM subquery, when the node is one. -/
def innerSelect? : Node → Option Node
  | .commonTableExpr _ _ inner | .rangeSubselect _ inner _ =>
      if inner.isSelect then some inner else none
  | _ => none

/-- The parse tree as `_InnerSelectCollector` walks it: it does not descend into a select that
it collects. -/
def levelTree : Sized Node := tree.prune fun node => (innerSelect? node).isSome

/-- `_InnerSelectCollector`: the selects of CTEs and FROM subqueries of the immediate level. -/
def innerSelects (select : Node) : List Node :=
  (levelTree.nodes select).filterMap innerSelect?

/-- The name under which a target leaves its select, as far as the analysis knows: its alias,
or the last field of a bare column reference. -/
def outputName : Node → Option Name
  | .resTarget (some (c :: name)) _ => some (c :: name)
  | .resTarget _ (.columnRef fields) =>
      match fields.getLast? with
      | some (.name sval) => some sval
      | _ => none
  | _ => none

/-- `_output_names`: the names that a select exports, those of its first branch. -/
def outputNames (select : Node) : List (Option Name) :=
  match branches select with
  | [] => []
  | branch :: _ => branch.targetList.map outputName

/-- A field as the collector writes it down. -/
def Field.text : Field → Name
  | .star => ['*']
  | .name sval => sval

/-- `_ColumnRefCollector`: the references of a target, subselects included. -/
def columnRefs (target : Node) : List (List Name) :=
  (tree.nodes target).filterMap fun
    | .columnRef fields => some (fields.map Field.text)
    | _ => none

/-- What `_RelationCollector` notes at one node. -/
def relationsAt (casefold : Name → Name) : Node → List Name
  | .rangeVar _ relname as =>
      (if relname = [] then [] else [casefold relname]) ++
        match as with
        | some ⟨c :: name, _⟩ => [casefold (c :: name)]
        | _ => []
  | _ => []

/-- `_relation_names`: the names and aliases of the tables of a query, at any depth. -/
def relationNames (casefold : Name → Name) (select : Node) : List Name :=
  (tree.nodes select).flatMap (relationsAt casefold)

/-! ### The analysis -/

section Analysis

variable (casefold : Name → Name) {τ : Type} (policy : MaskingPolicy τ)

/-- The loop of `_referenced_names` over the collected references. -/
def referencedNames (relations : List Name) : List (List Name) → Except QueryRejected (List Name)
  | [] => .ok []
  | fields :: rest =>
      match fields.getLast? with
      | none => referencedNames relations rest
      | some last =>
          -- `SELECT *` and `SELECT c.*`: such a position names no column
          if last = ['*'] then referencedNames relations rest
          else do
            refuseIf (fields.length = 1 ∧ casefold last ∈ relations) .wholeRowSerialization
            let names ← referencedNames relations rest
            return last :: names

/-- `_rule_for`: the rule that covers a referenced name, exceptions first. -/
def ruleFor (exported : List (Name × Nat)) (name : Name) : Option Nat :=
  if policy.excepts casefold name then none
  else
    match policy.rules.find? fun rule => rule.spec.matches casefold (some name) with
    | some rule => some rule.index
    | none => exported.lookup (casefold name)

/-- The rules that one branch contributes to a position. -/
def branchRules (index : Nat) (relations : List Name) (exported : List (Name × Nat))
    (branch : Node) : Except QueryRejected (List Nat) :=
  match branch.targetList[index]? with
  | none => .ok []
  | some target => do
      let names ← referencedNames casefold relations (columnRefs target)
      return names.filterMap (ruleFor casefold policy exported)

/-- `_position_rule`: the one rule found over all branches. -/
def positionRule (branches : List Node) (relations : List Name) (exported : List (Name × Nat))
    (index : Nat) : Except QueryRejected (Option Nat) := do
  let found ← branches.mapM (branchRules casefold policy index relations exported)
  match found.flatten with
  | [] => return none
  | rule :: rest =>
      if rest.all (· == rule) then return some rule
      else throw .ambiguousSensitiveExpression

/-- `dict.setdefault`: the first value of a key stays. -/
def setdefault (exported : List (Name × Nat)) (key : Name) (rule : Nat) : List (Name × Nat) :=
  if (exported.lookup key).isSome then exported else exported ++ [(key, rule)]

/-- The inner loop of `_exported_rules`: the names of one inner select with their rules. -/
def exportNames : List (Option Name × Option Nat) → List (Name × Nat) → List (Name × Nat)
  | [], exported => exported
  | (some (c :: name), some rule) :: rest, exported =>
      exportNames rest (setdefault exported (casefold (c :: name)) rule)
  | _ :: rest, exported => exportNames rest exported

/-- The outer loop of `_exported_rules`, over the inner selects. -/
def exportedRules (analyze : Node → Except QueryRejected (Option Sensitivity)) :
    List Node → List (Name × Nat) → Except QueryRejected (List (Name × Nat))
  | [], exported => .ok exported
  | inner :: rest, exported => do
      let rules ← analyze inner
      match rules with
      | none => exportedRules analyze rest exported
      | some rules =>
          exportedRules analyze rest
            (exportNames casefold ((outputNames inner).zip rules) exported)

/-- The common number of targets of the branches, when there is one and it is not zero. -/
def uniformWidth (branches : List Node) : Option Nat :=
  match branches.map fun branch => branch.targetList.length with
  | [] => none
  | width :: widths => if widths.all (· == width) && width != 0 then some width else none

/-- `_analyze_select`, with the number of levels still allowed. -/
def analyzeSelect : Nat → Node → Except QueryRejected (Option Sensitivity)
  | 0, _ => .ok none
  | levels + 1, select =>
      match uniformWidth (branches select) with
      | none => .ok none
      | some width => do
          let exported ← exportedRules casefold (analyzeSelect levels) (innerSelects select) []
          let rules ← (List.range width).mapM
            (positionRule casefold policy (branches select) (relationNames casefold select)
              exported)
          return some rules

/-- `analyze_sensitivity`: the sensitivity of each output position, or nothing. -/
def analyzeSensitivity (statement : Node) : Except QueryRejected (Option Sensitivity) :=
  if statement.isSelect then analyzeSelect casefold policy (maxDepth + 1) statement
  else .ok none

end Analysis

end MaskGateway.Sql
