import MaskGateway.Sql.Sensitivity

/-!
# `MaskGateway.Proofs.Sql.Sensitivity`: what the analysis of a statement answers

One lemma per function of `Sql/Sensitivity.lean`, in the order of the calls, each of the form
"it succeeds exactly when ..., and then its answer is ...". They end in the two facts that the
theorems about statements use:

* `analyzeSelect_hasRule_iff`: on a select that is not refused, the entry of a position is a
  rule exactly when the position is `Covered`, a predicate on the syntax alone;
* `refused_of_spellsRelation` and `accepts_of_empty`: under every policy the analysis refuses
  the statements with an analysed select that `SpellsRelation`, and without any rule it refuses
  only those.

Both go by induction on the levels that the recursion still has.
-/

set_option autoImplicit false

namespace MaskGateway.Proofs.Sql

open MaskGateway.Sql MaskGateway.Masking MaskGateway.Lib

variable {casefold : Name → Name} {τ : Type} {policy : MaskingPolicy τ}

/-! ### Branches -/

/-- The node is a set operation. -/
def isSetOperation : Node → Bool
  | .setOperation .. => true
  | _ => false

/-- Induction over the branches of a select: a set operation from its two sides, and every other
node for itself. -/
theorem branches_induction {P : Node → Prop}
    (setOperation : ∀ op all modifiers with_ larg rarg, P larg → P rarg →
      P (.setOperation op all modifiers with_ larg rarg))
    (plain : ∀ node, isSetOperation node = false → P node) (node : Node) : P node := by
  fun_induction branches node with
  | case1 op all modifiers with_ larg rarg ihl ihr =>
      exact setOperation op all modifiers with_ larg rarg ihl ihr
  | case2 node hnode =>
      refine plain node ?_
      cases node <;> first | rfl | exact (hnode _ _ _ _ _ _ rfl).elim

/-- A select that is no set operation is its only branch. -/
theorem branches_of_plain {node : Node} (h : isSetOperation node = false) :
    branches node = [node] := by
  cases node <;> first | rfl | cases h

/-! ### The names a target mentions -/

/-- The column name of a collected reference; a reference that ends in a star has none. -/
def columnName? (fields : List Name) : Option Name :=
  match fields.getLast? with
  | none => none
  | some last => if last = ['*'] then none else some last

/-- The column names that a target mentions. -/
def targetNames (target : Node) : List Name :=
  (columnRefs target).filterMap columnName?

/-- A reference of one field that spells one of the relations. -/
def IsWholeRow (casefold : Name → Name) (relations : List Name) (fields : List Name) : Prop :=
  ∃ name, fields = [name] ∧ name ≠ ['*'] ∧ casefold name ∈ relations

theorem isWholeRow_iff {relations : List Name} {fields : List Name} {last : Name}
    (hlast : fields.getLast? = some last) (hstar : last ≠ ['*']) :
    IsWholeRow casefold relations fields ↔ fields.length = 1 ∧ casefold last ∈ relations := by
  constructor
  · rintro ⟨name, rfl, -, hmem⟩
    have hname : name = last := by simpa using hlast
    exact ⟨rfl, hname ▸ hmem⟩
  · rintro ⟨hlen, hmem⟩
    obtain ⟨name, rfl⟩ := List.length_eq_one_iff.mp hlen
    have hname : name = last := by simpa using hlast
    exact ⟨name, rfl, hname ▸ hstar, hname ▸ hmem⟩

/-- `_referenced_names` raises on a whole row and otherwise returns the names. -/
theorem referencedNames_eq_ok {relations : List Name} : ∀ {refs : List (List Name)}
    {names : List Name},
    referencedNames casefold relations refs = .ok names ↔
      (∀ fields ∈ refs, ¬ IsWholeRow casefold relations fields) ∧
        names = refs.filterMap columnName? := by
  intro refs
  induction refs with
  | nil => intro names; simp [referencedNames, eq_comm]
  | cons fields rest ih =>
      intro names
      rw [List.forall_mem_cons]
      cases hlast : fields.getLast? with
      | none =>
          -- no field at all: neither a name nor a whole row
          have hfields : fields = [] := List.getLast?_eq_none_iff.mp hlast
          have hrow : ¬ IsWholeRow casefold relations fields := by
            rintro ⟨name, hname, -⟩
            rw [hfields] at hname
            cases hname
          have hname : columnName? fields = none := by rw [columnName?, hlast]
          rw [referencedNames, hlast, List.filterMap_cons_none hname]
          simp only [ih, hrow, not_false_eq_true, true_and]
      | some last =>
          by_cases hstar : last = ['*']
          · have hrow : ¬ IsWholeRow casefold relations fields := by
              rintro ⟨name, rfl, hne, -⟩
              have hname : name = last := by simpa using hlast
              exact hne (hname.trans hstar)
            have hname : columnName? fields = none := by rw [columnName?, hlast]; simp [hstar]
            rw [referencedNames, hlast, List.filterMap_cons_none hname]
            simp only [hstar, if_true, ih, hrow, not_false_eq_true, true_and]
          · have hname : columnName? fields = some last := by
              rw [columnName?, hlast]; simp [hstar]
            rw [referencedNames, hlast, List.filterMap_cons_some hname,
              isWholeRow_iff hlast hstar]
            simp only [hstar, if_false, bind_eq_ok, refuseIf_eq_ok, ih, pure_eq_ok]
            constructor
            · rintro ⟨_, hrow, _, ⟨hrest, rfl⟩, rfl⟩
              exact ⟨⟨hrow, hrest⟩, rfl⟩
            · rintro ⟨⟨hrow, hrest⟩, rfl⟩
              exact ⟨(), hrow, _, ⟨hrest, rfl⟩, rfl⟩

/-! ### The rule of a name -/

/-- A referenced name has a rule when no exception covers it and a rule does, or its folded
form is exported. -/
theorem ruleFor_isSome_iff {exported : List (Name × Nat)} {name : Name} :
    (ruleFor casefold policy exported name).isSome = true ↔
      policy.excepts casefold name = false ∧
        (policy.covers casefold name = true ∨
          (exported.lookup (casefold name)).isSome = true) := by
  rw [ruleFor]
  cases hexc : policy.excepts casefold name with
  | true => simp
  | false =>
      cases hfind : policy.rules.find? fun rule => rule.spec.matches casefold (some name) with
      | some rule =>
          have hcov : policy.covers casefold name = true := by
            have hrule := List.find?_some hfind
            rw [MaskingPolicy.covers, List.any_eq_true]
            exact ⟨rule, List.mem_of_find?_eq_some hfind, by simpa using hrule⟩
          simp [hcov]
      | none =>
          have hcov : policy.covers casefold name = false := by
            rw [MaskingPolicy.covers, List.any_eq_false]
            exact List.find?_eq_none.mp hfind
          simp [hcov]

/-! ### The rule of a position -/

/-- Some branch mentions, at the position, a name with a rule. -/
def MentionsRule (casefold : Name → Name) (policy : MaskingPolicy τ)
    (exported : List (Name × Nat)) (branches : List Node) (index : Nat) : Prop :=
  ∃ branch ∈ branches, ∃ target, branch.targetList[index]? = some target ∧
    ∃ name ∈ targetNames target, (ruleFor casefold policy exported name).isSome = true

/-- What one branch contributes. -/
theorem branchRules_eq_ok {index : Nat} {relations : List Name} {exported : List (Name × Nat)}
    {branch : Node} {rules : List Nat} :
    branchRules casefold policy index relations exported branch = .ok rules ↔
      (∀ target, branch.targetList[index]? = some target →
        ∀ fields ∈ columnRefs target, ¬ IsWholeRow casefold relations fields) ∧
      rules = (branch.targetList[index]?.map targetNames).elim []
        (List.filterMap (ruleFor casefold policy exported)) := by
  rw [branchRules]
  cases branch.targetList[index]? with
  | none => simp [eq_comm]
  | some target =>
      simp only [bind_eq_ok, referencedNames_eq_ok, pure_eq_ok, Option.some.injEq,
        forall_eq', Option.map_some, Option.elim_some, targetNames]
      constructor
      · rintro ⟨names, ⟨hrow, rfl⟩, rfl⟩
        exact ⟨hrow, rfl⟩
      · rintro ⟨hrow, rfl⟩
        exact ⟨_, ⟨hrow, rfl⟩, rfl⟩

/-- The rules of all branches together, when none is refused. -/
theorem branchRules_mem {index : Nat} {relations : List Name} {exported : List (Name × Nat)}
    {branches : List Node} {found : List (List Nat)}
    (h : List.Forall₂ (fun branch rules =>
      branchRules casefold policy index relations exported branch = .ok rules) branches found)
    (rule : Nat) :
    rule ∈ found.flatten ↔
      ∃ branch ∈ branches, ∃ target, branch.targetList[index]? = some target ∧
        ∃ name ∈ targetNames target, ruleFor casefold policy exported name = some rule := by
  induction h with
  | nil => simp
  | @cons branch rules branches found hb _ ih =>
      rw [List.flatten_cons, List.mem_append, ih, (branchRules_eq_ok.mp hb).2]
      simp only [List.exists_mem_cons_iff]
      refine or_congr_left ?_
      cases branch.targetList[index]? with
      | none => simp
      | some target => simp

/-- The answer for a position, when it is not refused. -/
theorem positionRule_eq_ok {branches : List Node} {relations : List Name}
    {exported : List (Name × Nat)} {index : Nat} {answer : Option Nat}
    (h : positionRule casefold policy branches relations exported index = .ok answer) :
    (answer.isSome = true ↔ MentionsRule casefold policy exported branches index) ∧
      ∀ rule, answer = some rule →
        ∃ name, ruleFor casefold policy exported name = some rule := by
  simp only [positionRule, bind_eq_ok, mapM_eq_ok] at h
  obtain ⟨found, hfound, h⟩ := h
  have hmem := branchRules_mem hfound
  have hiff : (∃ rule, rule ∈ found.flatten) ↔
      MentionsRule casefold policy exported branches index := by
    simp only [hmem, MentionsRule, Option.isSome_iff_exists]
    constructor
    · rintro ⟨rule, branch, hb, target, ht, name, hn, hr⟩
      exact ⟨branch, hb, target, ht, name, hn, rule, hr⟩
    · rintro ⟨branch, hb, target, ht, name, hn, rule, hr⟩
      exact ⟨rule, branch, hb, target, ht, name, hn, hr⟩
  rw [← hiff]
  cases hflat : found.flatten with
  | nil =>
      rw [hflat] at h
      have hanswer : answer = none := (pure_eq_ok.mp h).symm
      simp [hanswer]
  | cons rule rest =>
      rw [hflat] at h
      simp only [apply_ite (· = Except.ok answer), pure_eq_ok, throw_eq_ok] at h
      have hanswer : answer = some rule := by
        split at h
        · exact h.symm
        · exact h.elim
      have hrule : rule ∈ found.flatten := by simp [hflat]
      obtain ⟨_, _, _, _, name, _, hname⟩ := (hmem rule).mp hrule
      refine ⟨by simp [hanswer], ?_⟩
      rintro rule' hrule'
      rw [hanswer] at hrule'
      exact ⟨name, hname.trans hrule'⟩

/-! ### The exported names -/

theorem lookup_setdefault {exported : List (Name × Nat)} {key key' : Name} {rule : Nat} :
    ((setdefault exported key rule).lookup key').isSome = true ↔
      (exported.lookup key').isSome = true ∨ key = key' := by
  rw [setdefault]
  by_cases hkey : key = key'
  · subst hkey
    cases h : (exported.lookup key).isSome with
    | true => simp [h]
    | false =>
        have hnone : exported.lookup key = none := by simpa using h
        simp [List.lookup_append, hnone]
  · have hne : ¬ key' = key := fun h => hkey h.symm
    cases h : (exported.lookup key).isSome with
    | true => simp [hkey]
    | false => simp [List.lookup_append, hkey, hne]

/-- A key is in the map after the names of one inner select when it was before or one of the
names with a rule folds to it. -/
theorem lookup_exportNames {key : Name} : ∀ {pairs : List (Option Name × Option Nat)}
    {exported : List (Name × Nat)},
    ((exportNames casefold pairs exported).lookup key).isSome = true ↔
      (exported.lookup key).isSome = true ∨
        ∃ name rule, (some name, some rule) ∈ pairs ∧ name ≠ [] ∧ casefold name = key := by
  intro pairs exported
  fun_induction exportNames casefold pairs exported with
  | case1 exported => simp
  | case2 c name rule rest exported ih =>
      rw [ih, lookup_setdefault, or_assoc]
      refine or_congr_right ?_
      constructor
      · rintro (hkey | ⟨name', rule', hmem, h⟩)
        · exact ⟨c :: name, rule, List.mem_cons_self, by simp, hkey⟩
        · exact ⟨name', rule', List.mem_cons_of_mem _ hmem, h⟩
      · rintro ⟨name', rule', hmem, hne, hkey⟩
        rcases List.mem_cons.mp hmem with heq | hmem
        · simp only [Prod.mk.injEq, Option.some.injEq] at heq
          exact Or.inl (heq.1 ▸ hkey)
        · exact Or.inr ⟨name', rule', hmem, hne, hkey⟩
  | case3 pair rest exported hpair ih =>
      rw [ih]
      refine or_congr_right ?_
      constructor
      · rintro ⟨name, rule, hmem, h⟩
        exact ⟨name, rule, List.mem_cons_of_mem _ hmem, h⟩
      · rintro ⟨name, rule, hmem, hne, hkey⟩
        rcases List.mem_cons.mp hmem with heq | hmem
        · -- the skipped pair has no name, an empty one or no rule
          cases name with
          | nil => exact absurd rfl hne
          | cons c name => exact (hpair c name rule heq.symm).elim
        · exact ⟨name, rule, hmem, hne, hkey⟩

/-- Output `j` of an inner select is exported under the folded name `key`. -/
def Exports (casefold : Name → Name) (inner : Node) (j : Nat) (key : Name) : Prop :=
  ∃ name, (outputNames inner)[j]? = some (some name) ∧ name ≠ [] ∧ casefold name = key

/-- The entry of position `i` of an answer is a rule. -/
def HasRule (answer : Option Sensitivity) (i : Nat) : Prop :=
  ∃ rules rule, answer = some rules ∧ rules[i]? = some (some rule)

theorem mem_zip_iff {names : List (Option Name)} {rules : List (Option Nat)} {name : Name}
    {rule : Nat} : (some name, some rule) ∈ names.zip rules ↔
      ∃ j : Nat, names[j]? = some (some name) ∧ rules[j]? = some (some rule) := by
  rw [List.mem_iff_getElem?]
  simp only [List.getElem?_zip_eq_some]

/-- The map built from all inner selects, when none of them is refused. -/
theorem exportedRules_eq_ok {analyze : Node → Except QueryRejected (Option Sensitivity)} :
    ∀ {inners : List Node} {exported result : List (Name × Nat)},
    exportedRules casefold analyze inners exported = .ok result →
      (∀ inner ∈ inners, ∃ answer, analyze inner = .ok answer) ∧
      ∀ key, (result.lookup key).isSome = true ↔ (exported.lookup key).isSome = true ∨
        ∃ inner ∈ inners, ∃ answer, analyze inner = .ok answer ∧
          ∃ j, HasRule answer j ∧ Exports casefold inner j key := by
  intro inners
  induction inners with
  | nil =>
      intro exported result h
      have heq : exported = result := by simpa [exportedRules] using h
      subst heq
      simp
  | cons inner rest ih =>
      intro exported result h
      rw [exportedRules, bind_eq_ok] at h
      obtain ⟨answer, hanswer, h⟩ := h
      cases answer with
      | none =>
          obtain ⟨hall, hkey⟩ := ih h
          refine ⟨List.forall_mem_cons.mpr ⟨⟨_, hanswer⟩, hall⟩, fun key => ?_⟩
          rw [hkey, List.exists_mem_cons_iff]
          refine or_congr_right ⟨Or.inr, ?_⟩
          rintro (⟨answer, ha, j, ⟨rules, rule, hr, -⟩, -⟩ | hrest)
          · rw [hanswer, hr] at ha
            cases ha
          · exact hrest
      | some rules =>
          obtain ⟨hall, hkey⟩ := ih h
          refine ⟨List.forall_mem_cons.mpr ⟨⟨_, hanswer⟩, hall⟩, fun key => ?_⟩
          rw [hkey, lookup_exportNames, or_assoc, List.exists_mem_cons_iff]
          refine or_congr_right (or_congr_left ?_)
          simp only [mem_zip_iff]
          constructor
          · rintro ⟨name, rule, ⟨j, hn, hr⟩, hne, hk⟩
            exact ⟨_, hanswer, j, ⟨rules, rule, rfl, hr⟩, name, hn, hne, hk⟩
          · rintro ⟨answer, ha, j, ⟨rules', rule, rfl, hr⟩, name, hn, hne, hk⟩
            have heq : rules = rules' := by simpa [hanswer] using ha
            subst heq
            exact ⟨name, rule, ⟨j, hn, hr⟩, hne, hk⟩

/-! ### A whole select -/

/-- Position `i` of a select is covered within a number of levels: some branch mentions there a
name without exception that a rule covers, or that an inner select exports from a position
covered in turn within one level less. -/
inductive Covered (casefold : Name → Name) (policy : MaskingPolicy τ) :
    Nat → Node → Nat → Prop
  | direct {levels : Nat} {select branch target : Node} {i width : Nat} {name : Name} :
      uniformWidth (branches select) = some width →
      branch ∈ branches select → branch.targetList[i]? = some target →
      name ∈ targetNames target →
      policy.excepts casefold name = false → policy.covers casefold name = true →
      Covered casefold policy (levels + 1) select i
  | exported {levels : Nat} {select branch target inner : Node} {i j width : Nat}
      {name : Name} :
      uniformWidth (branches select) = some width →
      branch ∈ branches select → branch.targetList[i]? = some target →
      name ∈ targetNames target →
      policy.excepts casefold name = false →
      inner ∈ innerSelects select → Exports casefold inner j (casefold name) →
      Covered casefold policy levels inner j →
      Covered casefold policy (levels + 1) select i

/-- The parts of an analysis that is not refused. -/
theorem analyzeSelect_eq_ok {levels : Nat} {select : Node} {answer : Option Sensitivity}
    (h : analyzeSelect casefold policy (levels + 1) select = .ok answer) :
    (uniformWidth (branches select) = none ∧ answer = none) ∨
      ∃ width exported rules, uniformWidth (branches select) = some width ∧
        answer = some rules ∧
        exportedRules casefold (analyzeSelect casefold policy levels) (innerSelects select) [] =
          .ok exported ∧
        List.Forall₂ (fun i entry => positionRule casefold policy (branches select)
          (relationNames casefold select) exported i = .ok entry) (List.range width) rules := by
  rw [analyzeSelect] at h
  cases hwidth : uniformWidth (branches select) with
  | none =>
      rw [hwidth] at h
      exact Or.inl ⟨rfl, by simpa [eq_comm] using h⟩
  | some width =>
      rw [hwidth] at h
      simp only [bind_eq_ok, mapM_eq_ok, pure_eq_ok] at h
      obtain ⟨exported, hexported, rules, hrules, rfl⟩ := h
      exact Or.inr ⟨width, exported, rules, rfl, rfl, hexported, hrules⟩

/-- There is a common width when there is a branch, all have that many targets and it is not
zero. -/
theorem uniformWidth_eq_some {bs : List Node} {width : Nat} :
    uniformWidth bs = some width ↔
      bs ≠ [] ∧ width ≠ 0 ∧ ∀ branch ∈ bs, branch.targetList.length = width := by
  cases bs with
  | nil => simp [uniformWidth]
  | cons first rest =>
      simp only [uniformWidth, List.map_cons, Option.ite_none_right_eq_some, Bool.and_eq_true,
        List.all_eq_true, List.mem_map, beq_iff_eq, bne_iff_ne, forall_exists_index, and_imp,
        forall_apply_eq_imp_iff₂, Option.some.injEq, List.forall_mem_cons]
      constructor
      · rintro ⟨⟨hall, hne⟩, rfl⟩
        exact ⟨by simp, hne, rfl, hall⟩
      · rintro ⟨-, hne, rfl, hall⟩
        exact ⟨⟨hall, hne⟩, rfl⟩

/-- Every branch has as many targets as the common width. -/
theorem length_of_uniformWidth {bs : List Node} {width : Nat}
    (h : uniformWidth bs = some width) {branch : Node} (hb : branch ∈ bs) :
    branch.targetList.length = width :=
  (uniformWidth_eq_some.mp h).2.2 branch hb

/-- The entries of an answer, position by position. -/
theorem forall₂_range_getElem? {P : Nat → Option Nat → Prop} {width : Nat}
    {rules : List (Option Nat)} (h : List.Forall₂ P (List.range width) rules) {i : Nat} :
    (i < width → ∃ entry, rules[i]? = some entry ∧ P i entry) ∧
      (∀ entry, rules[i]? = some entry → i < width ∧ P i entry) := by
  have hlen : rules.length = width := by simpa using h.length_eq.symm
  have hget := List.forall₂_iff_get.mp h
  constructor
  · intro hi
    have hi' : i < rules.length := hlen.symm ▸ hi
    refine ⟨rules[i], List.getElem?_eq_getElem hi', ?_⟩
    simpa using hget.2 i (by simpa using hi) hi'
  · intro entry hentry
    obtain ⟨hi', rfl⟩ := List.getElem?_eq_some_iff.mp hentry
    refine ⟨hlen ▸ hi', ?_⟩
    simpa using hget.2 i (by simpa [hlen] using hi') hi'

/-- A position below the width that mentions a name with a rule has one in the answer. -/
theorem hasRule_of_mentionsRule {width i : Nat} {select : Node} {rules : Sensitivity}
    {exported : List (Name × Nat)}
    (hrules : List.Forall₂ (fun i entry => positionRule casefold policy (branches select)
      (relationNames casefold select) exported i = .ok entry) (List.range width) rules)
    (hwidth : uniformWidth (branches select) = some width)
    (h : MentionsRule casefold policy exported (branches select) i) :
    HasRule (some rules) i := by
  obtain ⟨branch, hb, target, ht, -⟩ := id h
  have hlt : i < width :=
    length_of_uniformWidth hwidth hb ▸ (List.getElem?_eq_some_iff.mp ht).1
  obtain ⟨entry, hentry, hpos⟩ := (forall₂_range_getElem? hrules).1 hlt
  obtain ⟨rule, rfl⟩ := Option.isSome_iff_exists.mp ((positionRule_eq_ok hpos).1.mpr h)
  exact ⟨rules, rule, rfl, hentry⟩

/-- **What a rule in the answer means.** On a select that is not refused, the entry of a
position is a rule exactly when the position is covered within the levels left. -/
theorem analyzeSelect_hasRule_iff : ∀ {levels : Nat} {select : Node}
    {answer : Option Sensitivity},
    analyzeSelect casefold policy levels select = .ok answer →
    ∀ i, HasRule answer i ↔ Covered casefold policy levels select i := by
  intro levels
  induction levels with
  | zero =>
      intro select answer h i
      constructor
      · rintro ⟨rules, rule, rfl, -⟩
        rw [analyzeSelect] at h
        cases h
      · intro hcov
        cases hcov
  | succ levels ih =>
      intro select answer h i
      rcases analyzeSelect_eq_ok h with ⟨hwidth, rfl⟩ |
        ⟨width, exported, rules, hwidth, rfl, hexported, hrules⟩
      · constructor
        · rintro ⟨_, _, hnone, -⟩
          cases hnone
        · intro hcov
          cases hcov with
          | direct hw => rw [hwidth] at hw; cases hw
          | exported hw => rw [hwidth] at hw; cases hw
      · obtain ⟨hall, hlookup⟩ := exportedRules_eq_ok hexported
        constructor
        · -- the entry comes from a name that some branch mentions
          rintro ⟨_, rule, ⟨rfl⟩, hentry⟩
          obtain ⟨_, hpos⟩ := (forall₂_range_getElem? hrules).2 _ hentry
          obtain ⟨branch, hb, target, ht, name, hn, hrule⟩ :=
            (positionRule_eq_ok hpos).1.mp rfl
          rw [ruleFor_isSome_iff] at hrule
          obtain ⟨hexc, hcov | hexp⟩ := hrule
          · exact Covered.direct hwidth hb ht hn hexc hcov
          · rcases (hlookup _).mp hexp with hnil | ⟨inner, hi, ans, hans, j, hj, hexports⟩
            · cases hnil
            · exact Covered.exported hwidth hb ht hn hexc hi hexports ((ih hans j).mp hj)
        · intro hcov
          refine hasRule_of_mentionsRule hrules hwidth ?_
          cases hcov with
          | direct hw hb ht hn hexc hcov =>
              exact ⟨_, hb, _, ht, _, hn, ruleFor_isSome_iff.mpr ⟨hexc, Or.inl hcov⟩⟩
          | exported hw hb ht hn hexc hi hexports hcov =>
              obtain ⟨ans, hans⟩ := hall _ hi
              have hexp := (hlookup _).mpr
                (Or.inr ⟨_, hi, ans, hans, _, (ih hans _).mpr hcov, hexports⟩)
              exact ⟨_, hb, _, ht, _, hn, ruleFor_isSome_iff.mpr ⟨hexc, Or.inr hexp⟩⟩

/-- A position that mentions a sensitive name has a rule, however deep the rest is nested. -/
theorem hasRule_of_direct {levels i width : Nat} {select branch target : Node} {name : Name}
    {answer : Option Sensitivity}
    (h : analyzeSelect casefold policy (levels + 1) select = .ok answer)
    (hwidth : uniformWidth (branches select) = some width) (hb : branch ∈ branches select)
    (ht : branch.targetList[i]? = some target) (hn : name ∈ targetNames target)
    (hexc : policy.excepts casefold name = false) (hcov : policy.covers casefold name = true) :
    HasRule answer i :=
  (analyzeSelect_hasRule_iff h i).mpr (Covered.direct hwidth hb ht hn hexc hcov)

/-- A node that is no select has no common width, so it is neither analysed nor covered. -/
theorem uniformWidth_of_not_isSelect {node : Node} (h : node.isSelect = false) :
    uniformWidth (branches node) = none := by
  cases node <;> first | rfl | cases h

/-- For a node that is no select, the analysis of a select answers nothing too. -/
theorem analyzeSensitivity_eq (statement : Node) :
    analyzeSensitivity casefold policy statement =
      analyzeSelect casefold policy (maxDepth + 1) statement := by
  cases hselect : statement.isSelect with
  | true => rw [analyzeSensitivity, if_pos hselect]
  | false =>
      rw [analyzeSensitivity, hselect, analyzeSelect, uniformWidth_of_not_isSelect hselect]
      rfl

/-! ### The rules that can appear -/

/-- The rule of a name is one of the policy's. -/
theorem ruleFor_lt {exported : List (Name × Nat)} {name : Name} {rule : Nat}
    (hexported : ∀ pair ∈ exported, pair.2 < policy.rules.length)
    (h : ruleFor casefold policy exported name = some rule) : rule < policy.rules.length := by
  rw [ruleFor] at h
  split at h
  · cases h
  · split at h
    · rename_i rule' hfind
      obtain ⟨i, hi⟩ := List.mem_iff_getElem?.mp (List.mem_of_find?_eq_some hfind)
      have hindex : rule'.index = rule := by simpa using h
      rw [← hindex, policy.index_eq i rule' hi]
      exact (List.getElem?_eq_some_iff.mp hi).1
    · obtain ⟨before, after, hsplit, -⟩ := List.lookup_eq_some_iff.mp h
      exact hexported (casefold name, rule) (by simp [hsplit])

/-- A pair in the map was there before or comes from a name of the inner select. -/
theorem mem_exportNames {pair : Name × Nat} : ∀ {pairs : List (Option Name × Option Nat)}
    {exported : List (Name × Nat)}, pair ∈ exportNames casefold pairs exported →
      pair ∈ exported ∨ ∃ name, (some name, some pair.2) ∈ pairs ∧ name ≠ [] ∧
        casefold name = pair.1 := by
  intro pairs exported
  fun_induction exportNames casefold pairs exported with
  | case1 exported => exact Or.inl
  | case2 c name rule rest exported ih =>
      intro h
      rcases ih h with h | ⟨name', hmem, hname⟩
      · rw [setdefault] at h
        split at h
        · exact Or.inl h
        · rcases List.mem_append.mp h with h | h
          · exact Or.inl h
          · rw [List.mem_singleton.mp h]
            exact Or.inr ⟨c :: name, List.mem_cons_self, by simp, rfl⟩
      · exact Or.inr ⟨name', List.mem_cons_of_mem _ hmem, hname⟩
  | case3 first rest exported _ ih =>
      intro h
      rcases ih h with h | ⟨name', hmem, hname⟩
      · exact Or.inl h
      · exact Or.inr ⟨name', List.mem_cons_of_mem _ hmem, hname⟩

/-- The map holds only rules of the policy when the answers for the inner selects do. -/
theorem exportedRules_lt {analyze : Node → Except QueryRejected (Option Sensitivity)}
    {bound : Nat} : ∀ {inners : List Node} {exported result : List (Name × Nat)},
    (∀ inner ∈ inners, ∀ answer, analyze inner = .ok answer →
      ∀ rules, answer = some rules → ∀ rule, some rule ∈ rules → rule < bound) →
    (∀ pair ∈ exported, pair.2 < bound) →
    exportedRules casefold analyze inners exported = .ok result →
    ∀ pair ∈ result, pair.2 < bound := by
  intro inners
  induction inners with
  | nil =>
      intro exported result _ hexported h
      have heq : exported = result := by simpa [exportedRules] using h
      exact heq ▸ hexported
  | cons inner rest ih =>
      intro exported result hinner hexported h
      rw [exportedRules, bind_eq_ok] at h
      obtain ⟨answer, hanswer, h⟩ := h
      have hrest := (List.forall_mem_cons.mp hinner).2
      cases answer with
      | none => exact ih hrest hexported h
      | some rules =>
          refine ih hrest ?_ h
          intro pair hpair
          rcases mem_exportNames hpair with hpair | ⟨name, hmem, -⟩
          · exact hexported pair hpair
          · have hrule := (List.of_mem_zip hmem).2
            exact hinner inner List.mem_cons_self _ hanswer _ rfl _ hrule

/-- Every rule in an answer is one of the policy's. -/
theorem analyzeSelect_lt : ∀ {levels : Nat} {select : Node} {answer : Option Sensitivity},
    analyzeSelect casefold policy levels select = .ok answer →
    ∀ rules, answer = some rules → ∀ rule, some rule ∈ rules →
      rule < policy.rules.length := by
  intro levels
  induction levels with
  | zero =>
      intro select answer h rules hrules
      rw [analyzeSelect] at h
      rw [hrules] at h
      cases h
  | succ levels ih =>
      intro select answer h rules hrules rule hmem
      rcases analyzeSelect_eq_ok h with ⟨-, rfl⟩ |
        ⟨width, exported, rules', hwidth, rfl, hexported, hpos⟩
      · cases hrules
      · cases hrules
        have hlt := exportedRules_lt (fun inner _ answer ha => ih ha) (by simp) hexported
        obtain ⟨i, hi⟩ := List.mem_iff_getElem?.mp hmem
        obtain ⟨_, hpos⟩ := (forall₂_range_getElem? hpos).2 _ hi
        obtain ⟨name, hname⟩ := (positionRule_eq_ok hpos).2 rule rfl
        exact ruleFor_lt hlt hname

/-- An answer with entries has one per target of every branch. -/
theorem analyzeSelect_width {levels : Nat} {select : Node} {rules : Sensitivity}
    (h : analyzeSelect casefold policy (levels + 1) select = .ok (some rules)) :
    uniformWidth (branches select) = some rules.length := by
  rcases analyzeSelect_eq_ok h with ⟨_, hnone⟩ | ⟨width, _, rules', hwidth, hr, _, hpos⟩
  · cases hnone
  · cases hr
    have hlen : width = rules.length := by simpa using hpos.length_eq
    rw [hwidth, hlen]

/-- A select whose branches have a common width is answered with entries. -/
theorem analyzeSelect_some {levels width : Nat} {select : Node} {answer : Option Sensitivity}
    (h : analyzeSelect casefold policy (levels + 1) select = .ok answer)
    (hwidth : uniformWidth (branches select) = some width) :
    ∃ rules, answer = some rules ∧ rules.length = width := by
  rcases analyzeSelect_eq_ok h with ⟨hnone, _⟩ | ⟨width', _, rules, hw, hr, _, hpos⟩
  · rw [hwidth] at hnone
    cases hnone
  · rw [hwidth] at hw
    cases hw
    exact ⟨rules, hr, by simpa using hpos.length_eq.symm⟩

/-! ### What is refused -/

/-- The selects that an analysis with `levels` levels left looks at. -/
inductive Analysed : Nat → Node → Node → Prop
  | here {levels width : Nat} {select : Node} :
      uniformWidth (branches select) = some width → Analysed (levels + 1) select select
  | inner {levels width : Nat} {select inner analysed : Node} :
      uniformWidth (branches select) = some width → inner ∈ innerSelects select →
      Analysed levels inner analysed → Analysed (levels + 1) select analysed

/-- Some target of the select has a reference of one field that spells a relation of it. -/
def SpellsRelation (casefold : Name → Name) (select : Node) : Prop :=
  ∃ branch ∈ branches select, ∃ target ∈ branch.targetList, ∃ fields ∈ columnRefs target,
    IsWholeRow casefold (relationNames casefold select) fields

/-- A position that is not refused has no whole row in any branch. -/
theorem not_isWholeRow_of_positionRule {branches : List Node} {relations : List Name}
    {exported : List (Name × Nat)} {index : Nat} {answer : Option Nat}
    (h : positionRule casefold policy branches relations exported index = .ok answer)
    {branch target : Node} (hb : branch ∈ branches)
    (ht : branch.targetList[index]? = some target) {fields : List Name}
    (hf : fields ∈ columnRefs target) : ¬ IsWholeRow casefold relations fields := by
  simp only [positionRule, bind_eq_ok] at h
  obtain ⟨found, hfound, -⟩ := h
  obtain ⟨rules, hrules⟩ := exists_mapM_eq_ok.mp ⟨found, hfound⟩ branch hb
  exact (branchRules_eq_ok.mp hrules).1 target ht fields hf

/-- An analysed select that spells a relation makes the whole analysis raise. -/
theorem refused_of_spellsRelation {levels : Nat} {select analysed : Node}
    (ha : Analysed levels select analysed) (hs : SpellsRelation casefold analysed) :
    ∀ answer, analyzeSelect casefold policy levels select ≠ .ok answer := by
  induction ha with
  | @here levels width select hwidth =>
      intro answer h
      rcases analyzeSelect_eq_ok h with ⟨hnone, -⟩ | ⟨width', exported, rules, hw, -, -, hpos⟩
      · rw [hwidth] at hnone
        cases hnone
      · obtain ⟨branch, hb, target, ht, fields, hf, hrow⟩ := hs
        obtain ⟨i, hi⟩ := List.mem_iff_getElem?.mp ht
        have hlt : i < width' :=
          length_of_uniformWidth hw hb ▸ (List.getElem?_eq_some_iff.mp hi).1
        obtain ⟨entry, _, hentry⟩ := (forall₂_range_getElem? hpos).1 hlt
        exact not_isWholeRow_of_positionRule hentry hb hi hf hrow
  | @inner levels width select inner analysed hwidth hi _ ih =>
      intro answer h
      rcases analyzeSelect_eq_ok h with ⟨hnone, -⟩ | ⟨_, exported, _, _, -, hexported, -⟩
      · rw [hwidth] at hnone
        cases hnone
      · obtain ⟨answer', h'⟩ := (exportedRules_eq_ok hexported).1 inner hi
        exact ih hs answer' h'

theorem exists_exportedRules {analyze : Node → Except QueryRejected (Option Sensitivity)} :
    ∀ {inners : List Node}, (∀ inner ∈ inners, ∃ answer, analyze inner = .ok answer) →
    ∀ exported, ∃ result, exportedRules casefold analyze inners exported = .ok result := by
  intro inners
  induction inners with
  | nil => intro _ exported; exact ⟨exported, rfl⟩
  | cons inner rest ih =>
      intro hall exported
      obtain ⟨⟨answer, hanswer⟩, hrest⟩ := List.forall_mem_cons.mp hall
      simp only [exportedRules, bind_eq_ok]
      cases answer with
      | none =>
          obtain ⟨result, hresult⟩ := ih hrest exported
          exact ⟨result, none, hanswer, hresult⟩
      | some rules =>
          obtain ⟨result, hresult⟩ := ih hrest _
          exact ⟨result, some rules, hanswer, hresult⟩

/-- Without rules no name has one. -/
theorem ruleFor_of_empty (hempty : policy.rules = []) {name : Name} :
    ruleFor casefold policy [] name = none := by
  rw [ruleFor, hempty]
  split <;> rfl

/-- Without rules a position is refused only for a whole row. -/
theorem positionRule_of_empty (hempty : policy.rules = []) {branches : List Node}
    {relations : List Name} {index : Nat}
    (h : ∀ branch ∈ branches, ∀ target, branch.targetList[index]? = some target →
      ∀ fields ∈ columnRefs target, ¬ IsWholeRow casefold relations fields) :
    positionRule casefold policy branches relations [] index = .ok none := by
  have hall : ∀ branch ∈ branches,
      ∃ rules, branchRules casefold policy index relations [] branch = .ok rules := by
    intro branch hb
    exact ⟨_, branchRules_eq_ok.mpr ⟨h branch hb, rfl⟩⟩
  obtain ⟨found, hfound⟩ := exists_mapM_eq_ok.mpr hall
  have hflat : found.flatten = [] := by
    rw [List.eq_nil_iff_forall_not_mem]
    intro rule hrule
    obtain ⟨_, _, _, _, name, _, hname⟩ := (branchRules_mem (mapM_eq_ok.mp hfound) rule).mp hrule
    rw [ruleFor_of_empty hempty] at hname
    cases hname
  rw [positionRule, bind_eq_ok]
  exact ⟨found, hfound, by rw [hflat]; rfl⟩

/-- Without rules a statement is refused only for a select that spells a relation. -/
theorem accepts_of_empty (hempty : policy.rules = []) : ∀ {levels : Nat} {select : Node},
    (∀ analysed, Analysed levels select analysed → ¬ SpellsRelation casefold analysed) →
    ∃ answer, analyzeSelect casefold policy levels select = .ok answer := by
  intro levels
  induction levels with
  | zero => intro select _; exact ⟨none, rfl⟩
  | succ levels ih =>
      intro select hspells
      cases hwidth : uniformWidth (branches select) with
      | none => exact ⟨none, by rw [analyzeSelect, hwidth]⟩
      | some width =>
          have hinner : ∀ inner ∈ innerSelects select,
              ∃ answer, analyzeSelect casefold policy levels inner = .ok answer := by
            intro inner hi
            exact ih fun analysed ha => hspells analysed (Analysed.inner hwidth hi ha)
          obtain ⟨exported, hexported⟩ := exists_exportedRules hinner []
          -- an exported rule would be a rule of the policy
          have hnil : exported = [] := by
            rw [List.eq_nil_iff_forall_not_mem]
            intro pair hpair
            have hlt := exportedRules_lt (fun inner _ answer ha => analyzeSelect_lt ha)
              (by simp) hexported pair hpair
            rw [hempty] at hlt
            exact Nat.not_lt_zero _ hlt
          subst hnil
          have hpos : ∀ i ∈ List.range width, ∃ entry, positionRule casefold policy
              (branches select) (relationNames casefold select) [] i = .ok entry := by
            intro i _
            refine ⟨none, positionRule_of_empty hempty ?_⟩
            intro branch hb target ht fields hf hrow
            exact hspells select (Analysed.here hwidth)
              ⟨branch, hb, target, List.mem_of_getElem? ht, fields, hf, hrow⟩
          obtain ⟨rules, hrules⟩ := exists_mapM_eq_ok.mpr hpos
          refine ⟨some rules, ?_⟩
          rw [analyzeSelect, hwidth]
          simp only [bind_eq_ok, pure_eq_ok]
          exact ⟨[], hexported, rules, hrules, rfl⟩

end MaskGateway.Proofs.Sql
