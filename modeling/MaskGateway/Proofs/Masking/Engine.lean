import MaskGateway.Masking.Engine

/-!
# `MaskGateway.Proofs.Masking.Engine`: when a column is masked

`resolve` walks through four outcomes. `decideColumn_mask_iff` says once which columns end as
MASK, in terms of the policy's own two predicates on names (`MaskingPolicy.excepts`,
`MaskingPolicy.covers`); everything said later about the engine starts from it.
-/

set_option autoImplicit false

namespace MaskGateway.Proofs.Masking

open MaskGateway.Masking

variable {τ : Type} {casefold : Name → Name} {policy : MaskingPolicy τ}
  {column : ColumnDescriptor}

/-- An exception is found exactly when some exception covers the name. -/
theorem findExceptionByName_eq_none {name : Name} :
    findExceptionByName casefold policy.exceptions name = none ↔
      policy.excepts casefold name = false := by
  simp [findExceptionByName, MaskingPolicy.excepts]

/-- A criterion matches a column when it matches its output name or its origin name. -/
theorem specMatchesColumn_iff {spec : MatchSpec} :
    specMatchesColumn casefold spec column = true ↔
      spec.matches casefold (some column.outputName) = true ∨
      spec.matches casefold column.originName = true := by
  rw [specMatchesColumn, ColumnDescriptor.names]
  cases horigin : column.originName with
  | none => simp [MatchSpec.matches]
  | some origin =>
      by_cases h : origin = column.outputName
      · simp [h]
      · simp [h]

/-- A rule is found exactly when some rule covers the output name or the origin name. -/
theorem findRule_isSome :
    (findRule casefold policy.rules column).isSome = true ↔
      policy.covers casefold column.outputName = true ∨
      ∃ origin, column.originName = some origin ∧ policy.covers casefold origin = true := by
  simp only [findRule, List.find?_isSome, specMatchesColumn_iff, MaskingPolicy.covers,
    List.any_eq_true]
  constructor
  · rintro ⟨rule, hmem, h | h⟩
    · exact Or.inl ⟨rule, hmem, h⟩
    · cases horigin : column.originName with
      | none => rw [horigin] at h; simp [MatchSpec.matches] at h
      | some origin => exact Or.inr ⟨origin, rfl, rule, hmem, horigin ▸ h⟩
  · rintro (⟨rule, hmem, h⟩ | ⟨origin, horigin, rule, hmem, h⟩)
    · exact ⟨rule, hmem, Or.inl h⟩
    · exact ⟨rule, hmem, Or.inr (horigin ▸ h)⟩

/-- **When a column is masked**: its derived rule exists, or its authoritative name has no
exception and one of its two names has a rule. -/
theorem decideColumn_mask_iff :
    (decideColumn casefold policy column).action = .mask ↔
      (∃ index < policy.rules.length, column.derivedRuleIndex = some index) ∨
      (policy.excepts casefold column.authoritative = false ∧
        (policy.covers casefold column.outputName = true ∨
          ∃ origin, column.originName = some origin ∧
            policy.covers casefold origin = true)) := by
  rw [← findRule_isSome, ← findExceptionByName_eq_none, decideColumn, resolve]
  have hderived : (∃ index < policy.rules.length, column.derivedRuleIndex = some index) ↔
      (derivedRule policy column).isSome = true := by
    rw [derivedRule]
    cases column.derivedRuleIndex with
    | none => simp
    | some index => simp
  rw [hderived]
  cases derivedRule policy column with
  | some derived => simp
  | none =>
      cases findExceptionByName casefold policy.exceptions column.authoritative with
      | some exception => simp
      | none =>
          cases findRule casefold policy.rules column with
          | some rule => simp
          | none => simp

end MaskGateway.Proofs.Masking
