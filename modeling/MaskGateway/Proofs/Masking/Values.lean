import MaskGateway.Masking.Values

/-!
# `MaskGateway.Proofs.Masking.Values`: masking rows one by one or all at once

`maskRows` looks the transformers up once; `maskRows_eq` says that this is the same program as
`maskRow` on each row, whatever the transformers do to the world.

Which transformers see which texts is asked of the programs themselves: `recording` writes down
every call, and `Logs` says that what a program writes down is the beginning of a given list,
all of it when the program returns. The rules for `Logs` follow the programs, and
`logs_maskRows` is what they come to for a whole list of rows.
-/

set_option autoImplicit false

namespace MaskGateway.Proofs.Masking

open MaskGateway.Masking MaskGateway.Lib

variable {casefold : Name → Name} {τ ν ε ω : Type} {transformers : Transformers τ ν ε ω}
  {policy : MaskingPolicy τ} {columns : List ColumnDescriptor}

/-! ### One lookup or one for each cell -/

/-- A cell is masked by the transformer of its column. -/
theorem maskCell_eq (column : ColumnDescriptor) (value : Option ν) :
    maskCell transformers (resolve casefold policy column).2 value =
      maskValue casefold transformers policy column value := by
  cases value with
  | none => simp [maskCell, maskValue]
  | some value =>
      rw [maskValue]
      cases (resolve casefold policy column).2 with
      | none => simp [maskCell]
      | some transformer => simp [maskCell]

/-- **`mask_rows` is `mask_row` on each row**: the same results, errors and effects. -/
theorem maskRows_eq (rows : List (List (Option ν))) :
    maskRows casefold transformers policy columns rows =
      rows.mapM (maskRow casefold transformers policy columns) := by
  rw [maskRows]
  congr 1
  funext row
  rw [maskRow, List.zip_map_left, List.mapM_map]
  congr 1
  funext _
  congr 1
  funext cell
  exact maskCell_eq cell.1 cell.2

/-- NULL stays NULL. -/
theorem maskValue_null (column : ColumnDescriptor) :
    maskValue casefold transformers policy column none = pure none := by
  simp [maskValue]

/-- A row of another length is refused before any cell is looked at. -/
theorem maskRow_arity {row : List (Option ν)} (h : columns.length ≠ row.length) (w : ω) :
    maskRow casefold transformers policy columns row w =
      .error (.arity row.length columns.length) w := by
  show EStateM.bind (checkArity columns row) _ w = _
  rw [checkArity, if_pos h]
  rfl

/-- No list with such a row is masked. -/
theorem maskRows_arity {rows : List (List (Option ν))} {row : List (Option ν)}
    (hmem : row ∈ rows) (h : columns.length ≠ row.length) (w : ω) :
    ∃ e w', maskRows casefold transformers policy columns rows w = .error e w' := by
  rw [maskRows_eq]
  induction rows generalizing w with
  | nil => cases hmem
  | cons first rows ih =>
      rw [List.mapM_cons]
      cases hfirst : maskRow casefold transformers policy columns first w with
      | error e w' => exact ⟨e, w', bind_of_error hfirst⟩
      | ok masked w₁ =>
          rw [bind_of_ok hfirst]
          cases hmem with
          | head => rw [maskRow_arity h w] at hfirst; cases hfirst
          | tail _ hmem =>
              obtain ⟨e, w', hrest⟩ := ih hmem w₁
              exact ⟨e, w', bind_of_error hrest⟩

/-! ### Where NULL goes -/

/-- The NULLs of a row stay where they are. -/
def KeepsNulls (row masked : List (Option ν)) : Prop :=
  List.Forall₂ (fun value shown => value = none → shown = none) row masked

theorem maskRow_keepsNulls {row masked : List (Option ν)} {w w' : ω}
    (h : maskRow casefold transformers policy columns row w = .ok masked w') :
    KeepsNulls row masked := by
  by_cases harity : columns.length = row.length
  case neg => rw [maskRow_arity harity] at h; cases h
  case pos =>
    rw [maskRow, checkArity, if_neg (not_not_intro harity)] at h
    obtain ⟨_, _, hunit, h⟩ := bind_ok h
    have hcells : List.Forall₂ (fun (cell : ColumnDescriptor × Option ν) shown =>
        cell.2 = none → shown = none) (columns.zip row) masked := by
      refine forall₂_of_mapM (fun (column, value) w b w' hcell hnull => ?_) h
      have hvalue : value = none := hnull
      have hmasked : maskValue casefold transformers policy column value w = .ok b w' := hcell
      rw [hvalue, maskValue_null] at hmasked
      cases hmasked
      rfl
    have hrow : (columns.zip row).map Prod.snd = row :=
      List.map_snd_zip (Nat.le_of_eq harity.symm)
    rw [KeepsNulls, ← hrow, List.forall₂_map_left_iff]
    exact hcells

/-! ### Which transformers are called -/

/-- The same transformers, with every call written down before it is made. -/
def recording (transformers : Transformers τ ν ε ω) :
    Transformers τ ν ε (ω × List (τ × Name)) where
  canonicalize := transformers.canonicalize
  transform := fun transformer text (w, log) =>
    match transformers.transform transformer text w with
    | .ok masked w' => .ok masked (w', log ++ [(transformer, text)])
    | .error e w' => .error e (w', log ++ [(transformer, text)])
  ofText := transformers.ofText

/-- The call that the masking of one cell makes. -/
def cellCalls (transformers : Transformers τ ν ε ω) : Option τ × Option ν → List (τ × Name)
  | (some transformer, some value) =>
      match transformers.canonicalize value with
      | .ok text => [(transformer, text)]
      | .error _ => []
  | _ => []

/-- The calls that the masking of these rows makes when nothing raises. -/
def calls (casefold : Name → Name) (transformers : Transformers τ ν ε ω)
    (policy : MaskingPolicy τ) (columns : List ColumnDescriptor)
    (rows : List (List (Option ν))) : List (τ × Name) :=
  rows.flatMap fun row =>
    ((columns.map fun column => (resolve casefold policy column).2).zip row).flatMap
      (cellCalls transformers)

section Logs

variable {κ α β ε' : Type}

/-- What the program writes down is a beginning of `made`, and all of it when it returns. -/
def Logs (x : EStateM ε (ω × List κ) α) (made : List κ) : Prop :=
  ∀ w log, Leads x (w, log) (fun _ s' => s'.2 = log ++ made)
    (fun _ s' => ∃ done, done <+: made ∧ s'.2 = log ++ done)

theorem logs_pure (a : α) : Logs (pure a : EStateM ε (ω × List κ) α) [] := by
  intro w log
  exact leads_pure (List.append_nil log).symm

theorem logs_throw (e : ε) (made : List κ) :
    Logs (throw e : EStateM ε (ω × List κ) α) made := by
  intro w log
  exact leads_throw ⟨[], List.nil_prefix, (List.append_nil log).symm⟩

theorem Logs.bind {x : EStateM ε (ω × List κ) α} {f : α → EStateM ε (ω × List κ) β}
    {first second : List κ} (hx : Logs x first) (hf : ∀ a, Logs (f a) second) :
    Logs (x >>= f) (first ++ second) := by
  intro w log
  refine leads_bind ((hx w log).imp (fun _ _ h => h) ?_) ?_
  · rintro e s' ⟨done, hdone, h⟩
    exact ⟨done, hdone.trans (List.prefix_append ..), h⟩
  · rintro a ⟨w', log'⟩ h
    refine (hf a w' log').imp (fun b s' hs => ?_) fun e s' ⟨done, hdone, hs⟩ => ?_
    · calc s'.2 = log' ++ second := hs
        _ = log ++ (first ++ second) := by rw [show log' = log ++ first from h, List.append_assoc]
    · refine ⟨first ++ done, (List.prefix_append_right_inj first).mpr hdone, ?_⟩
      calc s'.2 = log' ++ done := hs
        _ = log ++ (first ++ done) := by rw [show log' = log ++ first from h, List.append_assoc]

theorem logs_mapM {γ : Type} {f : γ → EStateM ε (ω × List κ) β} {made : γ → List κ}
    (hf : ∀ a, Logs (f a) (made a)) (l : List γ) : Logs (l.mapM f) (l.flatMap made) := by
  induction l with
  | nil => exact logs_pure []
  | cons a l ih =>
      rw [List.mapM_cons, List.flatMap_cons]
      refine (hf a).bind fun b => ?_
      have hrest := ih.bind fun bs => logs_pure (ε := ε) (ω := ω) (κ := κ) (b :: bs)
      rwa [List.append_nil] at hrest

theorem Logs.adapt {x : EStateM ε (ω × List κ) α} {made : List κ} (h : Logs x made)
    (f : ε → ε') : Logs (x.adaptExcept f) made := by
  intro w log
  have hx := h w log
  rw [Leads] at hx ⊢
  rw [EStateM.adaptExcept]
  cases hrun : x (w, log) with
  | ok a s' => rw [hrun] at hx; exact hx
  | error e s' => rw [hrun] at hx; exact hx

end Logs

/-- A transformer is called at most once for a value, on its canonical text. -/
theorem logs_apply (transformer : τ) (value : ν) :
    Logs (apply (recording transformers) transformer (some value))
      (cellCalls transformers (some transformer, some value)) := by
  intro w log
  have hcanonical : (recording transformers).canonicalize value =
      transformers.canonicalize value := rfl
  rw [apply, cellCalls]
  cases htext : transformers.canonicalize value with
  | error e =>
      have hraise : reading (fun _ => (recording transformers).canonicalize value) (w, log) =
          .error e (w, log) := by
        rw [reading, hcanonical, htext]
      rw [Leads, bind_of_error hraise]
      exact ⟨[], List.nil_prefix, (List.append_nil log).symm⟩
  | ok text =>
      refine leads_bind (P := fun t s' => t = text ∧ s' = (w, log)) ?_ ?_
      · refine leads_reading (fun a ha => ⟨?_, rfl⟩) fun e he => ?_
        · exact Except.ok.inj (ha.symm.trans (hcanonical.trans htext))
        · rw [hcanonical, htext] at he; cases he
      · rintro t s' ⟨rfl, rfl⟩
        refine leads_bind (P := fun _ s' => s'.2 = log ++ [(transformer, t)]) ?_ ?_
        · have hcall : (recording transformers).transform transformer t (w, log) =
              match transformers.transform transformer t w with
              | .ok masked w' => .ok masked (w', log ++ [(transformer, t)])
              | .error e w' => .error e (w', log ++ [(transformer, t)]) := rfl
          rw [Leads, hcall]
          cases transformers.transform transformer t w with
          | ok masked w' => rfl
          | error e w' => exact ⟨_, List.prefix_refl _, rfl⟩
        · intro masked s' hs
          exact leads_pure hs

/-- The calls of one cell. -/
theorem logs_maskCell (cell : Option τ × Option ν) :
    Logs (maskCell (recording transformers) cell.1 cell.2) (cellCalls transformers cell) := by
  rcases cell with ⟨transformer, value⟩
  cases value with
  | none => cases transformer <;> exact logs_pure none
  | some value =>
      cases transformer with
      | none => exact logs_pure (some value)
      | some transformer => exact (logs_apply transformer value).adapt _

/-- **The calls of a list of rows.** -/
theorem logs_maskRows (rows : List (List (Option ν))) :
    Logs (maskRows casefold (recording transformers) policy columns rows)
      (calls casefold transformers policy columns rows) := by
  refine logs_mapM (fun row => ?_) rows
  by_cases harity : columns.length ≠ row.length
  · rw [checkArity, if_pos harity]
    exact (logs_throw (.arity row.length columns.length) []).bind fun _ =>
      logs_mapM logs_maskCell _
  · rw [checkArity, if_neg harity]
    exact (logs_pure ()).bind fun _ => logs_mapM logs_maskCell _

end MaskGateway.Proofs.Masking
