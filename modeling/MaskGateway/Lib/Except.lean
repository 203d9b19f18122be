import MaskGateway.Lib.Texts

/-!
# `MaskGateway.Lib.Except`: reading a successful `Except` computation

The programs of this development are `do` blocks in `Except`: a chain of checks that throw and
of calls whose results are used. A proof about such a block starts from its success. The lemmas
here take that success apart, one bind and one check at a time, so that no proof unfolds
`Except.bind`.
-/

set_option autoImplicit false

namespace MaskGateway.Lib

universe u v

variable {ε : Type u} {α β : Type v}

/-- The check `if p: raise e`. A `do` block that spells it as `if p then throw e` elaborates with
two copies of what follows; this form keeps one. -/
def refuseIf (p : Prop) [Decidable p] (e : ε) : Except ε Unit :=
  if p then .error e else .ok ()

/-- A check passes when its condition fails. -/
@[simp] theorem refuseIf_eq_ok {p : Prop} [Decidable p] {e : ε} {u : Unit} :
    refuseIf p e = .ok u ↔ ¬ p := by
  by_cases h : p <;> simp [refuseIf, h]

/-- A bind succeeds when both its parts do. -/
@[simp] theorem bind_eq_ok {x : Except ε α} {f : α → Except ε β} {b : β} :
    (x >>= f) = .ok b ↔ ∃ a, x = .ok a ∧ f a = .ok b := by
  cases x with
  | error e => simp [Bind.bind, Except.bind]
  | ok a => simp [Bind.bind, Except.bind]

/-- A check raises its own error. -/
theorem refuseIf_eq_error {p : Prop} [Decidable p] {e e' : ε} :
    refuseIf p e = .error e' ↔ p ∧ e = e' := by
  by_cases h : p <;> simp [refuseIf, h]

/-- A bind raises what its first part raises, or what the second part raises after it. -/
theorem bind_eq_error {x : Except ε α} {f : α → Except ε β} {e : ε} :
    (x >>= f) = .error e ↔ x = .error e ∨ ∃ a, x = .ok a ∧ f a = .error e := by
  cases x with
  | error e' => simp [Bind.bind, Except.bind]
  | ok a => simp [Bind.bind, Except.bind]

/-- `pure` raises nothing. -/
theorem pure_ne_error {a : α} {e : ε} : (pure a : Except ε α) ≠ .error e := by
  simp [pure, Except.pure]

/-- `throw` is not a success. -/
@[simp] theorem throw_eq_ok {e : ε} {a : α} : (throw e : Except ε α) = .ok a ↔ False := by
  simp [throw, throwThe, MonadExceptOf.throw]

/-- `pure` succeeds with its value. -/
@[simp] theorem pure_eq_ok {a b : α} : (pure a : Except ε α) = .ok b ↔ a = b := by
  simp [pure, Except.pure]

/-- A branch that ends in an error succeeds through the other branch. -/
@[simp] theorem ite_error_eq_ok {p : Prop} [Decidable p] {e : ε} {x : Except ε α} {a : α} :
    (if p then .error e else x) = .ok a ↔ ¬ p ∧ x = .ok a := by
  by_cases h : p <;> simp [h]

/-- The same with the error in the other branch. -/
@[simp] theorem ite_else_error_eq_ok {p : Prop} [Decidable p] {e : ε} {x : Except ε α} {a : α} :
    (if p then x else .error e) = .ok a ↔ p ∧ x = .ok a := by
  by_cases h : p <;> simp [h]

/-- `Except.map` succeeds when its argument does. -/
@[simp] theorem map_eq_ok {x : Except ε α} {f : α → β} {b : β} :
    x.map f = .ok b ↔ ∃ a, x = .ok a ∧ f a = b := by
  cases x with
  | error e => simp [Except.map]
  | ok a => simp [Except.map]

/-- Another error for the same computation: the successes are the same. -/
@[simp] theorem mapError_eq_ok {ε' : Type u} {x : Except ε α} {f : ε → ε'} {a : α} :
    x.mapError f = .ok a ↔ x = .ok a := by
  cases x with
  | error e => simp [Except.mapError]
  | ok a => simp [Except.mapError]

/-- A loop of checks succeeds when every check does. -/
@[simp] theorem forM_eq_ok {γ : Type u} {f : γ → Except ε PUnit} {l : List γ} {u : PUnit} :
    forM l f = .ok u ↔ ∀ x ∈ l, f x = .ok ⟨⟩ := by
  induction l with
  | nil => simp
  | cons x l ih =>
      rw [List.forM_cons, bind_eq_ok]
      simp only [ih, List.forall_mem_cons]
      exact ⟨fun ⟨_, h⟩ => h, fun h => ⟨_, h⟩⟩

/-- A loop of calls succeeds when every call does, and collects their results in order. -/
theorem mapM_eq_ok {γ : Type u} {f : γ → Except ε α} : ∀ {l : List γ} {r : List α},
    l.mapM f = .ok r ↔ List.Forall₂ (fun a b => f a = .ok b) l r := by
  intro l
  induction l with
  | nil =>
      intro r
      rw [List.mapM_nil, pure_eq_ok]
      constructor
      · rintro rfl
        exact List.Forall₂.nil
      · intro h
        cases h
        rfl
  | cons a l ih =>
      intro r
      simp only [List.mapM_cons, bind_eq_ok, pure_eq_ok, ih]
      constructor
      · rintro ⟨b, hb, r', hr', rfl⟩
        exact List.Forall₂.cons hb hr'
      · intro h
        cases h with
        | cons hb hr' => exact ⟨_, hb, _, hr', rfl⟩

/-- A loop of calls succeeds when every call does. -/
theorem exists_mapM_eq_ok {γ : Type u} {f : γ → Except ε α} {l : List γ} :
    (∃ r, l.mapM f = .ok r) ↔ ∀ a ∈ l, ∃ b, f a = .ok b := by
  simp only [mapM_eq_ok]
  induction l with
  | nil => exact ⟨fun _ _ h => (nomatch h), fun _ => ⟨[], List.Forall₂.nil⟩⟩
  | cons a l ih =>
      rw [List.forall_mem_cons, ← ih]
      constructor
      · rintro ⟨_, h⟩
        cases h with
        | cons hb hr => exact ⟨⟨_, hb⟩, _, hr⟩
      · rintro ⟨⟨b, hb⟩, r, hr⟩
        exact ⟨b :: r, List.Forall₂.cons hb hr⟩

/-- What a loop of calls collects was returned by one of them. -/
theorem exists_of_mem_mapM {γ : Type u} {f : γ → Except ε α} {l : List γ} {r : List α} {b : α}
    (h : l.mapM f = .ok r) (hb : b ∈ r) : ∃ a ∈ l, f a = .ok b := by
  rw [mapM_eq_ok] at h
  induction h with
  | nil => cases hb
  | @cons a _ _ _ hhead _ ih =>
      rcases List.mem_cons.mp hb with rfl | hmem
      · exact ⟨a, List.mem_cons_self .., hhead⟩
      · obtain ⟨a', ha', hf⟩ := ih hmem
        exact ⟨a', List.mem_cons_of_mem _ ha', hf⟩

/-! ### What a computation raises -/

/-- Every error that a computation raises satisfies `P`. -/
def Raises (P : ε → Prop) (x : Except ε α) : Prop := ∀ e, x = .error e → P e

variable {P : ε → Prop}

theorem raises_ok {a : α} : Raises P (.ok a) := fun _ h => (nomatch h)

theorem raises_error {e : ε} (h : P e) : Raises P (.error e : Except ε α) := by
  intro e' he
  rw [← Except.error.inj he]
  exact h

theorem raises_refuseIf {p : Prop} [Decidable p] {e : ε} (h : P e) : Raises P (refuseIf p e) := by
  intro e' he
  rw [← (refuseIf_eq_error.mp he).2]
  exact h

/-- A bind raises what its parts raise. -/
theorem raises_bind {x : Except ε α} {f : α → Except ε β} (hx : Raises P x)
    (hf : ∀ a, Raises P (f a)) : Raises P (x >>= f) := by
  intro e he
  rcases bind_eq_error.mp he with he | ⟨a, -, he⟩
  · exact hx e he
  · exact hf a e he

/-- A loop of calls raises what one of them raises. -/
theorem raises_mapM {γ : Type u} {f : γ → Except ε α} (hf : ∀ a, Raises P (f a)) :
    ∀ l : List γ, Raises P (l.mapM f) := by
  intro l
  induction l with
  | nil => exact raises_ok
  | cons a l ih =>
      rw [List.mapM_cons]
      refine raises_bind (hf a) fun b => raises_bind ih fun r => ?_
      exact raises_ok

/-- A loop of checks raises what one of them raises. -/
theorem raises_forM {γ : Type u} {f : γ → Except ε PUnit} (hf : ∀ a, Raises P (f a)) :
    ∀ l : List γ, Raises P (forM l f) := by
  intro l
  induction l with
  | nil => exact raises_ok
  | cons a l ih =>
      rw [List.forM_cons]
      exact raises_bind (hf a) fun _ => ih

end MaskGateway.Lib
