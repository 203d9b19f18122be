import Mathlib

/-!
# `MaskGateway.Lib.Effect`: programs over a state that can raise

`EStateM ε σ α` is a program that changes a state and returns or raises, and what it changed before
it raised stays changed. `Leads x s Q R` says how such a program ends from a state: in `Q` when it
returns, in `R` when it raises. The rules follow the ways in which programs are put together.

`reading` is a program that only looks at the state, and `ensuring` the `finally` block.
-/

set_option autoImplicit false

namespace MaskGateway.Lib

variable {σ ε α β : Type}

/-- How a program ends from a state. -/
def Leads (x : EStateM ε σ α) (s : σ) (Q : α → σ → Prop) (R : ε → σ → Prop) : Prop :=
  match x s with
  | .ok a s' => Q a s'
  | .error e s' => R e s'

/-- A program that looks at the state and returns or raises. -/
def reading (f : σ → Except ε α) : EStateM ε σ α := fun s =>
  match f s with
  | .ok a => .ok a s
  | .error e => .error e s

/-- A program with a `finally` block. -/
def ensuring (x : EStateM ε σ α) (final : σ → σ) : EStateM ε σ α := fun s =>
  match x s with
  | .ok a s' => .ok a (final s')
  | .error e s' => .error e (final s')

/-- The end of a program that is known to return. -/
theorem Leads.of_ok {x : EStateM ε σ α} {s s' : σ} {a : α} {Q : α → σ → Prop} {R : ε → σ → Prop}
    (h : Leads x s Q R) (hrun : x s = .ok a s') : Q a s' := by
  rw [Leads, hrun] at h
  exact h

/-- The end of a program that is known to raise. -/
theorem Leads.of_error {x : EStateM ε σ α} {s s' : σ} {e : ε} {Q : α → σ → Prop}
    {R : ε → σ → Prop} (h : Leads x s Q R) (hrun : x s = .error e s') : R e s' := by
  rw [Leads, hrun] at h
  exact h

/-- A program that is known to return. -/
theorem leads_of_ok {x : EStateM ε σ α} {s s' : σ} {a : α} {Q : α → σ → Prop} {R : ε → σ → Prop}
    (hrun : x s = .ok a s') (h : Q a s') : Leads x s Q R := by
  rw [Leads, hrun]
  exact h

/-- A program that is known to raise. -/
theorem leads_of_error {x : EStateM ε σ α} {s s' : σ} {e : ε} {Q : α → σ → Prop}
    {R : ε → σ → Prop} (hrun : x s = .error e s') (h : R e s') : Leads x s Q R := by
  rw [Leads, hrun]
  exact h

theorem leads_pure {a : α} {s : σ} {Q : α → σ → Prop} {R : ε → σ → Prop} (h : Q a s) :
    Leads (pure a) s Q R := h

theorem leads_throw {e : ε} {s : σ} {Q : α → σ → Prop} {R : ε → σ → Prop} (h : R e s) :
    Leads (throw e) s Q R := h

theorem leads_modify {f : σ → σ} {s : σ} {Q : Unit → σ → Prop} {R : ε → σ → Prop}
    (h : Q () (f s)) : Leads (modify f : EStateM ε σ Unit) s Q R := h

/-- One program, then another. -/
theorem leads_bind {x : EStateM ε σ α} {f : α → EStateM ε σ β} {s : σ} {P : α → σ → Prop}
    {Q : β → σ → Prop} {R : ε → σ → Prop} (hx : Leads x s P R)
    (hf : ∀ a s', P a s' → Leads (f a) s' Q R) : Leads (x >>= f) s Q R := by
  rw [Leads] at hx
  show Leads (EStateM.bind x f) s Q R
  rw [Leads, EStateM.bind]
  cases hrun : x s with
  | ok a s' =>
      rw [hrun] at hx
      exact hf a s' hx
  | error e s' =>
      rw [hrun] at hx
      exact hx

/-- A program that says more than is asked. -/
theorem Leads.imp {x : EStateM ε σ α} {s : σ} {Q Q' : α → σ → Prop} {R R' : ε → σ → Prop}
    (h : Leads x s Q R) (hQ : ∀ a s', Q a s' → Q' a s') (hR : ∀ e s', R e s' → R' e s') :
    Leads x s Q' R' := by
  rw [Leads] at h ⊢
  cases hrun : x s with
  | ok a s' =>
      rw [hrun] at h
      exact hQ a s' h
  | error e s' =>
      rw [hrun] at h
      exact hR e s' h

theorem leads_reading {f : σ → Except ε α} {s : σ} {Q : α → σ → Prop} {R : ε → σ → Prop}
    (hok : ∀ a, f s = .ok a → Q a s) (herror : ∀ e, f s = .error e → R e s) :
    Leads (reading f) s Q R := by
  rw [Leads, reading]
  cases hrun : f s with
  | ok a => exact hok a hrun
  | error e => exact herror e hrun

/-- A program that first looks, and returns in the end. -/
theorem reading_bind_ok {f : σ → Except ε α} {k : α → EStateM ε σ β} {s s' : σ} {b : β}
    (h : (reading f >>= k) s = .ok b s') : ∃ a, f s = .ok a ∧ k a s = .ok b s' := by
  have hbind : EStateM.bind (reading f) k s = .ok b s' := h
  rw [EStateM.bind, reading] at hbind
  cases hrun : f s with
  | ok a =>
      rw [hrun] at hbind
      exact ⟨a, rfl, hbind⟩
  | error e =>
      rw [hrun] at hbind
      cases hbind

/-- A program that raises when it first looks. -/
theorem reading_bind_error {f : σ → Except ε α} {k : α → EStateM ε σ β} {s : σ} {e : ε}
    (h : f s = .error e) : (reading f >>= k) s = .error e s := by
  show EStateM.bind (reading f) k s = .error e s
  rw [EStateM.bind, reading, h]

/-- A program with a handler. -/
theorem leads_tryCatch {x : EStateM ε σ α} {handler : ε → EStateM ε σ α} {s : σ}
    {Q : α → σ → Prop} {P R : ε → σ → Prop} (hx : Leads x s Q P)
    (hhandler : ∀ e s', P e s' → Leads (handler e) s' Q R) : Leads (tryCatch x handler) s Q R := by
  rw [Leads] at hx
  show Leads (EStateM.tryCatch x handler) s Q R
  rw [Leads, EStateM.tryCatch]
  cases hrun : x s with
  | ok a s' =>
      rw [hrun] at hx
      exact hx
  | error e s' =>
      rw [hrun] at hx
      exact hhandler e s' hx

theorem leads_ensuring {x : EStateM ε σ α} {final : σ → σ} {s : σ} {Q : α → σ → Prop}
    {R : ε → σ → Prop} (h : Leads x s (fun a s' => Q a (final s')) fun e s' => R e (final s')) :
    Leads (ensuring x final) s Q R := by
  rw [Leads] at h
  rw [Leads, ensuring]
  cases hrun : x s with
  | ok a s' =>
      rw [hrun] at h
      exact h
  | error e s' =>
      rw [hrun] at h
      exact h

/-- A program goes on from what its first part returned. -/
theorem bind_of_ok {x : EStateM ε σ α} {f : α → EStateM ε σ β} {s s' : σ} {a : α}
    (h : x s = .ok a s') : (x >>= f) s = f a s' := by
  show EStateM.bind x f s = f a s'
  rw [EStateM.bind, h]

/-- A program raises what its first part raises. -/
theorem bind_of_error {x : EStateM ε σ α} {f : α → EStateM ε σ β} {s s' : σ} {e : ε}
    (h : x s = .error e s') : (x >>= f) s = .error e s' := by
  show EStateM.bind x f s = .error e s'
  rw [EStateM.bind, h]

/-- A program that returns does so through both its parts. -/
theorem bind_ok {x : EStateM ε σ α} {f : α → EStateM ε σ β} {s s' : σ} {b : β}
    (h : (x >>= f) s = .ok b s') : ∃ a s₁, x s = .ok a s₁ ∧ f a s₁ = .ok b s' := by
  have hbind : EStateM.bind x f s = .ok b s' := h
  rw [EStateM.bind] at hbind
  cases hrun : x s with
  | ok a s₁ =>
      rw [hrun] at hbind
      exact ⟨a, s₁, rfl, hbind⟩
  | error e s₁ =>
      rw [hrun] at hbind
      cases hbind

/-- A loop of programs, each of which is known when it returns. -/
theorem forall₂_of_mapM {γ : Type} {f : γ → EStateM ε σ α} {P : γ → α → Prop}
    (hf : ∀ a w b w', f a w = .ok b w' → P a b) {l : List γ} {r : List α} {w w' : σ}
    (h : l.mapM f w = .ok r w') : List.Forall₂ P l r := by
  induction l generalizing r w with
  | nil =>
      rw [List.mapM_nil] at h
      cases h
      exact .nil
  | cons a l ih =>
      rw [List.mapM_cons] at h
      obtain ⟨b, w₁, hb, h⟩ := bind_ok h
      obtain ⟨bs, w₂, hbs, h⟩ := bind_ok h
      cases h
      exact .cons (hf a w b w₁ hb) (ih hbs)

/-- A loop of programs collects one result for each. -/
theorem length_of_mapM {γ : Type} {f : γ → EStateM ε σ α} {l : List γ} {r : List α} {s s' : σ}
    (h : l.mapM f s = .ok r s') : r.length = l.length :=
  (forall₂_of_mapM (P := fun _ _ => True) (fun _ _ _ _ _ => trivial) h).length_eq.symm

/-- A program that is known to look goes on with what it saw. -/
theorem reading_bind_of_ok {f : σ → Except ε α} {k : α → EStateM ε σ β} {s : σ} {a : α}
    (h : f s = .ok a) : (reading f >>= k) s = k a s := by
  show EStateM.bind (reading f) k s = k a s
  rw [EStateM.bind, reading, h]

/-- The same for a check that does not look at the state. -/
theorem reading_bind_of_const {x : Except ε α} {k : α → EStateM ε σ β} {s : σ} {a : α}
    (h : x = .ok a) : (reading (fun _ => x) >>= k) s = k a s := reading_bind_of_ok h

/-! ### What a program preserves -/

/-- Whether it returns or raises, the program keeps `P`. -/
def Preserves (P : σ → Prop) (x : EStateM ε σ α) : Prop :=
  ∀ s, P s → Leads x s (fun _ => P) (fun _ => P)

variable {P : σ → Prop}

theorem preserves_pure (a : α) : Preserves P (pure a : EStateM ε σ α) := fun _ h => leads_pure h

theorem preserves_throw (e : ε) : Preserves P (throw e : EStateM ε σ α) := fun _ h => leads_throw h

theorem preserves_reading (f : σ → Except ε α) : Preserves P (reading f) :=
  fun _ h => leads_reading (fun _ _ => h) fun _ _ => h

theorem preserves_modify {f : σ → σ} (hf : ∀ s, P s → P (f s)) :
    Preserves P (modify f : EStateM ε σ Unit) := fun s h => leads_modify (hf s h)

theorem preserves_bind {x : EStateM ε σ α} {f : α → EStateM ε σ β} (hx : Preserves P x)
    (hf : ∀ a, Preserves P (f a)) : Preserves P (x >>= f) :=
  fun s h => leads_bind (hx s h) fun a s' h' => hf a s' h'

theorem preserves_tryCatch {x : EStateM ε σ α} {handler : ε → EStateM ε σ α} (hx : Preserves P x)
    (hhandler : ∀ e, Preserves P (handler e)) : Preserves P (tryCatch x handler) :=
  fun s h => leads_tryCatch (hx s h) fun e s' h' => hhandler e s' h'

theorem preserves_ensuring {x : EStateM ε σ α} {final : σ → σ} (hx : Preserves P x)
    (hfinal : ∀ s, P s → P (final s)) : Preserves P (ensuring x final) :=
  fun s h => leads_ensuring ((hx s h).imp (fun _ s' h' => hfinal s' h') fun _ s' h' => hfinal s' h')

end MaskGateway.Lib
