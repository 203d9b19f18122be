import Mathlib

/-!
# `MaskGateway.Lib.Machine`: runs of a state machine

A concurrent component is a machine whose events are the lock sections, and the steps between
them, of all its threads: any interleaving of the threads is one list of events. `step` says what
an event does to the state, or that it cannot happen there. What holds before the first event and
is kept by every event that can happen holds in every state of every run (`run_invariant`).
-/

set_option autoImplicit false

namespace MaskGateway.Lib

variable {σ ε : Type}

/-- The state after a list of events, when each of them can happen. -/
def run (step : σ → ε → Option σ) (s : σ) (events : List ε) : Option σ :=
  events.foldlM step s

@[simp] theorem run_nil (step : σ → ε → Option σ) (s : σ) : run step s [] = some s := rfl

/-- A run is its first event and the run from there. -/
@[simp] theorem run_cons (step : σ → ε → Option σ) (s : σ) (e : ε) (events : List ε) :
    run step s (e :: events) = (step s e).bind fun s' => run step s' events := rfl

/-- A run is a run and what follows it. -/
theorem run_append (step : σ → ε → Option σ) (s : σ) (before after : List ε) :
    run step s (before ++ after) = (run step s before).bind fun s' => run step s' after :=
  List.foldlM_append

/-- A run of at least one event that happened. -/
theorem run_cons_eq_some {step : σ → ε → Option σ} {s s'' : σ} {e : ε} {events : List ε} :
    run step s (e :: events) = some s'' ↔
      ∃ s', step s e = some s' ∧ run step s' events = some s'' := by
  rw [run_cons, Option.bind_eq_some_iff]

/-- What every event keeps holds along every run. -/
theorem run_invariant {step : σ → ε → Option σ} {P : σ → Prop}
    (hstep : ∀ {s s' : σ} {e : ε}, P s → step s e = some s' → P s') {s s' : σ} {events : List ε}
    (hrun : run step s events = some s') (hinit : P s) : P s' := by
  induction events generalizing s with
  | nil =>
      obtain rfl := Option.some.inj hrun
      exact hinit
  | cons e events ih =>
      obtain ⟨s₁, h₁, hrest⟩ := run_cons_eq_some.mp hrun
      exact ih hrest (hstep hinit h₁)

/-- What every event does to a pair of states, and what composes, a run does. -/
theorem run_relates {step : σ → ε → Option σ} {P : σ → Prop} {R : σ → σ → Prop}
    (hkeep : ∀ {s s' : σ} {e : ε}, P s → step s e = some s' → P s')
    (hrefl : ∀ s, R s s) (htrans : ∀ {s₁ s₂ s₃}, R s₁ s₂ → R s₂ s₃ → R s₁ s₃)
    (hstep : ∀ {s s' : σ} {e : ε}, P s → step s e = some s' → R s s') {s s' : σ}
    {events : List ε} (hrun : run step s events = some s') (hinit : P s) : R s s' := by
  induction events generalizing s with
  | nil =>
      obtain rfl := Option.some.inj hrun
      exact hrefl s
  | cons e events ih =>
      obtain ⟨s₁, h₁, hrest⟩ := run_cons_eq_some.mp hrun
      exact htrans (hstep hinit h₁) (ih hrest (hkeep hinit h₁))

/-- The machine whose events happen only where a condition holds. -/
def guarded (step : σ → ε → Option σ) (meets : σ → ε → Bool) (s : σ) (e : ε) : Option σ :=
  if meets s e then step s e else none

/-- An event of the guarded machine is one of the machine, where the condition holds. -/
theorem guarded_eq_some {step : σ → ε → Option σ} {meets : σ → ε → Bool} {s s' : σ} {e : ε} :
    guarded step meets s e = some s' ↔ meets s e = true ∧ step s e = some s' := by
  rw [guarded]
  by_cases h : meets s e = true <;> simp [h]

/-- A run of the guarded machine is one of the machine. -/
theorem run_of_guarded {step : σ → ε → Option σ} {meets : σ → ε → Bool} {s s' : σ}
    {events : List ε} (h : run (guarded step meets) s events = some s') :
    run step s events = some s' := by
  induction events generalizing s with
  | nil => exact h
  | cons e events ih =>
      obtain ⟨s₁, h₁, hrest⟩ := run_cons_eq_some.mp h
      exact run_cons_eq_some.mpr ⟨s₁, (guarded_eq_some.mp h₁).2, ih hrest⟩

end MaskGateway.Lib
