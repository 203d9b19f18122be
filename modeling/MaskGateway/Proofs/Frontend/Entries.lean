import MaskGateway.Lib.Except
import MaskGateway.Proofs.Frontend.Editing

/-!
# `MaskGateway.Proofs.Frontend.Entries`: the entry points that do not wait

Each of `begin`, `poll`, `change`, `review`, `finish`, `discard` and `cancel` either declines and
leaves everything as it is, or does one thing in one state. The `*_eq_ok` lemmas say which, and the
`kept_*` lemmas that the invariant holds afterwards.
-/

set_option autoImplicit false

namespace MaskGateway.Proofs.Frontend

open Lib MaskGateway.Frontend

@[simp] theorem orThrow_eq_ok {α : Type} {x : Option α} {a : α} :
    orThrow x = .ok a ↔ x = some a := by
  cases x <;> simp [orThrow]

section
variable {client : Client} {c c' : Coordinator}

/-- `begin` starts an edit of what was read. -/
theorem begin_eq_ok {id : String} {draft : Data} {identity : Option String}
    (h : c.begin client id draft identity = .ok c') :
    c.closed = false ∧ c.occupied = false ∧ ∃ base clean, c.state = .reading base ∧
      c' = { c with
              sequence := c.sequence + 1, observed := none, minimum := base.version
              state := .draft ⟨base, clean, id, base.version, clean, identity, c.objects⟩
              objects := c.objects + 1 } := by
  simp only [Coordinator.begin, ite_error_eq_ok, Bool.or_eq_true, not_or, Bool.not_eq_true] at h
  obtain ⟨⟨hopen, hfree⟩, h⟩ := h
  refine ⟨hopen, hfree, ?_⟩
  split at h
  next base hs =>
    simp only [bind_eq_ok, orThrow_eq_ok, ite_else_error_eq_ok] at h
    obtain ⟨clean, _, _, h⟩ := h
    exact ⟨base, clean, hs, (Except.ok.inj h).symm⟩
  next => cases h

/-- `poll` takes a reading that is no older, or notes it beside a draft. -/
theorem poll_eq_ok {value : Data} (h : c.poll client value = .ok c') :
    c.closed = false ∧ c.occupied = false ∧
      ((∃ old fresh, c.state = .reading old ∧ old.version ≤ fresh.version ∧
          c' = { c with state := .reading fresh }) ∨
        ∃ edit fresh, c.state = .draft edit ∧ edit.base.version ≤ fresh.version ∧
          (∀ seen, c.observed = some seen → seen.version ≤ fresh.version) ∧
          c' = { c with observed := some fresh }) := by
  simp only [Coordinator.poll, ite_error_eq_ok, Bool.or_eq_true, not_or, Bool.not_eq_true] at h
  obtain ⟨⟨hopen, hfree⟩, h⟩ := h
  refine ⟨hopen, hfree, ?_⟩
  split at h
  next old hs =>
    simp only [bind_eq_ok, orThrow_eq_ok, ite_error_eq_ok] at h
    obtain ⟨fresh, _, hold, _, h⟩ := h
    exact .inl ⟨old, fresh, hs, Nat.le_of_not_lt hold, (Except.ok.inj h).symm⟩
  next edit hs =>
    simp only [bind_eq_ok, orThrow_eq_ok, ite_error_eq_ok, not_or] at h
    obtain ⟨fresh, _, ⟨hbase, hseen⟩, _, h⟩ := h
    refine .inr ⟨edit, fresh, hs, Nat.le_of_not_lt hbase, ?_, (Except.ok.inj h).symm⟩
    intro seen heq
    rw [heq] at hseen
    simpa using hseen
  next => cases h

/-- `change` gives the edit another draft, and another command with it. -/
theorem change_eq_ok {draft : Data} (h : c.change client draft = .ok c') :
    c.closed = false ∧ c.occupied = false ∧ ∃ edit clean, c.state = .draft edit ∧
      c' = { c with
              state := .draft { edit with
                draft := clean
                command := { edit.command with draft := clean, object := c.objects } }
              objects := c.objects + 1 } := by
  simp only [Coordinator.change, ite_error_eq_ok, Bool.or_eq_true, not_or, Bool.not_eq_true] at h
  obtain ⟨⟨hopen, hfree⟩, h⟩ := h
  refine ⟨hopen, hfree, ?_⟩
  split at h
  next edit hs =>
    simp only [bind_eq_ok, orThrow_eq_ok, ite_else_error_eq_ok] at h
    obtain ⟨clean, _, _, h⟩ := h
    exact ⟨edit, clean, hs, (Except.ok.inj h).symm⟩
  next => cases h

/-- `review` puts the edit of a conflict on the base that was read after it. -/
theorem review_eq_ok {draft : Data} (h : c.review client draft = .ok c') :
    c.closed = false ∧ c.occupied = false ∧ ∃ edit base message clean,
      c.state = .trouble .conflict (some edit) (some base) message ∧
      c' = { c with
              state := .draft ⟨base, clean,
                { edit.command with version := base.version, draft := clean, object := c.objects }⟩
              observed := none
              objects := c.objects + 1 } := by
  simp only [Coordinator.review, ite_error_eq_ok, Bool.or_eq_true, not_or, Bool.not_eq_true] at h
  obtain ⟨⟨hopen, hfree⟩, h⟩ := h
  refine ⟨hopen, hfree, ?_⟩
  split at h
  next edit base message hs =>
    simp only [bind_eq_ok, orThrow_eq_ok, ite_else_error_eq_ok] at h
    obtain ⟨clean, _, _, h⟩ := h
    exact ⟨edit, base, message, clean, hs, (Except.ok.inj h).symm⟩
  next => cases h

/-- `finish` goes on with the base that was read after a success. -/
theorem finish_eq_ok (h : c.finish = .ok c') :
    c.closed = false ∧ c.occupied = false ∧ ∃ edit version base message,
      c.state = .success edit version (some base) message ∧
      c' = { c with state := .reading base, observed := none } := by
  simp only [Coordinator.finish, ite_error_eq_ok, Bool.or_eq_true, not_or, Bool.not_eq_true] at h
  obtain ⟨⟨hopen, hfree⟩, h⟩ := h
  refine ⟨hopen, hfree, ?_⟩
  split at h
  next edit version base message hs =>
    exact ⟨edit, version, base, message, hs, (Except.ok.inj h).symm⟩
  next => cases h

/-- `discard` goes back to the base of the edit. -/
theorem discard_eq_ok (h : c.discard = .ok c') :
    c.closed = false ∧ c.occupied = false ∧ ∃ edit, c.state = .draft edit ∧
      c' = { c with state := .reading edit.base, observed := none } := by
  simp only [Coordinator.discard, ite_error_eq_ok, Bool.or_eq_true, not_or, Bool.not_eq_true] at h
  obtain ⟨⟨hopen, hfree⟩, h⟩ := h
  refine ⟨hopen, hfree, ?_⟩
  split at h
  next edit hs => exact ⟨edit, hs, (Except.ok.inj h).symm⟩
  next => cases h

/-- `cancel` gives a command up that was not answered. -/
theorem cancel_eq_ok (h : c.cancel = .ok c') :
    c.closed = false ∧ ∃ edit, c.state = .pending edit ∧
      c' = { c with
              sequence := c.sequence + 1, occupied := false
              state := .trouble .unknown (some edit) none
                "Resultado desconhecido. Releia o estado antes de decidir." } := by
  simp only [Coordinator.cancel, ite_error_eq_ok, Bool.or_eq_true, not_or, Bool.not_eq_true] at h
  obtain ⟨⟨hopen, _⟩, h⟩ := h
  refine ⟨hopen, ?_⟩
  split at h
  next edit hs => exact ⟨edit, hs, (Except.ok.inj h).symm⟩
  next => cases h

end

section
variable {client : Client} {w : World}

/-- An edit that was just accepted can be sent. -/
theorem held_new {edit : Editing} {objects : Nat} {note : Note} {log : List Note}
    (hknown : Known objects log) (haccepted : lastAccepted (note :: log) = some edit)
    (hnote : ∀ how command version, note ≠ .ended how command version)
    (hversion : edit.command.version = edit.base.version)
    (hdraft : edit.command.draft = edit.draft) (hobject : edit.command.object = objects) :
    Held edit (objects + 1) (note :: log) where
  accepted := haccepted
  version := hversion
  draft := hdraft
  object := by omega
  unspent := by
    rw [hobject, spent_cons hnote]
    exact hknown.fresh

theorem kept_begin (h : Inv w) (id : String) (draft : Data) (identity : Option String) :
    Kept w (w.begin client id draft identity) := by
  rw [World.begin]
  cases hb : w.coordinator.begin client id draft identity with
  | error _ => exact .refl h
  | ok c' =>
      obtain ⟨hopen, hfree, base, clean, hs, rfl⟩ := begin_eq_ok hb
      have hstanding := h.stands
      simp only [Stands, hs] at hstanding
      refine ⟨?_, .inr ⟨_, rfl, rfl⟩⟩
      refine h.overtakes hopen hopen (Nat.lt_succ_self _) hfree ⟨?_, rfl⟩ ?_ ?_
      · exact held_new h.known rfl (fun _ _ _ heq => by cases heq) rfl rfl rfl
      · exact (h.known.mono (Nat.le_succ _)).cons fun _ _ _ heq => by cases heq
      · refine h.ordered.cons (follows_of_standing (fun _ heq => by cases heq) ?_)
        rcases hstanding with heq | heq <;> simp [heq]

theorem kept_poll (h : Inv w) (value : Data) :
    Kept w (w.enter (w.coordinator.poll client value)) := by
  cases hp : w.coordinator.poll client value with
  | error _ => exact .refl h
  | ok c' =>
      obtain ⟨hopen, hfree, ⟨old, fresh, hs, _, rfl⟩ | ⟨edit, fresh, hs, _, _, rfl⟩⟩ :=
        poll_eq_ok hp
      · have hstanding := h.stands
        simp only [Stands, hs] at hstanding
        refine ⟨?_, .inl rfl⟩
        exact h.update hopen (h.quiet hfree (by simp [hs])) hopen rfl rfl hfree hstanding h.known
          h.ordered
      · have hstands := h.stands
        simp only [Stands, hs] at hstands
        refine ⟨?_, .inl rfl⟩
        refine h.update hopen (h.quiet hfree (by simp [hs])) hopen rfl rfl hfree ?_ h.known
          h.ordered
        simp only [Stands, hs]
        exact hstands

theorem kept_change (h : Inv w) (draft : Data) :
    Kept w (w.enterDraft .changed (w.coordinator.change client draft)) := by
  cases hc : w.coordinator.change client draft with
  | error _ => exact .refl h
  | ok c' =>
      obtain ⟨hopen, hfree, edit, clean, hs, rfl⟩ := change_eq_ok hc
      have hstands := h.stands
      simp only [Stands, hs] at hstands
      obtain ⟨hheld, hstanding⟩ := hstands
      refine ⟨?_, .inr ⟨_, rfl, rfl⟩⟩
      refine h.update hopen (h.quiet hfree (by simp [hs])) hopen rfl rfl hfree ⟨?_, rfl⟩ ?_ ?_
      · exact held_new h.known rfl (fun _ _ _ heq => by cases heq) hheld.version rfl rfl
      · exact (h.known.mono (Nat.le_succ _)).cons fun _ _ _ heq => by cases heq
      · refine h.ordered.cons (follows_of_standing (fun _ heq => by cases heq) ?_)
        simp [hstanding]

theorem kept_review (h : Inv w) (draft : Data) :
    Kept w (w.enterDraft .reviewed (w.coordinator.review client draft)) := by
  cases hr : w.coordinator.review client draft with
  | error _ => exact .refl h
  | ok c' =>
      obtain ⟨hopen, hfree, edit, base, message, clean, hs, rfl⟩ := review_eq_ok hr
      have hstands := h.stands
      simp only [Stands, hs] at hstands
      obtain ⟨hstanding, _, hbase⟩ := hstands
      refine ⟨?_, .inr ⟨_, rfl, rfl⟩⟩
      refine h.update hopen (h.quiet hfree (by simp [hs])) hopen rfl rfl hfree ⟨?_, rfl⟩ ?_ ?_
      · exact held_new h.known rfl (fun _ _ _ heq => by cases heq) rfl rfl rfl
      · exact (h.known.mono (Nat.le_succ _)).cons fun _ _ _ heq => by cases heq
      · -- the base of the review is the one that was read last
        refine h.ordered.cons ⟨fun _ heq => (by cases heq), fun _ heq => (by cases heq), ?_, ?_⟩
        · exact fun _ => .inr ⟨_, rfl, (hbase base rfl).1⟩
        · intro how heq hmem
          rw [hstanding] at heq
          obtain rfl := Option.some.inj heq
          simp at hmem

theorem kept_finish (h : Inv w) : Kept w (w.enter w.coordinator.finish) := by
  cases hf : w.coordinator.finish with
  | error _ => exact .refl h
  | ok c' =>
      obtain ⟨hopen, hfree, edit, version, base, message, hs, rfl⟩ := finish_eq_ok hf
      have hstands := h.stands
      simp only [Stands, hs] at hstands
      refine ⟨?_, .inl rfl⟩
      exact h.update hopen (h.quiet hfree (by simp [hs])) hopen rfl rfl hfree (.inr hstands.1)
        h.known h.ordered

theorem kept_discard (h : Inv w) : Kept w (w.enter w.coordinator.discard) := by
  cases hd : w.coordinator.discard with
  | error _ => exact .refl h
  | ok c' =>
      obtain ⟨hopen, hfree, edit, hs, rfl⟩ := discard_eq_ok hd
      have hstands := h.stands
      simp only [Stands, hs] at hstands
      refine ⟨?_, .inl rfl⟩
      exact h.update hopen (h.quiet hfree (by simp [hs])) hopen rfl rfl hfree (.inl hstands.2)
        h.known h.ordered

theorem kept_cancel (h : Inv w) : Kept w w.cancel := by
  rw [World.cancel]
  split
  next edit c' hs hc =>
    obtain ⟨hopen, edit', hs', rfl⟩ := cancel_eq_ok hc
    obtain rfl : edit' = edit := by
      rw [hs] at hs'
      injection hs' with heq
      exact heq.symm
    have hstands := h.stands
    simp only [Stands, hs] at hstands
    obtain ⟨hheld, hstanding⟩ := hstands
    refine ⟨?_, .inr ⟨_, rfl, rfl⟩⟩
    refine h.overtakes hopen hopen (Nat.lt_succ_self _) rfl ?_ (h.known.ended hheld.object) ?_
    · exact ⟨fun v heq => (by cases heq), fun base heq => (by cases heq)⟩
    · refine h.ordered.cons (follows_of_standing (fun _ heq => by cases heq) ?_)
      rcases hstanding with heq | heq <;> simp [heq]
  next => exact .refl h

theorem kept_close (h : Inv w) : Kept w w.close := by
  have hcleared := h.cleared (fun _ => true) true
  rw [List.filter_true] at hcleared
  exact ⟨hcleared, .inl rfl⟩

theorem kept_clear (h : Inv w) : Kept w w.clear := by
  have hcleared := h.cleared (fun _ => true) w.ended
  rw [List.filter_true] at hcleared
  exact ⟨hcleared, .inl rfl⟩

end

end MaskGateway.Proofs.Frontend
