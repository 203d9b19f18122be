import MaskGateway.Proofs.Frontend.History
import MaskGateway.Proofs.Frontend.Requests

/-!
# `MaskGateway.Proofs.Frontend.Editing`: the invariant of one edit

`Stands` ties the state of the coordinator to its log: an edit that can still be sent is the one
accepted last and its command has not ended, a new base is no older than the base of the edit and
than what the last outcome reported. `Inv` adds the requests that wait. Every entry point and every
continuation keeps it (`Kept`).
-/

set_option autoImplicit false

namespace MaskGateway.Proofs.Frontend

open Lib MaskGateway.Frontend

/-! ### The invariant -/

/-- An edit whose command may be sent. -/
structure Held (edit : Editing) (objects : Nat) (log : List Note) : Prop where
  accepted : lastAccepted log = some edit
  version : edit.command.version = edit.base.version
  draft : edit.command.draft = edit.draft
  object : edit.command.object < objects
  unspent : ¬ Spent edit.command.object log

/-- A base that was read is no older than the base of the edit and the last outcome. -/
structure NoOlder (edit : Editing) (fresh : Snapshot) (log : List Note) : Prop where
  base : edit.base.version ≤ fresh.version
  informed : ∀ version, informed log = some version → version ≤ fresh.version

/-- What the state of a coordinator says of its log. -/
def Stands (c : Coordinator) (log : List Note) : Prop :=
  match c.state with
  | .authentication => c.closed = true
  | .loading | .reading _ => standing log = none ∨ standing log = some .success
  | .draft edit => Held edit c.objects log ∧ standing log = none
  | .pending edit =>
      Held edit c.objects log ∧
        (standing log = none ∨ standing log = some (.failed .busy))
  | .success edit version newBase _ =>
      standing log = some .success ∧ version = edit.base.version + 1 ∧
        (∀ v, informed log = some v → v ≤ c.minimum) ∧
        ∀ base, newBase = some base → version ≤ base.version ∧ NoOlder edit base log
  | .trouble .conflict (some edit) newBase _ =>
      standing log = some (.failed .conflict) ∧ (∀ v, informed log = some v → v ≤ c.minimum) ∧
        ∀ base, newBase = some base → rebased log = some base ∧ NoOlder edit base log
  | .trouble .busy (some edit) newBase _ =>
      Held edit c.objects log ∧ standing log = some (.failed .busy) ∧ newBase = none
  | .trouble .incompatible none newBase _ =>
      (standing log = none ∨ standing log = some .success) ∧ newBase = none
  | .trouble .incompatible (some _) newBase _ => newBase = none
  | .trouble .unknown (some edit) newBase _ | .trouble .uncertain (some edit) newBase _ =>
      (∀ v, informed log = some v → v ≤ c.minimum) ∧
        ∀ base, newBase = some base → NoOlder edit base log
  | .trouble _ none _ _ => False

/-- The state in which the continuation of a request finds the coordinator. -/
def Serves (c : Coordinator) : Purpose → Prop
  | .load => c.state = .loading ∧ c.occupied = false
  | .reconcile prior => Coordinator.revoke prior = some c.state ∧ c.occupied = true
  | .confirm edit _ => c.state = .pending edit ∧ c.occupied = true

/-- The read of `load`, which does not occupy the coordinator. -/
def isLoad : Purpose → Bool
  | .load => true
  | _ => false

/-- Every command that ended was frozen before. -/
def Known (objects : Nat) (log : List Note) : Prop :=
  ∀ how command version, Note.ended how command version ∈ log → command.object < objects

/-- The invariant of a world. -/
structure Inv (w : World) : Prop where
  requests : Requests w.coordinator w.waiting w.writing w.elsewhere
  stands : Stands w.coordinator w.log
  serves : ∀ r ∈ w.waiting, r.current w.coordinator = true → Serves w.coordinator r.purpose
  occupied : w.coordinator.occupied = true →
    ∃ r ∈ w.waiting, r.current w.coordinator = true ∧ isLoad r.purpose = false
  closed : w.coordinator.closed = true →
    w.coordinator.state = .authentication ∧ w.coordinator.occupied = false
  ended : w.ended = true → w.coordinator.closed = true
  known : Known w.coordinator.objects w.log
  ordered : Ordered w.log

/-- A note about something that was sent. -/
def isSent : Note → Bool
  | .sent _ => true
  | _ => false

/-- The invariant holds again, and nothing was sent. -/
structure Kept (w w' : World) : Prop where
  inv : Inv w'
  log : w'.log = w.log ∨ ∃ note, isSent note = false ∧ w'.log = note :: w.log

/-- Nothing has happened. -/
theorem Kept.refl {w : World} (h : Inv w) : Kept w w := ⟨h, .inl rfl⟩

/-- What was frozen before is known with more objects. -/
theorem Known.mono {objects objects' : Nat} {log : List Note} (h : Known objects log)
    (hle : objects ≤ objects') : Known objects' log :=
  fun how command version hmem => Nat.lt_of_lt_of_le (h how command version hmem) hle

/-- A note that is no ending adds nothing to know. -/
theorem Known.cons {objects : Nat} {note : Note} {log : List Note} (h : Known objects log)
    (hnote : ∀ how command version, note ≠ .ended how command version) :
    Known objects (note :: log) := by
  intro how command version hmem
  rcases List.mem_cons.mp hmem with heq | hmem
  · exact absurd heq.symm (hnote how command version)
  · exact h how command version hmem

/-- A command that ended was frozen before. -/
theorem Known.ended {objects : Nat} {how : Ending} {command : Command} {version : Option Nat}
    {log : List Note} (h : Known objects log) (hobject : command.object < objects) :
    Known objects (.ended how command version :: log) := by
  intro how' command' version' hmem
  rcases List.mem_cons.mp hmem with heq | hmem
  · injection heq with _ hcommand
    rw [hcommand]
    exact hobject
  · exact h how' command' version' hmem

/-- An object that is frozen now was not spent. -/
theorem Known.fresh {objects : Nat} {log : List Note} (h : Known objects log) :
    ¬ Spent objects log := by
  rintro ⟨how, command, version, hmem, _, hobject⟩
  have := h how command version hmem
  omega

/-! ### What is done to the requests -/

section
variable {w : World} {c' : Coordinator} {log' : List Note}

/-- Where the coordinator is not occupied and does not load, nothing waits for its state. -/
theorem Inv.quiet (h : Inv w) (hfree : w.coordinator.occupied = false)
    (hstate : w.coordinator.state ≠ .loading) :
    ∀ r ∈ w.waiting, r.current w.coordinator = false := by
  intro r hr
  cases hcur : r.current w.coordinator with
  | false => rfl
  | true =>
      have hserves := h.serves r hr hcur
      cases hp : r.purpose with
      | load =>
          rw [hp] at hserves
          exact absurd hserves.1 hstate
      | reconcile prior =>
          rw [hp] at hserves
          exact absurd (hserves.2.symm.trans hfree) (by decide)
      | confirm edit flight =>
          rw [hp] at hserves
          exact absurd (hserves.2.symm.trans hfree) (by decide)

/-- A client that is over has closed its coordinator. -/
theorem Inv.not_over (h : Inv w) (hopen : w.coordinator.closed = false) : w.ended = false := by
  cases ho : w.ended with
  | false => rfl
  | true =>
      have := h.ended ho
      rw [hopen] at this
      exact nomatch this

/-- A new state while nothing waits for it. -/
theorem Inv.update (h : Inv w) (hopen : w.coordinator.closed = false)
    (hquiet : ∀ r ∈ w.waiting, r.current w.coordinator = false)
    (hclosed : c'.closed = false) (hepoch : c'.epoch = w.coordinator.epoch)
    (hsequence : c'.sequence = w.coordinator.sequence) (hfree : c'.occupied = false)
    (hstands : Stands c' log') (hknown : Known c'.objects log') (hordered : Ordered log') :
    Inv { w with coordinator := c', log := log' } := by
  have hsame : ∀ r : Waiting, r.current c' = r.current w.coordinator :=
    current_congr (hclosed.trans hopen.symm) hepoch hsequence
  exact
    { requests := h.requests.congr (hclosed.trans hopen.symm) hepoch hsequence
      stands := hstands
      serves := fun r hr hcur => by
        have hno := hquiet r hr
        rw [← hsame r] at hno
        exact absurd (hno.symm.trans hcur) (by decide)
      occupied := fun ho => absurd (hfree.symm.trans ho) (by decide)
      closed := fun hc => absurd (hclosed.symm.trans hc) (by decide)
      ended := fun ho => absurd ((h.not_over hopen).symm.trans ho) (by decide)
      known := hknown
      ordered := hordered }

/-- A new state that takes over from every request. -/
theorem Inv.overtakes (h : Inv w) (hopen : w.coordinator.closed = false)
    (hclosed : c'.closed = false) (hsequence : w.coordinator.sequence < c'.sequence)
    (hfree : c'.occupied = false) (hstands : Stands c' log') (hknown : Known c'.objects log')
    (hordered : Ordered log') :
    Inv { w with coordinator := c', waiting := overtake w.waiting, log := log' } := by
  have hstale := h.requests.stale hsequence
  exact
    { requests := h.requests.overtake (Nat.le_of_lt hsequence) hstale
      stands := hstands
      serves := fun r hr hcur => by
        obtain ⟨r', hr', rfl⟩ := mem_overtake.mp hr
        have hno : r'.current c' = true := hcur
        exact absurd ((hstale r' hr').symm.trans hno) (by decide)
      occupied := fun ho => absurd (hfree.symm.trans ho) (by decide)
      closed := fun hc => absurd (hclosed.symm.trans hc) (by decide)
      ended := fun ho => absurd ((h.not_over hopen).symm.trans ho) (by decide)
      known := hknown
      ordered := hordered }

/-- A new state that waits for a request of its own. -/
theorem Inv.await (h : Inv w) {purpose : Purpose} {writing' : Bool}
    (hopen : w.coordinator.closed = false) (hclosed : c'.closed = false)
    (hsequence : w.coordinator.sequence < c'.sequence) (hserves : Serves c' purpose)
    (hload : c'.occupied = true → isLoad purpose = false)
    (hwriting : w.writing = true → writing' = true)
    (hflight : Waiting.inFlight ⟨c'.epoch, c'.sequence, purpose, false⟩ = true →
      w.writing = false ∧ writing' = true)
    (hstands : Stands c' log') (hknown : Known c'.objects log') (hordered : Ordered log') :
    Inv { w.await c' purpose with writing := writing', log := log' } := by
  have hstale := h.requests.stale hsequence
  have hnew : Waiting.current ⟨c'.epoch, c'.sequence, purpose, false⟩ c' = true := by
    simp [Waiting.current, hclosed]
  exact
    { requests := h.requests.await hsequence hclosed hwriting hflight
      stands := hstands
      serves := fun r hr hcur => by
        rcases List.mem_cons.mp hr with rfl | hr
        · exact hserves
        · obtain ⟨r', hr', rfl⟩ := mem_overtake.mp hr
          have hno : r'.current c' = true := hcur
          exact absurd ((hstale r' hr').symm.trans hno) (by decide)
      occupied := fun ho => ⟨_, .head _, hnew, hload ho⟩
      closed := fun hc => absurd (hclosed.symm.trans hc) (by decide)
      ended := fun ho => absurd ((h.not_over hopen).symm.trans ho) (by decide)
      known := hknown
      ordered := hordered }

/-- The request that the state waits for is answered. -/
theorem Inv.finished (h : Inv w) {r : Waiting} (hcurrent : r.current w.coordinator = true)
    (hopen : w.coordinator.closed = false) (hclosed : c'.closed = false)
    (hepoch : c'.epoch = w.coordinator.epoch) (hsequence : c'.sequence = w.coordinator.sequence)
    (hfree : c'.occupied = false) (hstands : Stands c' log') (hknown : Known c'.objects log')
    (hordered : Ordered log') :
    Inv { w.remove r.ticket with coordinator := c', log := log' } := by
  have hsame : ∀ s : Waiting, s.current c' = s.current w.coordinator :=
    current_congr (hclosed.trans hopen.symm) hepoch hsequence
  exact
    { requests := (h.requests.filter _).congr (hclosed.trans hopen.symm) hepoch hsequence
      stands := hstands
      serves := fun s hs hcur => by
        -- what is left has an older ticket
        have hne : s.ticket ≠ r.ticket := by
          simpa using (List.mem_filter.mp hs).2
        rw [hsame] at hcur
        exact absurd ((ticket_of_current hcur).trans (ticket_of_current hcurrent).symm) hne
      occupied := fun ho => absurd (hfree.symm.trans ho) (by decide)
      closed := fun hc => absurd (hclosed.symm.trans hc) (by decide)
      ended := fun ho => absurd ((h.not_over hopen).symm.trans ho) (by decide)
      known := hknown
      ordered := hordered }

/-- A request that was overtaken is answered. -/
theorem Inv.dropped (h : Inv w) {r : Waiting} (hr : r ∈ w.waiting)
    (hstale : r.current w.coordinator = false) : Inv (w.remove r.ticket) where
  requests := h.requests.filter _
  stands := h.stands
  serves s hs hcur := h.serves s (List.mem_of_mem_filter hs) hcur
  occupied ho := by
    obtain ⟨s, hs, hcur, hload⟩ := h.occupied ho
    refine ⟨s, List.mem_filter.mpr ⟨hs, ?_⟩, hcur, hload⟩
    have hne : s.ticket ≠ r.ticket := by
      intro heq
      obtain rfl := h.requests.eq_of_ticket hs hr heq
      exact absurd (hstale.symm.trans hcur) (by decide)
    simpa using hne
  closed := h.closed
  ended := h.ended
  known := h.known
  ordered := h.ordered

/-- The coordinator is cleared, and its client may end. -/
theorem Inv.cleared (h : Inv w) (p : Waiting → Bool) (ended : Bool) :
    Inv { World.clear { w with waiting := w.waiting.filter p } with ended := ended } := by
  have hclosed : w.coordinator.clear.closed = true := by
    rw [Coordinator.clear]
    split
    · assumption
    · rfl
  have hstate : w.coordinator.clear.state = .authentication ∧
      w.coordinator.clear.occupied = false := by
    rw [Coordinator.clear]
    split
    · exact h.closed ‹_›
    · exact ⟨rfl, rfl⟩
  have hsequence : w.coordinator.sequence ≤ w.coordinator.clear.sequence := by
    rw [Coordinator.clear]
    split
    · exact Nat.le_refl _
    · exact Nat.le_succ _
  have hobjects : w.coordinator.clear.objects = w.coordinator.objects := by
    rw [Coordinator.clear]
    split <;> rfl
  have hstale := not_current_of_closed hclosed
  exact
    { requests := (h.requests.filter p).overtake hsequence fun r _ => hstale r
      stands := by
        show Stands w.coordinator.clear w.log
        rw [Stands, hstate.1]
        exact hclosed
      serves := fun r _ hcur => absurd ((hstale r).symm.trans hcur) (by decide)
      occupied := fun ho => absurd (hstate.2.symm.trans ho) (by decide)
      closed := fun _ => hstate
      ended := fun _ => hclosed
      known := by
        show Known w.coordinator.clear.objects w.log
        rw [hobjects]
        exact h.known
      ordered := h.ordered }

end

end MaskGateway.Proofs.Frontend
