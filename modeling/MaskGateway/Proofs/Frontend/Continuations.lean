import MaskGateway.Proofs.Frontend.Entries

/-!
# `MaskGateway.Proofs.Frontend.Continuations`: requests and their answers

`load`, `reconcile` and `confirm` take the newest ticket and wait. The continuation of a request
whose guard fails does nothing; the other one finds the coordinator as the request left it
(`Serves`) and sets the next state. `confirm` is the only place where a mutation is sent.
-/

set_option autoImplicit false

namespace MaskGateway.Proofs.Frontend

open Lib MaskGateway.Frontend

/-! ### Requests -/

section
variable {c c' : Coordinator}

/-- `load` starts a read that nothing else waits for. -/
theorem load_eq_some (h : c.load = some c') :
    c.closed = false ∧ c.occupied = false ∧
      (c.state = .loading ∨ (∃ old, c.state = .reading old) ∨
        ∃ newBase message, c.state = .trouble .incompatible none newBase message) ∧
      c' = { c with sequence := c.sequence + 1, state := .loading } := by
  rw [Coordinator.load] at h
  split_ifs at h with hc
  rw [Bool.or_eq_true, not_or, Bool.not_eq_true, Bool.not_eq_true] at hc
  refine ⟨hc.1, hc.2, ?_⟩
  split at h
  next hs => exact ⟨.inl hs, (Option.some.inj h).symm⟩
  next old hs => exact ⟨.inr (.inl ⟨old, hs⟩), (Option.some.inj h).symm⟩
  next newBase message hs =>
    exact ⟨.inr (.inr ⟨newBase, message, hs⟩), (Option.some.inj h).symm⟩
  next => exact nomatch h

/-- `reconcile` revokes the base that was read before, and occupies the coordinator. -/
theorem reconcile_eq_some (h : c.reconcile = some c') :
    c.closed = false ∧ c.occupied = false ∧ ∃ state, Coordinator.revoke c.state = some state ∧
      c' = { c with state := state, occupied := true, sequence := c.sequence + 1 } := by
  rw [Coordinator.reconcile] at h
  split_ifs at h with hc
  rw [Bool.or_eq_true, not_or, Bool.not_eq_true, Bool.not_eq_true] at hc
  refine ⟨hc.1, hc.2, ?_⟩
  split at h
  next state hs => exact ⟨state, hs, (Option.some.inj h).symm⟩
  next => exact nomatch h

/-- `confirm` occupies the coordinator with the edit. -/
theorem confirm_eq_ok {client : Client} {edit : Editing}
    (h : c.confirm client = .ok (c', edit)) :
    c.closed = false ∧ c.occupied = false ∧ Coordinator.confirms c.state = some edit ∧
      c' = { c with state := .pending edit, occupied := true, sequence := c.sequence + 1 } := by
  simp only [Coordinator.confirm, ite_error_eq_ok, Bool.or_eq_true, not_or, Bool.not_eq_true] at h
  obtain ⟨⟨hopen, hfree⟩, h⟩ := h
  refine ⟨hopen, hfree, ?_⟩
  split at h
  next edit' hs =>
    rw [ite_else_error_eq_ok] at h
    obtain ⟨-, h⟩ := h
    obtain ⟨rfl, rfl⟩ := Prod.mk.inj (Except.ok.inj h)
    exact ⟨hs, rfl⟩
  next => cases h

/-- The states that `reconcile` waits in. -/
theorem revoke_eq_some {state state' : Flow} (h : Coordinator.revoke state = some state') :
    (∃ edit version newBase message message', state = .success edit version newBase message ∧
      state' = .success edit version none message') ∨
    ∃ tag edit newBase message, state = .trouble tag edit newBase message ∧
      (tag = .conflict ∨ tag = .unknown ∨ tag = .uncertain) ∧
      state' = .trouble tag edit none message := by
  cases state with
  | success edit version newBase message =>
      exact .inl ⟨edit, version, newBase, message, _, rfl, (Option.some.inj h).symm⟩
  | trouble tag edit newBase message =>
      simp only [Coordinator.revoke] at h
      split_ifs at h with htag
      exact .inr ⟨tag, edit, newBase, message, rfl, htag, (Option.some.inj h).symm⟩
  | authentication => exact nomatch h
  | loading => exact nomatch h
  | reading snapshot => exact nomatch h
  | draft edit => exact nomatch h
  | pending edit => exact nomatch h

/-- The state stands without the base that was read before. -/
theorem stands_revoke {state : Flow} {log : List Note} (h : Stands c log)
    (hrevoke : Coordinator.revoke c.state = some state) :
    Stands { c with state := state, occupied := true, sequence := c.sequence + 1 } log := by
  obtain ⟨edit, version, newBase, message, message', hs, rfl⟩ |
    ⟨tag, edit, newBase, message, hs, htag, rfl⟩ := revoke_eq_some hrevoke
  · simp only [Stands, hs] at h
    exact ⟨h.1, h.2.1, h.2.2.1, fun base heq => (by cases heq)⟩
  · cases edit with
    | none => rcases htag with rfl | rfl | rfl <;> simp [Stands, hs] at h
    | some edit =>
        rcases htag with rfl | rfl | rfl <;> simp only [Stands, hs] at h
        · exact ⟨h.1, h.2.1, fun base heq => (by cases heq)⟩
        · exact ⟨h.1, fun base heq => (by cases heq)⟩
        · exact ⟨h.1, fun base heq => (by cases heq)⟩

/-- The state stands with a base that is not too old. -/
theorem stands_rebase {prior : Flow} {fresh : Snapshot} {log : List Note} (h : Stands c log)
    (hrevoke : Coordinator.revoke prior = some c.state)
    (hminimum : ¬ fresh.version < c.minimum)
    (hfloor : (World.floor prior).any (fun least => fresh.version < least) = false) :
    Stands { c with occupied := false, state := World.rebase prior fresh }
      (.reread fresh :: log) := by
  have hle : c.minimum ≤ fresh.version := Nat.le_of_not_lt hminimum
  obtain ⟨edit, version, newBase, message, message', rfl, hs⟩ |
    ⟨tag, edit, newBase, message, rfl, htag, hs⟩ := revoke_eq_some hrevoke
  · simp only [Stands, hs] at h
    obtain ⟨hstanding, hversion, hinformed, -⟩ := h
    have hleast : version ≤ fresh.version := by simpa [World.floor] using hfloor
    refine ⟨hstanding, hversion, hinformed, ?_⟩
    intro base heq
    obtain rfl := Option.some.inj heq
    refine ⟨hleast, ?_, fun v hv => Nat.le_trans (hinformed v hv) hle⟩
    omega
  · cases edit with
    | none => rcases htag with rfl | rfl | rfl <;> simp [Stands, hs] at h
    | some edit =>
        have hleast : edit.base.version ≤ fresh.version := by simpa [World.floor] using hfloor
        rcases htag with rfl | rfl | rfl <;> simp only [Stands, hs] at h
        · refine ⟨h.1, h.2.1, ?_⟩
          intro base heq
          obtain rfl := Option.some.inj heq
          exact ⟨rfl, hleast, fun v hv => Nat.le_trans (h.2.1 v hv) hle⟩
        · refine ⟨h.1, ?_⟩
          intro base heq
          obtain rfl := Option.some.inj heq
          exact ⟨hleast, fun v hv => Nat.le_trans (h.1 v hv) hle⟩
        · refine ⟨h.1, ?_⟩
          intro base heq
          obtain rfl := Option.some.inj heq
          exact ⟨hleast, fun v hv => Nat.le_trans (h.1 v hv) hle⟩

end

section
variable {client : Client} {w : World}

theorem kept_load (h : Inv w) : Kept w w.load := by
  rw [World.load]
  cases hl : w.coordinator.load with
  | none => exact .refl h
  | some c' =>
      obtain ⟨hopen, hfree, hs, rfl⟩ := load_eq_some hl
      have hstanding : standing w.log = none ∨ standing w.log = some .success := by
        have hstands := h.stands
        rcases hs with hs | ⟨old, hs⟩ | ⟨newBase, message, hs⟩ <;> simp only [Stands, hs] at hstands
        · exact hstands
        · exact hstands
        · exact hstands.1
      refine ⟨?_, .inl rfl⟩
      exact h.await hopen hopen (Nat.lt_succ_self _) ⟨rfl, hfree⟩
        (fun ho => absurd (hfree.symm.trans ho) (by decide)) id (fun hin => (by cases hin))
        hstanding h.known h.ordered

theorem kept_reconcile (h : Inv w) : Kept w w.reconcile := by
  rw [World.reconcile]
  cases hr : w.coordinator.reconcile with
  | none => exact .refl h
  | some c' =>
      obtain ⟨hopen, hfree, state, hrevoke, rfl⟩ := reconcile_eq_some hr
      refine ⟨?_, .inl rfl⟩
      exact h.await hopen hopen (Nat.lt_succ_self _) ⟨hrevoke, rfl⟩ (fun _ => rfl) id
        (fun hin => (nomatch hin)) (stands_revoke h.stands hrevoke) h.known h.ordered

/-! ### Answers of reads -/

variable {r : Waiting}

/-- A continuation that goes on belongs to a coordinator that is open. -/
theorem open_of_current (hcurrent : r.current w.coordinator = true) :
    w.coordinator.closed = false := by
  cases hc : w.coordinator.closed with
  | false => rfl
  | true =>
      have := not_current_of_closed hc r
      rw [hcurrent] at this
      exact nomatch this

/-- The session is over when a request is answered. -/
theorem kept_expired (h : Inv w) (ticket : Nat) : Kept w (w.remove ticket).close :=
  ⟨h.cleared _ true, .inl rfl⟩

theorem kept_loaded (h : Inv w) (hr : r ∈ w.waiting)
    (hcurrent : r.current w.coordinator = true) (hpurpose : r.purpose = .load)
    (answer : Except Fault Data) :
    Kept w (World.loaded client (w.remove r.ticket) answer) := by
  have hopen := open_of_current hcurrent
  have hserves := h.serves r hr hcurrent
  rw [hpurpose] at hserves
  obtain ⟨hs, hfree⟩ := hserves
  have hstands := h.stands
  simp only [Stands, hs] at hstands
  -- a reading, or the state after a read that failed
  have hdone : ∀ state : Flow,
      Stands { w.coordinator with state := state } w.log →
        Kept w { w.remove r.ticket with coordinator := { w.coordinator with state := state } } :=
    fun state hstate =>
      ⟨h.finished hcurrent hopen hopen rfl rfl hfree hstate h.known h.ordered, .inl rfl⟩
  cases answer with
  | error fault =>
      cases fault with
      | authentication => exact kept_expired h r.ticket
      | other => exact hdone _ ⟨hstands, rfl⟩
  | ok value =>
      cases hsnapshot : snapshot client value with
      | none =>
          simp only [World.loaded, hsnapshot]
          exact hdone _ ⟨hstands, rfl⟩
      | some fresh =>
          simp only [World.loaded, hsnapshot]
          exact hdone _ hstands

theorem kept_reconciled (h : Inv w) (hr : r ∈ w.waiting)
    (hcurrent : r.current w.coordinator = true) {prior : Flow}
    (hpurpose : r.purpose = .reconcile prior) (answer : Except Fault Data) :
    Kept w (World.reconciled client (w.remove r.ticket) prior answer) := by
  have hopen := open_of_current hcurrent
  have hserves := h.serves r hr hcurrent
  rw [hpurpose] at hserves
  obtain ⟨hrevoke, -⟩ := hserves
  -- a read that brings nothing leaves the state as it is
  have hfailed : Kept w
      { w.remove r.ticket with coordinator := { w.coordinator with occupied := false } } :=
    ⟨h.finished hcurrent hopen hopen rfl rfl rfl h.stands h.known h.ordered, .inl rfl⟩
  cases answer with
  | error fault =>
      cases fault with
      | authentication => exact kept_expired h r.ticket
      | other => exact hfailed
  | ok value =>
      cases hsnapshot : snapshot client value with
      | none =>
          simp only [World.reconciled, hsnapshot]
          exact hfailed
      | some fresh =>
          simp only [World.reconciled, hsnapshot]
          split_ifs with hold
          · exact hfailed
          · rw [not_or, Bool.not_eq_true] at hold
            refine ⟨?_, .inr ⟨_, rfl, rfl⟩⟩
            exact h.finished hcurrent hopen hopen rfl rfl rfl
              (stands_rebase h.stands hrevoke hold.1 hold.2)
              (h.known.cons fun _ _ _ heq => (nomatch heq))
              (h.ordered.cons (follows_reread _ _))

/-! ### Answers of mutations -/

/-- `confirm` sets its state, and reads when that is a state to read in. -/
theorem kept_ends (h : Inv w) (hcurrent : r.current w.coordinator = true) {edit : Editing}
    (hs : w.coordinator.state = .pending edit) (minimum : Nat) {state : Flow} {how : Ending}
    {version : Option Nat}
    (hstands : Stands
      { w.coordinator with minimum := minimum, state := state, occupied := false }
      (.ended how edit.command version :: w.log)) :
    Kept w (World.ends { w.remove r.ticket with
      coordinator := { w.coordinator with minimum := minimum } } state how edit.command version) :=
    by
  have hopen := open_of_current hcurrent
  have hpending := h.stands
  simp only [Stands, hs] at hpending
  obtain ⟨hheld, hstanding⟩ := hpending
  have hfollows : Follows (.ended how edit.command version) w.log :=
    follows_of_standing (fun _ heq => (by cases heq))
      (by rcases hstanding with heq | heq <;> simp [heq])
  have hended : Inv { w.remove r.ticket with
      coordinator :=
        { w.coordinator with minimum := minimum, state := state, occupied := false }
      log := .ended how edit.command version :: w.log } :=
    h.finished hcurrent hopen hopen rfl rfl rfl hstands (h.known.ended hheld.object)
      (h.ordered.cons hfollows)
  have hread := kept_reconcile hended
  refine ⟨hread.inv, .inr ⟨.ended how edit.command version, rfl, ?_⟩⟩
  -- a read adds nothing to the log
  show (World.reconcile _).log = _
  rw [World.reconcile]
  split <;> rfl

/-- The state after an outcome that says too little. -/
theorem kept_unknown (h : Inv w) (hcurrent : r.current w.coordinator = true) {edit : Editing}
    (hs : w.coordinator.state = .pending edit) (minimum : Nat) {version : Option Nat}
    (hversion : ∀ v, version = some v → v ≤ minimum) :
    Kept w (World.unknown { w.remove r.ticket with
      coordinator := { w.coordinator with minimum := minimum } } edit version) :=
  kept_ends h hcurrent hs minimum ⟨hversion, fun _ heq => (nomatch heq)⟩

/-- A version is no larger than what stands for it. -/
theorem le_getD {version : Option Nat} {v : Nat} (h : version = some v) (d : Nat) :
    v ≤ version.getD d := by
  rw [h]
  exact Nat.le_refl _

theorem kept_outcome (h : Inv w) (hcurrent : r.current w.coordinator = true) {edit : Editing}
    (hs : w.coordinator.state = .pending edit) (kind : Kind) (version : Option Nat)
    (message : String) :
    Kept w ((w.remove r.ticket).outcome edit kind version message) := by
  have hpending := h.stands
  simp only [Stands, hs] at hpending
  obtain ⟨hheld, -⟩ := hpending
  have hminimum : ∀ v, version = some v → v ≤ version.getD edit.base.version :=
    fun v heq => le_getD heq _
  cases kind with
  | authentication =>
      have hclear : (World.close { w.remove r.ticket with
          coordinator.minimum := version.getD edit.base.version }) = (w.remove r.ticket).close := by
        simp [World.close, World.clear, Coordinator.clear, World.remove, open_of_current hcurrent]
      show Kept w (World.close { w.remove r.ticket with
          coordinator.minimum := version.getD edit.base.version })
      rw [hclear]
      exact kept_expired h r.ticket
  | success =>
      simp only [World.outcome]
      split_ifs with heq
      · refine kept_ends h hcurrent hs _ ⟨rfl, rfl, hminimum, fun base heq => (by cases heq)⟩
      · exact kept_unknown h hcurrent hs _ hminimum
  | failed trouble =>
      refine kept_ends h hcurrent hs _ ?_
      cases trouble with
      | conflict => exact ⟨rfl, hminimum, fun base heq => (by cases heq)⟩
      | busy =>
          -- the edit stays in hand
          refine ⟨⟨hheld.accepted, hheld.version, hheld.draft, hheld.object, ?_⟩, rfl, rfl⟩
          rw [spent_busy]
          exact hheld.unspent
      | incompatible => exact rfl
      | unknown => exact ⟨hminimum, fun base heq => (by cases heq)⟩
      | uncertain => exact ⟨hminimum, fun base heq => (by cases heq)⟩

theorem kept_confirmed (h : Inv w) (hr : r ∈ w.waiting)
    (hcurrent : r.current w.coordinator = true) {edit : Editing} {flight : Flight}
    (hpurpose : r.purpose = .confirm edit flight) (answer : Except Fault Outcome) :
    Kept w ((w.remove r.ticket).confirmed edit answer) := by
  have hserves := h.serves r hr hcurrent
  rw [hpurpose] at hserves
  obtain ⟨hs, -⟩ := hserves
  have hunknown : Kept w ((w.remove r.ticket).unknown edit none) :=
    kept_unknown h hcurrent hs w.coordinator.minimum fun v heq => (nomatch heq)
  cases answer with
  | error fault =>
      cases fault with
      | authentication => exact kept_expired h r.ticket
      | other => exact hunknown
  | ok result =>
      simp only [World.confirmed]
      cases hversion : result.version with
      | none => exact kept_outcome h hcurrent hs _ _ _
      | some version =>
          cases hsafe : safeVersion version with
          | none =>
              simp only [hsafe]
              exact hunknown
          | some v =>
              simp only [hsafe]
              exact kept_outcome h hcurrent hs _ _ _

/-! ### What is sent -/

/-- A mutation may be sent. -/
structure Sends (w : World) (command : Command) : Prop where
  edit : ∃ edit, (w.coordinator.state = .draft edit ∨
    ∃ newBase message, w.coordinator.state = .trouble .busy (some edit) newBase message) ∧
      command = edit.command
  own : w.waiting.countP Waiting.inFlight = 0
  others : w.elsewhere = false

/-- The states that `confirm` sends from. -/
theorem confirms_eq_some {state : Flow} {edit : Editing}
    (h : Coordinator.confirms state = some edit) :
    state = .draft edit ∨ ∃ newBase message, state = .trouble .busy (some edit) newBase message := by
  rw [Coordinator.confirms.eq_def] at h
  split at h
  next edit' => exact .inl (by rw [Option.some.inj h])
  next edit' newBase message => exact .inr ⟨newBase, message, by rw [h]⟩
  next => exact nomatch h

/-- An edit to send is in hand. -/
theorem held_of_confirms {c : Coordinator} {edit : Editing} {log : List Note}
    (h : Stands c log) (hconfirms : Coordinator.confirms c.state = some edit) :
    Held edit c.objects log ∧
      (standing log = none ∨ standing log = some (.failed .busy)) := by
  rcases confirms_eq_some hconfirms with hs | ⟨newBase, message, hs⟩ <;>
    simp only [Stands, hs] at h
  · exact ⟨h.1, .inl h.2⟩
  · exact ⟨h.1, .inr h.2.1⟩

/-- An edit stays in hand when its command is sent. -/
theorem Held.sent {edit : Editing} {objects : Nat} {log : List Note} (h : Held edit objects log) :
    Held edit objects (.sent edit.command :: log) where
  accepted := h.accepted
  version := h.version
  draft := h.draft
  object := h.object
  unspent := by
    have hnote : ∀ how command version,
        Note.sent edit.command ≠ .ended how command version := fun _ _ _ heq => (nomatch heq)
    rw [spent_cons hnote]
    exact h.unspent

/-- The command of the edit in hand may be sent. -/
theorem Held.follows {edit : Editing} {objects : Nat} {log : List Note}
    (h : Held edit objects log)
    (hstanding : standing log = none ∨ standing log = some (.failed .busy)) :
    Follows (.sent edit.command) log where
  sent command heq := by
    obtain rfl : edit.command = command := by injection heq
    exact ⟨edit, h.accepted, rfl, h.version, h.draft⟩
  once command heq := by
    obtain rfl : edit.command = command := by injection heq
    exact h.unspent
  conflict heq := by rcases hstanding with hs | hs <;> simp [hs] at heq
  blocked how heq hmem := by
    rcases hstanding with hs | hs
    · simp [hs] at heq
    · rw [hs] at heq
      obtain rfl := Option.some.inj heq
      simp at hmem

/-- `confirm` keeps the invariant, and what it sends is the command of the edit in hand. -/
theorem inv_confirm (h : Inv w) :
    Inv (w.confirm client) ∧ ((w.confirm client).log = w.log ∨
      ∃ command, Sends w command ∧ (w.confirm client).log = .sent command :: w.log) := by
  rw [World.confirm]
  cases hc : w.coordinator.confirm client with
  | error _ => exact ⟨h, .inl rfl⟩
  | ok pair =>
      obtain ⟨c', edit⟩ := pair
      obtain ⟨hopen, hfree, hconfirms, rfl⟩ := confirm_eq_ok hc
      obtain ⟨hheld, hstanding⟩ := held_of_confirms h.stands hconfirms
      -- what `mutate` refuses is answered at once
      have hrefused : ∀ answer : Except Fault Outcome,
          Inv (w.await { w.coordinator with
            state := .pending edit, occupied := true, sequence := w.coordinator.sequence + 1 }
              (.confirm edit (.settled answer))) := by
        intro answer
        exact h.await hopen hopen (Nat.lt_succ_self _) ⟨rfl, rfl⟩ (fun _ => rfl) id
          (fun hin => (nomatch hin)) ⟨hheld, hstanding⟩ h.known h.ordered
      simp only []
      split_ifs with hover hwriting hprepare
      · exact ⟨hrefused _, .inl rfl⟩
      · exact ⟨hrefused _, .inl rfl⟩
      · rw [Bool.not_eq_true] at hwriting
        have hnote : ∀ how command version,
            Note.sent edit.command ≠ .ended how command version := fun _ _ _ heq => (nomatch heq)
        refine ⟨?_, .inr ⟨edit.command, ?_, rfl⟩⟩
        · exact h.await hopen hopen (Nat.lt_succ_self _) ⟨rfl, rfl⟩ (fun _ => rfl)
            (fun _ => rfl) (fun _ => ⟨hwriting, rfl⟩) ⟨hheld.sent, .inl rfl⟩ (h.known.cons hnote)
            (h.ordered.cons (hheld.follows hstanding))
        · refine ⟨⟨edit, confirms_eq_some hconfirms, rfl⟩, ?_, ?_⟩
          · rw [List.countP_eq_zero]
            intro r hr hin
            have := (h.requests.flight r hr hin).1
            rw [hwriting] at this
            exact nomatch this
          · cases he : w.elsewhere with
            | false => rfl
            | true =>
                have := h.requests.elsewhere he
                rw [hwriting] at this
                exact nomatch this
      · exact ⟨hrefused _, .inl rfl⟩

end

end MaskGateway.Proofs.Frontend
