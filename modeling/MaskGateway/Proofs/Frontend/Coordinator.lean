import MaskGateway.Proofs.Frontend.Continuations

/-!
# `MaskGateway.Proofs.Frontend.Coordinator`: one edit, whatever is answered when

`coordinator_orderly` is the main theorem: in every world that a run reaches the log is in order, a
success is the next version, a new base is not too old, at most one mutation is on its way, and the
coordinator is occupied exactly while a mutation or a re-read that was not overtaken waits
(`Safe`); and whatever happens next, only `confirm` sends, an answer that comes too late changes
nothing, and a poll goes forward and leaves the draft alone (`Respects`).

The bound of a new base is the version of the outcome that is shown. An outcome without a version
puts the bound back to the base of the edit, and a version that an earlier outcome reported is
forgotten (`busy_version_forgotten`).
-/

set_option autoImplicit false

namespace MaskGateway.Proofs.Frontend

open Lib MaskGateway.Frontend

/-! ### One step -/

section
variable {client : Client} {w w' : World}

/-- A request is found by its ticket. -/
theorem request_eq_some {ticket : Nat} {r : Waiting} (h : w.request ticket = some r) :
    r ∈ w.waiting ∧ r.ticket = ticket := by
  have hticket := List.find?_some h
  exact ⟨List.mem_of_find?_eq_some h, by simpa using hticket⟩

theorem inv_coordinate (ended elsewhere : Bool) : Inv (coordinate ended elsewhere) where
  requests :=
    { tickets := List.nodup_nil
      bound := fun _ hr => nomatch hr
      overtaken := fun _ hr => nomatch hr
      flight := fun _ hr => nomatch hr
      single := fun _ hr => nomatch hr
      elsewhere := id }
  stands := by
    cases ended
    · exact .inl rfl
    · exact rfl
  serves _ hr := nomatch hr
  occupied ho := by cases ended <;> exact nomatch ho
  closed hc := by
    cases ended
    · exact nomatch hc
    · exact ⟨rfl, rfl⟩
  ended ho := by
    obtain rfl : ended = true := ho
    rfl
  known _ _ _ hmem := nomatch hmem
  ordered := ordered_nil

/-- An answer of a read keeps the invariant. -/
theorem kept_answered (h : Inv w) {r : Waiting} (hr : r ∈ w.waiting)
    {answer : Except Fault Data} (hstep : w.answered client r answer = some w') : Kept w w' := by
  simp only [World.answered] at hstep
  cases hp : r.purpose with
  | load =>
      simp only [hp] at hstep
      split_ifs at hstep with hcurrent
      · obtain rfl := Option.some.inj hstep
        exact kept_loaded h hr hcurrent hp answer
      · obtain rfl := Option.some.inj hstep
        exact ⟨h.dropped hr (by simpa using hcurrent), .inl rfl⟩
  | reconcile prior =>
      simp only [hp] at hstep
      split_ifs at hstep with hcurrent
      · obtain rfl := Option.some.inj hstep
        exact kept_reconciled h hr hcurrent hp answer
      · obtain rfl := Option.some.inj hstep
        exact ⟨h.dropped hr (by simpa using hcurrent), .inl rfl⟩
  | confirm edit flight =>
      simp only [hp] at hstep
      exact nomatch hstep

/-- The outcome of a mutation is kept for `confirm`. -/
theorem kept_settles (h : Inv w) {r : Waiting} (hr : r ∈ w.waiting)
    {answer : Except Fault Outcome} (hstep : w.settles r answer = some w') : Kept w w' := by
  rw [World.settles] at hstep
  split_ifs at hstep with hin
  obtain rfl := Option.some.inj hstep
  have hpurpose : ∀ s : Waiting, isLoad (s.settle answer).purpose = isLoad s.purpose ∧
      (Serves w.coordinator s.purpose → Serves w.coordinator (s.settle answer).purpose) := by
    intro s
    cases s with
    | mk epoch ticket purpose overtaken => cases purpose <;> exact ⟨rfl, id⟩
  refine ⟨?_, .inl rfl⟩
  constructor
  case requests => exact h.requests.settles hr hin answer
  case stands => exact h.stands
  case serves =>
    intro s hs hcurrent
    obtain ⟨s', hs', rfl⟩ := List.mem_map.mp hs
    by_cases hticket : s'.ticket = r.ticket
    · rw [if_pos hticket] at hcurrent ⊢
      rw [(settle_ticket s' answer).2.2] at hcurrent
      exact (hpurpose s').2 (h.serves s' hs' hcurrent)
    · rw [if_neg hticket] at hcurrent ⊢
      exact h.serves s' hs' hcurrent
  case occupied =>
    intro ho
    obtain ⟨s, hs, hcurrent, hload⟩ := h.occupied ho
    refine ⟨_, List.mem_map.mpr ⟨s, hs, rfl⟩, ?_⟩
    by_cases hticket : s.ticket = r.ticket
    · rw [if_pos hticket]
      exact ⟨(settle_ticket s answer).2.2.trans hcurrent, (hpurpose s).1.trans hload⟩
    · rw [if_neg hticket]
      exact ⟨hcurrent, hload⟩
  case closed => exact h.closed
  case ended => exact h.ended
  case known => exact h.known
  case ordered => exact h.ordered

/-- `confirm` goes on with an outcome, or was overtaken. -/
theorem kept_resumes (h : Inv w) {r : Waiting} (hr : r ∈ w.waiting)
    (hstep : w.resumes r = some w') : Kept w w' := by
  simp only [World.resumes] at hstep
  split at hstep
  next edit answer hp =>
    split_ifs at hstep with hcurrent
    · obtain rfl := Option.some.inj hstep
      exact kept_confirmed h hr hcurrent hp answer
    · obtain rfl := Option.some.inj hstep
      exact ⟨h.dropped hr (by simpa using hcurrent), .inl rfl⟩
  next => exact nomatch hstep

/-- What one event does: everything but `confirm` sends nothing. -/
theorem kept_of_step (h : Inv w) {event : Event} (hstep : World.step client w event = some w') :
    Kept w w' ∨ event = .confirm ∧ w' = w.confirm client := by
  cases event with
  | confirm => exact .inr ⟨rfl, (Option.some.inj hstep).symm⟩
  | load => obtain rfl := Option.some.inj hstep; exact .inl (kept_load h)
  | begin id draft identity =>
      obtain rfl := Option.some.inj hstep
      exact .inl (kept_begin h id draft identity)
  | poll value => obtain rfl := Option.some.inj hstep; exact .inl (kept_poll h value)
  | change draft => obtain rfl := Option.some.inj hstep; exact .inl (kept_change h draft)
  | cancel => obtain rfl := Option.some.inj hstep; exact .inl (kept_cancel h)
  | reconcile => obtain rfl := Option.some.inj hstep; exact .inl (kept_reconcile h)
  | review draft => obtain rfl := Option.some.inj hstep; exact .inl (kept_review h draft)
  | finish => obtain rfl := Option.some.inj hstep; exact .inl (kept_finish h)
  | discard => obtain rfl := Option.some.inj hstep; exact .inl (kept_discard h)
  | close => obtain rfl := Option.some.inj hstep; exact .inl (kept_close h)
  | release => obtain rfl := Option.some.inj hstep; exact .inl (kept_clear h)
  | clientEnds => obtain rfl := Option.some.inj hstep; exact .inl (kept_close h)
  | answered ticket answer =>
      obtain ⟨r, hr, hstep⟩ := Option.bind_eq_some_iff.mp hstep
      exact .inl (kept_answered h (request_eq_some hr).1 hstep)
  | settles ticket answer =>
      obtain ⟨r, hr, hstep⟩ := Option.bind_eq_some_iff.mp hstep
      exact .inl (kept_settles h (request_eq_some hr).1 hstep)
  | resumes ticket =>
      obtain ⟨r, hr, hstep⟩ := Option.bind_eq_some_iff.mp hstep
      exact .inl (kept_resumes h (request_eq_some hr).1 hstep)
  | othersSend =>
      simp only [World.step] at hstep
      split_ifs at hstep with hbusy
      rw [Bool.or_eq_true, not_or, Bool.not_eq_true, Bool.not_eq_true] at hbusy
      obtain rfl := Option.some.inj hstep
      exact .inl ⟨{ h with requests := h.requests.othersSend hbusy.2 }, .inl rfl⟩
  | othersSettle =>
      simp only [World.step] at hstep
      split_ifs at hstep with helsewhere
      obtain rfl := Option.some.inj hstep
      exact .inl ⟨{ h with requests := h.requests.othersSettle helsewhere }, .inl rfl⟩

/-- The invariant holds in every world that is reached. -/
theorem inv_of_run {ended elsewhere : Bool} {events : List Event}
    (hrun : run (World.step client) (coordinate ended elsewhere) events = some w) : Inv w := by
  refine run_invariant ?_ hrun (inv_coordinate ended elsewhere)
  intro s s' event h hstep
  rcases kept_of_step h hstep with hkept | ⟨-, rfl⟩
  · exact hkept.inv
  · exact (inv_confirm h).1

end

/-! ### What holds of every world -/

/-- The edit of a state. -/
def editOf : Flow → Option Editing
  | .draft edit | .pending edit | .success edit _ _ _ => some edit
  | .trouble _ edit _ _ => edit
  | _ => none

/-- The base that was read after the outcome. -/
def newBaseOf : Flow → Option Snapshot
  | .success _ _ newBase _ | .trouble _ _ newBase _ => newBase
  | _ => none

/-- The version of a success. -/
def successOf : Flow → Option Nat
  | .success _ version _ _ => some version
  | _ => none

/-- A world is as it should be. -/
structure Safe (w : World) : Prop where
  /-- what is sent, and what may follow an outcome -/
  ordered : Ordered w.log
  success : ∀ version, successOf w.coordinator.state = some version →
    ∃ edit, editOf w.coordinator.state = some edit ∧ version = edit.base.version + 1
  newBase : ∀ base, newBaseOf w.coordinator.state = some base →
    ∃ edit, editOf w.coordinator.state = some edit ∧ edit.base.version ≤ base.version ∧
      (∀ version, successOf w.coordinator.state = some version → version ≤ base.version) ∧
      ∀ version, informed w.log = some version → version ≤ base.version
  /-- at most one mutation of the client is on its way -/
  single : w.waiting.countP Waiting.inFlight + w.elsewhere.toNat ≤ 1
  occupied : w.coordinator.occupied = true ↔
    ∃ r ∈ w.waiting, r.overtaken = false ∧ isLoad r.purpose = false

/-- The event is the answer of a request, or what becomes of it. -/
def Answers (event : Event) (r : Waiting) : Prop :=
  (∃ answer, event = .answered r.ticket answer) ∨ (∃ answer, event = .settles r.ticket answer) ∨
    event = .resumes r.ticket

/-- What a poll may do to a coordinator. -/
structure Polled (c c' : Coordinator) : Prop where
  reading : ∀ old, c.state = .reading old →
    ∃ fresh, c'.state = .reading fresh ∧ old.version ≤ fresh.version
  others : (∀ old, c.state ≠ .reading old) → c'.state = c.state
  observed : ∀ seen, c.observed = some seen →
    ∃ fresh, c'.observed = some fresh ∧ seen.version ≤ fresh.version

/-- What an event may do to a world. -/
structure Respects (w : World) (event : Event) (w' : World) : Prop where
  /-- only `confirm` sends, the command of a draft or a busy edit, and with nothing on its way -/
  sends : w'.log = w.log ∨ ∃ note, w'.log = note :: w.log ∧
    ∀ command, note = .sent command → event = .confirm ∧ Sends w command
  /-- an answer to a request that was cancelled, taken over or closed changes nothing -/
  stale : ∀ r ∈ w.waiting, r.overtaken = true → Answers event r → w'.coordinator = w.coordinator
  poll : ∀ value, event = .poll value → Polled w.coordinator w'.coordinator

section
variable {client : Client} {w w' : World}

/-- The invariant says what a world is to be. -/
theorem Inv.safe (h : Inv w) : Safe w where
  ordered := h.ordered
  success version heq := by
    have hstands := h.stands
    cases hs : w.coordinator.state with
    | success edit v newBase message =>
        simp only [Stands, hs] at hstands
        rw [hs] at heq
        obtain rfl := Option.some.inj heq
        exact ⟨edit, rfl, hstands.2.1⟩
    | _ => rw [hs] at heq; cases heq
  newBase base heq := by
    have hstands := h.stands
    cases hs : w.coordinator.state with
    | success edit v newBase message =>
        simp only [Stands, hs] at hstands
        rw [hs] at heq
        obtain ⟨hversion, hold⟩ := hstands.2.2.2 base heq
        refine ⟨edit, rfl, hold.base, ?_, hold.informed⟩
        intro version hv
        obtain rfl := Option.some.inj hv
        exact hversion
    | trouble tag edit newBase message =>
        rw [hs] at heq
        obtain rfl : newBase = some base := heq
        have hread : ∃ e, edit = some e ∧ NoOlder e base w.log := by
          cases edit with
          | none => cases tag <;> simp [Stands, hs] at hstands
          | some e =>
              refine ⟨e, rfl, ?_⟩
              cases tag <;> simp only [Stands, hs] at hstands
              · exact (hstands.2.2 base rfl).2
              · cases hstands.2.2
              · cases hstands
              · exact hstands.2 base rfl
              · exact hstands.2 base rfl
        obtain ⟨e, rfl, hold⟩ := hread
        exact ⟨e, rfl, hold.base, fun version hv => (by cases hv), hold.informed⟩
    | _ => rw [hs] at heq; cases heq
  single := h.requests.one
  occupied := by
    constructor
    · intro ho
      obtain ⟨r, hr, hcurrent, hload⟩ := h.occupied ho
      refine ⟨r, hr, ?_, hload⟩
      rw [h.requests.overtaken r hr, hcurrent]
      rfl
    · rintro ⟨r, hr, hovertaken, hload⟩
      have hcurrent : r.current w.coordinator = true := by
        rw [h.requests.overtaken r hr] at hovertaken
        simpa using hovertaken
      have hserves := h.serves r hr hcurrent
      cases hp : r.purpose with
      | load =>
          rw [hp] at hload
          cases hload
      | reconcile prior =>
          rw [hp] at hserves
          exact hserves.2
      | confirm edit flight =>
          rw [hp] at hserves
          exact hserves.2

/-- A poll goes forward and leaves the draft alone. -/
theorem polled (value : Data) :
    Polled w.coordinator (w.enter (w.coordinator.poll client value)).coordinator := by
  cases hp : w.coordinator.poll client value with
  | error _ =>
      exact ⟨fun old hs => ⟨old, hs, Nat.le_refl _⟩, fun _ => rfl,
        fun seen hs => ⟨seen, hs, Nat.le_refl _⟩⟩
  | ok c' =>
      obtain ⟨-, -, ⟨old, fresh, hs, hle, rfl⟩ | ⟨edit, fresh, hs, -, hseen, rfl⟩⟩ :=
        poll_eq_ok hp
      · constructor
        case reading =>
          intro old' hs'
          obtain rfl : old = old' := by
            rw [hs] at hs'
            injection hs'
          exact ⟨fresh, rfl, hle⟩
        case others => exact fun hno => absurd hs (hno old)
        case observed => exact fun seen hs => ⟨seen, hs, Nat.le_refl _⟩
      · constructor
        case reading =>
          intro old hs'
          rw [hs] at hs'
          exact nomatch hs'
        case others => exact fun _ => rfl
        case observed => exact fun seen heq => ⟨fresh, rfl, hseen seen heq⟩

/-- An answer that comes too late changes nothing. -/
theorem stale_answer (h : Inv w) {event : Event} {r : Waiting}
    (hstep : World.step client w event = some w') (hr : r ∈ w.waiting)
    (hovertaken : r.overtaken = true) (hanswers : Answers event r) :
    w'.coordinator = w.coordinator := by
  have hstale : r.current w.coordinator = false := by
    rw [h.requests.overtaken r hr] at hovertaken
    simpa using hovertaken
  have hfound : ∀ s, w.request r.ticket = some s → s = r := fun s hs =>
    h.requests.eq_of_ticket (request_eq_some hs).1 hr (request_eq_some hs).2
  rcases hanswers with ⟨answer, rfl⟩ | ⟨answer, rfl⟩ | rfl
  · obtain ⟨s, hs, hdone⟩ := Option.bind_eq_some_iff.mp hstep
    obtain rfl := hfound s hs
    simp only [World.answered, hstale] at hdone
    cases hp : s.purpose <;> simp only [hp] at hdone
    · obtain rfl := Option.some.inj hdone
      rfl
    · obtain rfl := Option.some.inj hdone
      rfl
    · exact nomatch hdone
  · obtain ⟨s, hs, hdone⟩ := Option.bind_eq_some_iff.mp hstep
    rw [World.settles] at hdone
    split_ifs at hdone
    obtain rfl := Option.some.inj hdone
    rfl
  · obtain ⟨s, hs, hdone⟩ := Option.bind_eq_some_iff.mp hstep
    obtain rfl := hfound s hs
    simp only [World.resumes, hstale] at hdone
    split at hdone
    · obtain rfl := Option.some.inj hdone
      rfl
    · exact nomatch hdone

/-- In every run, whatever is asked for and whatever is answered in which order: the world is as it
should be, and so is what happens next. -/
theorem coordinator_orderly {ended elsewhere : Bool} {events : List Event}
    (hrun : run (World.step client) (coordinate ended elsewhere) events = some w) :
    Safe w ∧ ∀ event w', World.step client w event = some w' → Respects w event w' := by
  have h := inv_of_run hrun
  refine ⟨h.safe, fun event w' hstep => ?_⟩
  constructor
  case sends =>
    rcases kept_of_step h hstep with hkept | ⟨rfl, rfl⟩
    · rcases hkept.log with hlog | ⟨note, hquiet, hlog⟩
      · exact .inl hlog
      · refine .inr ⟨note, hlog, ?_⟩
        rintro command rfl
        exact nomatch hquiet
    · rcases (inv_confirm h).2 with hlog | ⟨command, hsends, hlog⟩
      · exact .inl hlog
      · refine .inr ⟨_, hlog, ?_⟩
        intro command' heq
        obtain rfl : command = command' := by injection heq
        exact ⟨rfl, hsends⟩
  case stale => exact fun r hr hovertaken hanswers => stale_answer h hstep hr hovertaken hanswers
  case poll =>
    rintro value rfl
    obtain rfl := Option.some.inj hstep
    exact polled value

end

/-! ### Runs -/

/-- A catalogue whose reads carry their version in one field. -/
def plainClient : Client where
  inspectDataFor
    | .obj [("revision", version)] => some version
    | _ => none
  prepares _ _ _ _ := true

/-- What a read of a version returns. -/
def revision (version : Nat) : Data := .obj [("revision", .num version)]

/-- A conflict is reviewed on the version that was read, the next attempt finds the server busy, and
the one after it succeeds. -/
def reviewedRun : List Event :=
  [.load, .answered 1 (.ok (revision 1)), .begin "c17" .null none, .confirm,
    .settles 3 (.ok ⟨.failed .conflict, some (.num 4), "conflict"⟩), .resumes 3,
    .answered 4 (.ok (revision 4)), .review .null, .confirm,
    .settles 5 (.ok ⟨.failed .busy, some (.num 4), "busy"⟩), .resumes 5, .confirm,
    .settles 6 (.ok ⟨.success, some (.num 5), "saved"⟩), .resumes 6,
    .answered 7 (.ok (revision 5)), .finish]

theorem coordinator_orderly_reviewed :
    ∃ w, run (World.step plainClient) (coordinate false false) reviewedRun = some w ∧
      Safe w ∧ ∀ event w', World.step plainClient w event = some w' → Respects w event w' := by
  have hdone : (run (World.step plainClient) (coordinate false false) reviewedRun).isSome := by
    decide
  obtain ⟨w, hrun⟩ := Option.isSome_iff_exists.mp hdone
  exact ⟨w, hrun, coordinator_orderly hrun⟩

/-- The server is busy at version 10, the answer to the second attempt is lost, and version 5 is
read. -/
def forgetfulRun : List Event :=
  [.load, .answered 1 (.ok (revision 1)), .begin "c17" .null none, .confirm,
    .settles 3 (.ok ⟨.failed .busy, some (.num 10), "busy"⟩), .resumes 3, .confirm,
    .settles 4 (.ok ⟨.failed .unknown, none, "unknown"⟩), .resumes 4,
    .answered 5 (.ok (revision 5))]

/-- A new base may be older than a version that the server reported: the version of a busy answer is
forgotten when the next answer has none. -/
theorem busy_version_forgotten :
    ¬ ∀ (client : Client) (events : List Event) (w : World) (base : Snapshot) (version : Nat),
      run (World.step client) (coordinate false false) events = some w →
      newBaseOf w.coordinator.state = some base → reported w.log = some version →
        version ≤ base.version := by
  intro h
  have hshown : (run (World.step plainClient) (coordinate false false) forgetfulRun).map
      (fun w => ((newBaseOf w.coordinator.state).map Snapshot.version, reported w.log)) =
        some (some 5, some 10) := by
    decide
  obtain ⟨w, hrun, hboth⟩ := Option.map_eq_some_iff.mp hshown
  obtain ⟨hbase, hreported⟩ := Prod.mk.inj hboth
  obtain ⟨base, hnew, hversion⟩ := Option.map_eq_some_iff.mp hbase
  have hle := h plainClient forgetfulRun w base 10 hrun hnew hreported
  omega

end MaskGateway.Proofs.Frontend
