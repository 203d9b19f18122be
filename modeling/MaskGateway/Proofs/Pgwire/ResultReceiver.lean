import MaskGateway.Proofs.Pgwire.ReceiverThreads
import MaskGateway.Proofs.Runtime.BudgetPins
import MaskGateway.Proofs.Pgwire.Codec

/-!
# `MaskGateway.Proofs.Pgwire.ResultReceiver`: the life of an output pin
-/

set_option autoImplicit false

namespace MaskGateway.Proofs.ResultReceiver

open MaskGateway.Lib
open MaskGateway.Pgwire MaskGateway.Pgwire.ResultReceiver
open MaskGateway.Runtime.Budget
open MaskGateway.Proofs.Budget
open MaskGateway.Proofs.Pgwire (sampleLimits sampleIdentity)

/-! ### The frame that a receiver has -/

/-- The frame is what `validate_result` accepts for the receiver. -/
def Valid (r : Receiver) (owner : ValidatedResult) : Prop :=
  validateResult owner.wire r.expected r.limits = .ok owner

theorem wire_of_validateResult {raw : List UInt8} {expected : ResultIdentity} {limits : ResultLimits}
    {owner : ValidatedResult} (h : validateResult raw expected limits = .ok owner) :
    owner.wire = raw := by
  simp only [validateResult, Pgwire.run, bind_eq_ok, pure_eq_ok] at h
  obtain ⟨-, -, header, -, -, -, description, -, -, -, left, -, message, -, -, -, -, -, rfl⟩ := h
  rfl

/-- `_read_payload` returns a frame that was validated as a whole. -/
theorem validateResult_of_readPayload {expected : ResultIdentity} {limits : ResultLimits}
    {arrival : Arrival} {owner : ValidatedResult}
    (h : readPayload expected limits arrival = .ok owner) :
    validateResult owner.wire expected limits = .ok owner := by
  unfold readPayload at h
  split at h
  · cases h
  · simp only [bind_eq_ok] at h
    obtain ⟨-, -, info, -, -, -, h⟩ := h
    cases hvalid : validateResult (arrival.bytes.take info.frameBytes) expected limits with
    | error category =>
        rw [hvalid] at h
        cases h
    | ok found =>
        rw [hvalid] at h
        obtain rfl := Except.ok.inj h
        rw [wire_of_validateResult hvalid]
        exact hvalid

/-! ### What holds in every state -/

/-- The frame, the calls that were let through, and what a close will ask. -/
structure Facts (m : Machine) : Prop where
  owned : ∀ owner, m.receiver.owner = some owner → Valid m.receiver owner
  captured : ∀ t c owner, m.pc t = .received c (.ok owner) → Valid m.receiver owner
  fresh : m.receiver.state = .new → m.receives = 0
  unsent : m.receiver.state ∈ [.new, .reading, .ready] → m.sends = 0
  receives : m.receives ≤ 1
  sends : m.sends ≤ 1
  loaded : m.receiver.state = .sending → m.receiver.owner ≠ none
  empty : pastClose m.receiver.state = true → m.receiver.owner = none
  sent : pastClose m.receiver.state = false → (m.receiver.state = .sent ↔ m.wasSent = true)
  drain : pastClose m.receiver.state = true → m.receiver.drain = !m.wasSent

theorem facts_settle {m : Machine} (hm : Facts m) : Facts m.settle := by
  rw [Machine.settle, Receiver.settle]
  split
  · obtain ⟨owned, captured, fresh, unsent, receives, sends, loaded, empty, sent, drain⟩ := hm
    constructor <;> simp only [Valid] at * <;> grind -ring -linarith -order -ac
  · exact hm

theorem facts_moved {m m' : Machine} (hstages : Stages m) (hm : Facts m) (h : Moved m m') :
    Facts m' := by
  obtain ⟨owned, captured, fresh, unsent, receives, sends, loaded, empty, sent, drain⟩ := hm
  cases h
  case read t c arrival unclear hpc =>
    have hstate := (hstages.receiving t c (by rw [hpc]; rfl)).1
    have hvalid := fun owner => @validateResult_of_readPayload m.receiver.expected m.receiver.limits
      arrival owner
    constructor <;> simp only [Machine.goto, Function.update_apply, Valid] at * <;>
      grind -ring -linarith -order -ac
  case finishReceive t c captured hpc =>
    have hstate := (hstages.receiving t c (by rw [hpc]; rfl)).1
    cases captured <;> constructor <;>
      simp only [Machine.goto, Function.update_apply, Valid, Receiver.finishReceive] at * <;>
        grind -ring -linarith -order -ac
  case finishSend t c failure hpc =>
    have hstate := (hstages.sending t c (by rw [hpc]; rfl)).1
    cases failure <;> constructor <;>
      simp only [Machine.goto, Function.update_apply, Valid, Receiver.finishSend] at * <;>
      grind -ring -linarith -order -ac
  case endOutput t faults hpc hopen =>
    have hpast := (hstages.discarded (hstages.dropped t hpc)).1
    simp only [Receiver.finishClose]
    split <;> constructor <;> simp only [Machine.goto, Function.update_apply, Valid] at * <;>
      grind -ring -linarith -order -ac
  all_goals
    constructor <;> simp only [Machine.goto, Function.update_apply, Valid] at * <;>
      grind -ring -linarith -order -ac

/-! ### The pin -/

/-- The output of the receiver is still in the ledger. -/
def Held (m : Machine) : Prop :=
  Pinned m.ledger.owner m.ledger.image m.receiver.pin

/-- The pin and what `end_output` has answered. -/
structure PinSafe (m : Machine) : Prop where
  /-- A call that clears the pin and fails leaves a ledger that refuses every other one. -/
  held : m.receiver.state ≠ .closed → Held m ∨ m.ledger.failure ≠ none
  kept : m.receiver.uncertain = true ∨ pastClose m.receiver.state = false → Held m
  closed : m.receiver.state = .closed ↔ .ok .cleared ∈ m.ended
  uncertain : m.receiver.uncertain = true → m.receiver.state ≠ .closed
  once : m.returned.count .cleared ≤ 1
  unreturned : m.receiver.state ≠ .closed → m.returned.count .cleared = 0

/-- What `end_output` comes to, while the pin is in the ledger or the ledger has failed. -/
theorem endOutput_cases {l : Ledger} {faults : Faults} {pin : BudgetOutputToken}
    {discarded drain : Bool} (hpin : Pinned l.owner l.image pin ∨ l.failure ≠ none) :
    ∃ answer l', l.step faults (.endOutput (some pin) (some discarded) (some drain)) = (answer, l') ∧
      ((outputAnswer answer = .ok .cleared ∧ discarded = true) ∨
        (outputAnswer answer ≠ .ok .cleared ∧ outputAnswer answer ≠ .ok .alreadyCleared ∧
          (Pinned l'.owner l'.image pin ∨ l'.failure ≠ none))) := by
  generalize hstep : l.step faults (.endOutput (some pin) (some discarded) (some drain)) = result
  obtain ⟨answer, l'⟩ := result
  refine ⟨answer, l', rfl, ?_⟩
  rcases hpin with hpin | hfailed
  · cases answer with
    | ok answer =>
        have hanswer := answer_endOutput hpin hstep
        cases discarded with
        | true => exact .inl ⟨by rw [hanswer]; rfl, rfl⟩
        | false =>
            have hkept := @Pinned.step l faults (.endOutput (some pin) (some false) (some drain)) pin
              hpin (by simp)
            rw [hstep] at hkept
            exact .inr ⟨by rw [hanswer]; nofun, by rw [hanswer]; nofun, .inl hkept⟩
    | error failure =>
        refine .inr ⟨nofun, nofun, ?_⟩
        have hstepped := stepped faults l (.endOutput (some pin) (some discarded) (some drain))
        rw [hstep] at hstepped
        cases hstepped with
        | still => exact .inl hpin
        | failed => exact .inr nofun
  · obtain ⟨hsame, hfault⟩ := step_failed hfailed faults
      (.endOutput (some pin) (some discarded) (some drain))
    rw [hstep] at hsame hfault
    obtain rfl : l' = l := hsame
    obtain rfl : answer = .error .fault := hfault nofun
    exact .inr ⟨nofun, nofun, .inr hfailed⟩

theorem pinSafe_settle {m : Machine} (hm : PinSafe m) : PinSafe m.settle := by
  rw [Machine.settle, Receiver.settle]
  obtain ⟨held, kept, closed, uncertain, once, unreturned⟩ := hm
  split
  · constructor <;> simp only [Held] at * <;> grind -ring -linarith -order -ac
  · exact ⟨held, kept, closed, uncertain, once, unreturned⟩

theorem pinSafe_moved {m m' : Machine} (hstages : Stages m) (hm : PinSafe m) (h : Moved m m') :
    PinSafe m' := by
  obtain ⟨held, kept, closed, uncertain, once, unreturned⟩ := hm
  cases h
  case ledger faults op hop =>
    have hheld : Held m → Held { m with ledger := (m.ledger.step faults op).2 } := fun h =>
      h.step fun drain => hop _ drain
    have hfailed : m.ledger.failure ≠ none → (m.ledger.step faults op).2.failure ≠ none := fun h => by
      rw [(step_failed h faults op).1]
      exact h
    exact ⟨fun hopen => (held hopen).imp hheld hfailed, fun hkept => hheld (kept hkept), closed,
      uncertain, once, unreturned⟩
  case read t c arrival unclear hpc =>
    have hstate := (hstages.receiving t c (by rw [hpc]; rfl)).1
    constructor <;> simp only [Machine.goto, Held] at * <;> grind -ring -linarith -order -ac
  case finishReceive t c captured hpc =>
    have hstate := (hstages.receiving t c (by rw [hpc]; rfl)).1
    cases captured <;> constructor <;>
      simp only [Machine.goto, Held, Receiver.finishReceive] at * <;>
        grind -ring -linarith -order -ac
  case sendBody t c failure unclear hpc =>
    have hstate := (hstages.sending t c (by rw [hpc]; rfl)).1
    constructor <;> simp only [Machine.goto, Held] at * <;> grind -ring -linarith -order -ac
  case finishSend t c failure hpc =>
    have hstate := (hstages.sending t c (by rw [hpc]; rfl)).1
    cases failure <;> constructor <;> simp only [Machine.goto, Held, Receiver.finishSend] at * <;>
      grind -ring -linarith -order -ac
  case abandon t c unsure hpc hunsure =>
    have hstate : pastClose m.receiver.state = false := by
      rcases hpc with hpc | hpc
      · rw [(hstages.receiving t c hpc).1]; rfl
      · rw [(hstages.sending t c hpc).1]; rfl
    constructor <;> simp only [Machine.goto, Held] at * <;> grind -ring -linarith -order -ac
  case endOutput t faults hpc hopen =>
    have hpast := (hstages.discarded (hstages.dropped t hpc)).1
    obtain ⟨answer, l', hstep, hanswer⟩ :=
      @endOutput_cases m.ledger faults m.receiver.pin (!m.receiver.uncertain) m.receiver.drain
        (held hopen)
    have hkept' : m.receiver.uncertain = true → Pinned l'.owner l'.image m.receiver.pin := by
      intro hunsure
      have hstay := @Pinned.step m.ledger faults m.receiver.endCall m.receiver.pin
        (kept (.inl hunsure)) (by simp [Receiver.endCall, hunsure])
      rwa [Receiver.endCall, hstep] at hstay
    have hnone := unreturned hopen
    rw [show m.ledger.step faults m.receiver.endCall = (answer, l') from hstep]
    generalize outputAnswer answer = outcome at hanswer
    rcases hanswer with ⟨rfl, hsure⟩ | ⟨hcleared, halready, hheld⟩
    · have hsure : m.receiver.uncertain = false := by simpa using hsure
      constructor <;> simp only [Held, Receiver.finishClose]
      · exact fun hopen => absurd rfl hopen
      · rintro (hunsure | hfresh)
        · rw [hsure] at hunsure
          cases hunsure
        · cases hfresh
      · simp
      · rw [hsure]
        intros
        contradiction
      · rw [List.count_append, hnone]
        exact Nat.le_refl 1
      · exact fun hopen => absurd rfl hopen
    · have hstate : m.receiver.finishClose outcome = { m.receiver with state := .held } := by
        rcases outcome with failure | _ | _ | _ <;> first | rfl | contradiction
      have hcount : outcome.toOption.toList.count .cleared = 0 := by
        rcases outcome with failure | _ | _ | _ <;> first | rfl | contradiction
      have hnot : .ok .cleared ∉ m.ended := fun hmem => hopen (closed.mpr hmem)
      rw [hstate]
      constructor <;> simp only [Held] at *
      · exact fun _ => hheld
      · rintro (hunsure | hfresh)
        · exact hkept' hunsure
        · cases hfresh
      · simp [hnot, Ne.symm hcleared]
      · rintro - ⟨⟩
      · rw [List.count_append, hcount, hnone]
        exact Nat.zero_le 1
      · intro _
        rw [List.count_append, hcount, hnone]
  all_goals constructor <;> simp only [Machine.goto, Held] at * <;> grind -ring -linarith -order -ac

/-- What a move asks of the ledger, and that `end_output` is asked the same again. -/
theorem asked_of_moved {m m' : Machine} (hstages : Stages m) (h : Moved m m') :
    m'.receiver.pin = m.receiver.pin ∧
      (pastClose m.receiver.state = true →
        pastClose m'.receiver.state = true ∧ m'.receiver.endCall = m.receiver.endCall) ∧
      (m'.asked = m.asked ∨
        pastClose m.receiver.state = true ∧ m'.asked = m.asked ++ [m.receiver.endCall]) := by
  cases h with
  | ledger | complete | already | closeAgain | drop | leave | cleared =>
      exact ⟨rfl, fun hpast => ⟨hpast, rfl⟩, .inl rfl⟩
  | startReceive t hpc hstate | startSend t owner hpc hstate =>
      refine ⟨rfl, ?_, .inl rfl⟩
      rw [hstate]
      exact nofun
  | read t c arrival unclear hpc =>
      refine ⟨rfl, ?_, .inl rfl⟩
      rw [(hstages.receiving t c (by rw [hpc]; rfl)).1]
      exact nofun
  | finishReceive t c captured hpc =>
      have hstate := (hstages.receiving t c (by rw [hpc]; rfl)).1
      cases captured <;> refine ⟨rfl, ?_, .inl rfl⟩ <;> rw [hstate] <;> exact nofun
  | sendBody t c failure unclear hpc =>
      refine ⟨rfl, ?_, .inl rfl⟩
      rw [(hstages.sending t c (by rw [hpc]; rfl)).1]
      exact nofun
  | finishSend t c failure hpc =>
      refine ⟨rfl, ?_, .inl rfl⟩
      rw [(hstages.sending t c (by rw [hpc]; rfl)).1]
      exact nofun
  | abandon t c unsure hpc hunsure =>
      refine ⟨rfl, ?_, .inl rfl⟩
      rcases hpc with hpc | hpc
      · rw [(hstages.receiving t c hpc).1]
        exact nofun
      · rw [(hstages.sending t c hpc).1]
        exact nofun
  | startClose t hpc hstate =>
      refine ⟨rfl, fun hpast => ?_, .inl rfl⟩
      simp only [List.mem_cons, List.not_mem_nil, or_false] at hstate
      rcases hstate with hstate | hstate | hstate | hstate <;> rw [hstate] at hpast <;> cases hpast
  | endOutput t faults hpc hopen =>
      have hpast := (hstages.discarded (hstages.dropped t hpc)).1
      have hclosed : ∀ outcome, (m.receiver.finishClose outcome).pin = m.receiver.pin ∧
          pastClose (m.receiver.finishClose outcome).state = true ∧
          (m.receiver.finishClose outcome).endCall = m.receiver.endCall := by
        rintro (failure | _ | _ | _) <;> exact ⟨rfl, rfl, rfl⟩
      exact ⟨(hclosed _).1, fun _ => (hclosed _).2, .inr ⟨hpast, rfl⟩⟩

/-- The pin is asked for, and then only that this output ends. -/
structure Asked (m₀ m : Machine) : Prop where
  pin : m.receiver.pin = m₀.receiver.pin
  asked : ∃ n, m.asked = m₀.asked ++ List.replicate n m.receiver.endCall ∧
    (n ≠ 0 → pastClose m.receiver.state = true)

theorem asked_settle {m₀ m : Machine} (hm : Asked m₀ m) : Asked m₀ m.settle := by
  obtain ⟨hpin, n, hasked, hpast⟩ := hm
  rw [Machine.settle, Receiver.settle]
  split
  · rename_i hsettles
    refine ⟨hpin, n, hasked, fun hn => ?_⟩
    have := hpast hn
    rcases hsettles.1 with hstate | hstate <;> rw [hstate] at this <;> cases this
  · exact ⟨hpin, n, hasked, hpast⟩

theorem asked_moved {m₀ m m' : Machine} (hstages : Stages m) (hm : Asked m₀ m) (h : Moved m m') :
    Asked m₀ m' := by
  obtain ⟨hpin, n, hasked, hpast⟩ := hm
  obtain ⟨hsame, hstill, hgrown⟩ := asked_of_moved hstages h
  refine ⟨hsame.trans hpin, ?_⟩
  rcases hgrown with hgrown | ⟨hnow, hgrown⟩
  · refine ⟨n, ?_, fun hn => (hstill (hpast hn)).1⟩
    rw [hgrown, hasked]
    by_cases hn : n = 0
    · rw [hn]
      rfl
    · rw [(hstill (hpast hn)).2]
  · refine ⟨n + 1, ?_, fun _ => (hstill hnow).1⟩
    rw [hgrown, hasked, (hstill hnow).2, List.replicate_succ', List.append_assoc]

/-! ### Runs -/

theorem finishClose_fixed (r : Receiver) (answer : Except BudgetFailure OutputReleaseOutcome) :
    (r.finishClose answer).expected = r.expected ∧ (r.finishClose answer).limits = r.limits := by
  rcases answer with failure | _ | _ | _ <;> exact ⟨rfl, rfl⟩

/-- Everything that holds in every state. -/
structure Sound (m₀ m : Machine) : Prop where
  completions : Completions m
  stages : Stages m
  facts : Facts m
  pinSafe : PinSafe m
  asked : Asked m₀ m
  expected : m.receiver.expected = m₀.receiver.expected
  limits : m.receiver.limits = m₀.receiver.limits

theorem Sound.settle {m₀ m : Machine} (hm : Sound m₀ m) : Sound m₀ m.settle where
  completions := ⟨hm.completions.pending, hm.completions.completed, hm.completions.own⟩
  stages := stages_settle hm.completions hm.stages
  facts := facts_settle hm.facts
  pinSafe := pinSafe_settle hm.pinSafe
  asked := asked_settle hm.asked
  expected := by
    rw [← hm.expected, Machine.settle, Receiver.settle]
    split <;> rfl
  limits := by
    rw [← hm.limits, Machine.settle, Receiver.settle]
    split <;> rfl

theorem Sound.moved {m₀ m m' : Machine} (hm : Sound m₀ m) (h : Moved m m') : Sound m₀ m' where
  completions := completions_moved hm.completions h
  stages := stages_moved hm.completions hm.stages h
  facts := facts_moved hm.stages hm.facts h
  pinSafe := pinSafe_moved hm.stages hm.pinSafe h
  asked := asked_moved hm.stages hm.asked h
  expected := by
    rw [← hm.expected]
    cases h
    case finishReceive captured _ => cases captured <;> rfl
    case endOutput => exact (finishClose_fixed _ _).1
    all_goals rfl
  limits := by
    rw [← hm.limits]
    cases h
    case finishReceive captured _ => cases captured <;> rfl
    case endOutput => exact (finishClose_fixed _ _).2
    all_goals rfl

theorem Sound.step {m₀ m m' : Machine} {event : Event} (hm : Sound m₀ m)
    (h : m.step event = some m') : Sound m₀ m' := by
  obtain ⟨settled, rfl | rfl, rfl | hmoved⟩ := moved_of_step h
  · exact hm
  · exact hm.moved hmoved
  · exact hm.settle
  · exact hm.settle.moved hmoved

theorem sound_construct {ledger : Ledger} {session : BudgetToken} {expected : ResultIdentity}
    {limits : ResultLimits} {overheadBytes : Arg} {faults : Faults} {m₀ : Machine}
    (h : Machine.construct ledger session expected limits overheadBytes faults = some m₀) :
    Sound m₀ m₀ ∧ m₀.receiver.expected = expected ∧ m₀.receiver.limits = limits ∧
      m₀.asked = [.beginOutput (some session) (.int limits.maxFrameBytes) overheadBytes] := by
  simp only [Machine.construct] at h
  split at h
  · rename_i pin ledger' hstep
    obtain rfl := Option.some.inj h
    have hpinned := pinned_of_step hstep
    refine ⟨⟨?_, ?_, ?_, ?_, ?_, rfl, rfl⟩, rfl, rfl, rfl⟩
    · constructor <;> simp [owes]
    · constructor <;> simp [receiving, sendingFor, closes, pastClose]
    · constructor <;> simp [pastClose]
    · exact ⟨fun _ => .inl hpinned, fun _ => hpinned, by simp, nofun, by simp, fun _ => rfl⟩
    · exact ⟨rfl, 0, rfl, fun h => absurd rfl h⟩
  · cases h

theorem ready_of_sends {m m' : Machine} (h : Moved m m') (hsends : m'.sends ≠ m.sends) :
    m.receiver.state = .ready := by
  cases h
  case startSend t owner hpc hstate howner => exact hstate
  all_goals exact absurd rfl hsends

theorem dropped_of_asked {m m' : Machine} (h : Moved m m') (hasked : m'.asked ≠ m.asked) :
    m'.asked = m.asked ++ [m.receiver.endCall] ∧ ∃ t, m.pc t = .dropped := by
  cases h
  case endOutput t faults hpc hopen => exact ⟨rfl, t, hpc⟩
  all_goals exact absurd rfl hasked

/-- `_settle_locked` touches nothing but an operation that is over. -/
theorem settle_cases (m : Machine) : m.settle = m ∨
    (m.receiver.state = .reading ∨ m.receiver.state = .sending) ∧
      m.settle = { m with receiver := { m.receiver with state := .failed } } := by
  rw [Machine.settle, Receiver.settle]
  split
  · rename_i hsettles
    exact .inr ⟨hsettles.1, rfl⟩
  · exact .inl rfl

/-- What a receiver promises about its pin, in every state. -/
structure ReceiverSafety (session : BudgetToken) (expected : ResultIdentity) (limits : ResultLimits)
    (overheadBytes : Arg) (m : Machine) : Prop where
  /-- One pin is taken, for `max_frame_bytes`; afterwards only its end is asked for. -/
  pin : ∃ n, m.asked =
    .beginOutput (some session) (.int limits.maxFrameBytes) overheadBytes ::
      List.replicate n m.receiver.endCall
  receives : m.receives ≤ 1
  sends : m.sends ≤ 1
  /-- A `send_to` is let through in READY only. -/
  ready : ∀ event m', m.step event = some m' → m'.sends ≠ m.sends → m.receiver.state = .ready
  /-- What is at the channel is a frame that was validated as a whole. -/
  validated : ∀ t completion, m.pc t = .sending completion → ∃ owner,
    m.receiver.owner = some owner ∧ validateResult owner.wire expected limits = .ok owner
  closed : m.receiver.state = .closed ↔ .ok .cleared ∈ m.ended
  /-- `end_output` is called when nothing refers to the bytes and no call is between its sections. It
  says that they are discarded unless the receiver is uncertain, and drains unless they were sent. -/
  ends : ∀ event m', m.step event = some m' → m'.asked ≠ m.asked →
    m'.asked = m.asked ++
      [.endOutput (some m.receiver.pin) (some (!m.receiver.uncertain)) (some (!m.wasSent))] ∧
    m.receiver.owner = none ∧
    ∀ t, receiving (m.pc t) = none ∧ sendingFor (m.pc t) = none ∧ refersTo (m.pc t) = none
  sent : m.receiver.state = .sent → m.wasSent = true
  /-- An uncertain receiver keeps its pin. -/
  uncertain : m.receiver.uncertain = true → Held m ∧ .ok .cleared ∉ m.ended
  /-- CLEARED is reported once. -/
  once : m.returned.count .cleared ≤ 1

/-- Nothing refers to the bytes once they were dropped. -/
theorem Sound.gone {m₀ m : Machine} (hm : Sound m₀ m) (hdiscarded : m.receiver.discarded = true)
    (t : ThreadId) :
    receiving (m.pc t) = none ∧ sendingFor (m.pc t) = none ∧ refersTo (m.pc t) = none := by
  obtain ⟨hpast, hclosing⟩ := hm.stages.discarded hdiscarded
  have hreceiving : receiving (m.pc t) = none := by
    by_contra hsome
    obtain ⟨c, hc⟩ := Option.ne_none_iff_exists'.mp hsome
    rw [(hm.stages.receiving t c hc).1] at hpast
    cases hpast
  have hsending : sendingFor (m.pc t) = none := by
    by_contra hsome
    obtain ⟨c, hc⟩ := Option.ne_none_iff_exists'.mp hsome
    rw [(hm.stages.sending t c hc).1] at hpast
    cases hpast
  refine ⟨hreceiving, hsending, ?_⟩
  cases hpc : m.pc t with
  | received c captured =>
      rw [hpc] at hreceiving
      cases hreceiving
  | finishing c owner =>
      cases owner with
      | none => rfl
      | some owner =>
          rw [hpc] at hreceiving
          cases hreceiving
  | closing owner =>
      cases owner with
      | none => rfl
      | some owner => exact absurd hpc (hclosing t owner)
  | _ => rfl

theorem Sound.safe {m₀ m : Machine} (hm : Sound m₀ m) {session : BudgetToken}
    {overheadBytes : Arg}
    (hfirst : m₀.asked =
      [.beginOutput (some session) (.int m₀.receiver.limits.maxFrameBytes) overheadBytes]) :
    ReceiverSafety session m₀.receiver.expected m₀.receiver.limits overheadBytes m where
  pin := by
    obtain ⟨n, hasked, -⟩ := hm.asked.asked
    exact ⟨n, by rw [hasked, hfirst]; rfl⟩
  receives := hm.facts.receives
  sends := hm.facts.sends
  ready := by
    intro event m' h hsends
    obtain ⟨settled, hsettled, rfl | hmoved⟩ := moved_of_step h
    · rcases hsettled with rfl | rfl <;> exact absurd rfl hsends
    · rcases hsettled with rfl | rfl
      · exact ready_of_sends hmoved hsends
      · have hready := ready_of_sends hmoved hsends
        rcases settle_cases m with hsame | ⟨-, hfailed⟩
        · rwa [hsame] at hready
        · rw [hfailed] at hready
          cases hready
  validated := by
    intro t completion hpc
    have hstate := (hm.stages.sending t completion (by rw [hpc]; rfl)).1
    obtain ⟨owner, howner⟩ := Option.ne_none_iff_exists'.mp (hm.facts.loaded hstate)
    have hvalid := hm.facts.owned owner howner
    rw [Valid, hm.expected, hm.limits] at hvalid
    exact ⟨owner, howner, hvalid⟩
  closed := hm.pinSafe.closed
  ends := by
    intro event m' h hasked
    obtain ⟨settled, hsettled, rfl | hmoved⟩ := moved_of_step h
    · rcases hsettled with rfl | rfl <;> exact absurd rfl hasked
    · have hsame : settled.asked = m.asked ∧ settled.pc = m.pc ∧
          settled.receiver.endCall = m.receiver.endCall := by
        rcases hsettled with rfl | rfl
        · exact ⟨rfl, rfl, rfl⟩
        · rcases settle_cases m with hsame | ⟨-, hfailed⟩
          · rw [hsame]
            exact ⟨rfl, rfl, rfl⟩
          · rw [hfailed]
            exact ⟨rfl, rfl, rfl⟩
      rw [← hsame.1] at hasked ⊢
      obtain ⟨hgrown, t, hpc⟩ := dropped_of_asked hmoved hasked
      rw [hsame.2.1] at hpc
      have hdiscarded := hm.stages.dropped t hpc
      have hpast := (hm.stages.discarded hdiscarded).1
      refine ⟨?_, hm.facts.empty hpast, hm.gone hdiscarded⟩
      rw [hgrown, hsame.2.2, Receiver.endCall, hm.facts.drain hpast]
  sent := fun hstate => (hm.facts.sent (by rw [hstate]; rfl)).mp hstate
  uncertain := fun hunsure => ⟨hm.pinSafe.kept (.inl hunsure), fun hcleared =>
    hm.pinSafe.uncertain hunsure (hm.pinSafe.closed.mpr hcleared)⟩
  once := hm.pinSafe.once

/-- **One output pin, cleared once, and never while its bytes may be alive.** -/
theorem receiver_safety {ledger : Ledger} {session : BudgetToken} {expected : ResultIdentity}
    {limits : ResultLimits} {overheadBytes : Arg} {faults : Faults} {m₀ m : Machine}
    {events : List Event}
    (hconstruct : Machine.construct ledger session expected limits overheadBytes faults = some m₀)
    (hrun : Lib.run Machine.step m₀ events = some m) :
    ReceiverSafety session expected limits overheadBytes m := by
  obtain ⟨hsound, rfl, rfl, hfirst⟩ := sound_construct hconstruct
  exact (run_invariant (fun hm h => hm.step h) hrun hsound).safe hfirst

/-- The ledger of one session that is in use. -/
def sessionLedger : Ledger :=
  Ledger.run
    { limits := smallLimits, datasources := [oneDatasource], owner := 7
      image := { slots := List.replicate 4 {} } }
    [({}, .reserveCandidate (.int 0) (.int 40)),
     ({}, .publish (some (tokenAt 7 0 1)) none),
     ({}, .reserveSession (some (tokenAt 7 0 1)) (.int 100) (.int 500)),
     ({}, .adoptSession (some (tokenAt 7 1 1)))]

def shortFrames : ResultLimits :=
  { sampleLimits with maxFrameBytes := 200, maxFrameBytes_range := by decide }

/-- The deadline strikes in `receive`. The first close cannot publish the end of the output and is
retried, while another thread closes as well. -/
def retriedClose : List Event :=
  [.receive 0 .raw, .read 0 ⟨[], some .deadline, false⟩, .close 1, .finishReceive 0 .acquired,
   .complete 0, .close 1, .drop 1, .finishClose 1 .acquired { write := .before }, .close 0, .close 1,
   .drop 1, .drop 0, .finishClose 1 .acquired {}, .finishClose 0 .acquired {}]

theorem receiver_safety_retried :
    ∃ m₀ m, Machine.construct sessionLedger (tokenAt 7 1 1) sampleIdentity shortFrames (.int 10) {} =
        some m₀ ∧
      Lib.run Machine.step m₀ retriedClose = some m ∧ m.returned = [.cleared, .alreadyCleared] ∧
      m.receiver.state = .closed ∧
      ReceiverSafety (tokenAt 7 1 1) sampleIdentity shortFrames (.int 10) m := by
  have hrun : ((Machine.construct sessionLedger (tokenAt 7 1 1) sampleIdentity shortFrames (.int 10)
      {}).bind fun m₀ => (Lib.run Machine.step m₀ retriedClose).map fun m =>
        (m.returned, m.receiver.state)) = some ([.cleared, .alreadyCleared], .closed) := by
    decide
  obtain ⟨m₀, hconstruct, hrun⟩ := Option.bind_eq_some_iff.mp hrun
  obtain ⟨m, hrun, hend⟩ := Option.map_eq_some_iff.mp hrun
  obtain ⟨hreturned, hclosed⟩ := Prod.mk.inj hend
  exact ⟨m₀, m, hconstruct, hrun, hreturned, hclosed, receiver_safety hconstruct hrun⟩

end MaskGateway.Proofs.ResultReceiver
