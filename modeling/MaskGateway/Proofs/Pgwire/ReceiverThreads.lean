import MaskGateway.Pgwire.ResultReceiver
import MaskGateway.Proofs.Runtime.BudgetPins

/-!
# `MaskGateway.Proofs.Pgwire.ReceiverThreads`: the threads of a receiver and its state
-/

set_option autoImplicit false

namespace MaskGateway.Proofs.ResultReceiver

open MaskGateway.Lib
open MaskGateway.Pgwire MaskGateway.Pgwire.ResultReceiver
open MaskGateway.Runtime.Budget
open MaskGateway.Proofs.Budget

/-! ### Where a thread can be -/

/-- The completion that the thread still has to set. -/
@[grind] def owes : Pc → Option OperationId
  | .reading c | .received c _ | .sending c | .sentOff c _ | .finishing c _ => some c
  | _ => none

/-- The thread is in `receive`, before its last section or with what it read in hand. -/
@[grind] def receiving : Pc → Option OperationId
  | .reading c | .received c _ | .finishing c (some _) => some c
  | _ => none

/-- The thread is in `send_to`, before its last section. -/
@[grind] def sendingFor : Pc → Option OperationId
  | .sending c | .sentOff c _ => some c
  | _ => none

/-- The thread has begun to close, and has not dropped the bytes. -/
@[grind] def closes : Pc → Bool
  | .closing _ => true
  | _ => false

/-- The bytes that the thread refers to. -/
@[grind] def refersTo : Pc → Option ValidatedResult
  | .received _ captured => captured.toOption
  | .finishing _ owner | .closing owner => owner
  | _ => none

/-- A close has begun. -/
@[grind] def pastClose : ReceiverState → Bool
  | .discarding | .held | .closed => true
  | _ => false

@[grind →] theorem owes_of_receiving {pc : Pc} {c : OperationId} (h : receiving pc = some c) :
    owes pc = some c := by
  unfold receiving at h
  split at h
  all_goals first | exact h | cases h

@[grind →] theorem owes_of_sendingFor {pc : Pc} {c : OperationId} (h : sendingFor pc = some c) :
    owes pc = some c := by
  unfold sendingFor at h
  split at h
  all_goals first | exact h | cases h

@[grind →] theorem refersTo_of_sendingFor {pc : Pc} {c : OperationId} (h : sendingFor pc = some c) :
    refersTo pc = none := by
  unfold sendingFor at h
  split at h
  all_goals first | rfl | cases h

@[simp] theorem goto_pc (m : Machine) (t t' : ThreadId) (pc : Pc) :
    (m.goto t pc).pc t' = if t' = t then pc else m.pc t' := by
  simp [Machine.goto, Function.update_apply]

@[simp] theorem goto_receiver (m : Machine) (t : ThreadId) (pc : Pc) :
    (m.goto t pc).receiver = m.receiver := rfl

@[simp] theorem goto_completed (m : Machine) (t : ThreadId) (pc : Pc) :
    (m.goto t pc).completed = m.completed := rfl

@[simp] theorem goto_next (m : Machine) (t : ThreadId) (pc : Pc) :
    (m.goto t pc).next = m.next := rfl

/-! ### What a step can do -/

/-- What a step can do, once the state is settled. -/
inductive Moved (m : Machine) : Machine → Prop where
  | ledger (faults : Faults) (op : Op)
      (hop : ∀ discarded drain, op ≠ .endOutput (some m.receiver.pin) discarded drain) :
      Moved m { m with ledger := (m.ledger.step faults op).2 }
  | startReceive (t : ThreadId) (hpc : m.pc t = .idle) (hstate : m.receiver.state = .new) :
      Moved m { m.goto t (.reading m.next) with
        receiver := { m.receiver with operation := m.next, state := .reading }
        next := m.next + 1, receives := m.receives + 1 }
  | read (t : ThreadId) (c : OperationId) (arrival : Arrival) (unclear : Bool)
      (hpc : m.pc t = .reading c) :
      Moved m { m.goto t (.received c
            (readPayload m.receiver.expected m.receiver.limits arrival)) with
        receiver := { m.receiver with uncertain := m.receiver.uncertain || unclear } }
  | finishReceive (t : ThreadId) (c : OperationId)
      (captured : Except ReceiverFailure ValidatedResult) (hpc : m.pc t = .received c captured) :
      Moved m { m.goto t (.finishing c none) with receiver := m.receiver.finishReceive captured }
  | startSend (t : ThreadId) (owner : ValidatedResult) (hpc : m.pc t = .idle)
      (hstate : m.receiver.state = .ready) (howner : m.receiver.owner = some owner) :
      Moved m { m.goto t (.sending m.next) with
        receiver := { m.receiver with operation := m.next, state := .sending }
        next := m.next + 1, sends := m.sends + 1 }
  | sendBody (t : ThreadId) (c : OperationId) (failure : Option ReceiverFailure) (unclear : Bool)
      (hpc : m.pc t = .sending c) :
      Moved m { m.goto t (.sentOff c failure) with
        receiver := { m.receiver with uncertain := m.receiver.uncertain || unclear } }
  | finishSend (t : ThreadId) (c : OperationId) (failure : Option ReceiverFailure)
      (hpc : m.pc t = .sentOff c failure) :
      Moved m { m.goto t (.finishing c none) with
        receiver := m.receiver.finishSend failure, wasSent := m.wasSent || failure.isNone }
  /-- A call of `receive` or `send_to` is refused the lock, or interrupted. -/
  | abandon (t : ThreadId) (c : OperationId) (uncertain : Bool)
      (hpc : receiving (m.pc t) = some c ∨ sendingFor (m.pc t) = some c)
      (huncertain : m.receiver.uncertain = true → uncertain = true) :
      Moved m { m.goto t (.finishing c (refersTo (m.pc t))) with
        receiver := { m.receiver with uncertain := uncertain } }
  | complete (t : ThreadId) (c : OperationId) (owner : Option ValidatedResult)
      (hpc : m.pc t = .finishing c owner) :
      Moved m { m.goto t .idle with completed := Function.update m.completed c true }
  | already (hstate : m.receiver.state = .closed) :
      Moved m { m with returned := m.returned ++ [.alreadyCleared] }
  | startClose (t : ThreadId) (hpc : m.pc t = .idle)
      (hstate : m.receiver.state ∈ [.new, .ready, .sent, .failed]) :
      Moved m { m.goto t (.closing m.receiver.owner) with
        receiver := { m.receiver with
          drain := decide (m.receiver.state ≠ .sent), state := .discarding, owner := none } }
  | closeAgain (t : ThreadId) (hpc : m.pc t = .idle)
      (hstate : m.receiver.state ∈ [.discarding, .held]) (hdiscarded : m.receiver.discarded = true) :
      Moved m (m.goto t (.closing none))
  | drop (t : ThreadId) (owner : Option ValidatedResult) (hpc : m.pc t = .closing owner) :
      Moved m { m.goto t .dropped with receiver := { m.receiver with discarded := true } }
  | leave (t : ThreadId) (hpc : m.pc t = .dropped) : Moved m (m.goto t .idle)
  | cleared (t : ThreadId) (hpc : m.pc t = .dropped) (hstate : m.receiver.state = .closed) :
      Moved m { m.goto t .idle with returned := m.returned ++ [.alreadyCleared] }
  | endOutput (t : ThreadId) (faults : Faults) (hpc : m.pc t = .dropped)
      (hstate : m.receiver.state ≠ .closed) :
      Moved m { m.goto t .idle with
        ledger := (m.ledger.step faults m.receiver.endCall).2
        receiver := m.receiver.finishClose
          (outputAnswer (m.ledger.step faults m.receiver.endCall).1)
        asked := m.asked ++ [m.receiver.endCall]
        ended := m.ended ++ [outputAnswer (m.ledger.step faults m.receiver.endCall).1]
        returned := m.returned ++
          (outputAnswer (m.ledger.step faults m.receiver.endCall).1).toOption.toList }

theorem startClose_cases (r : Receiver) :
    (r.state = .closed ∧ r.startClose = .already) ∨ r.startClose = .refused ∨
      (r.state ∈ [.discarding, .held] ∧ r.discarded = true ∧ r.startClose = .discards none r) ∨
      (r.state ∈ [.new, .ready, .sent, .failed] ∧ r.startClose = .discards r.owner
        { r with drain := decide (r.state ≠ .sent), state := .discarding, owner := none }) := by
  unfold Receiver.startClose
  cases hstate : r.state <;> cases hdiscarded : r.discarded <;> simp

/-- A step settles the state or not, and then moves or not. -/
theorem moved_of_step {m m' : Machine} {event : Event} (h : m.step event = some m') :
    ∃ settled, (settled = m ∨ settled = m.settle) ∧ (m' = settled ∨ Moved settled m') := by
  cases event with
  | ledger faults op =>
      refine ⟨m, .inl rfl, .inr ?_⟩
      simp only [Machine.step] at h
      split at h
      · rename_i pin discarded drain
        split at h
        · cases h
        · rename_i hne
          obtain rfl := Option.some.inj h
          exact .ledger faults _ fun _ _ heq => hne (by simpa using (Op.endOutput.inj heq).1)
      · rename_i hother
        obtain rfl := Option.some.inj h
        exact .ledger faults op fun discarded drain heq => hother _ _ _ heq
  | status => exact ⟨m.settle, .inr rfl, .inl (Option.some.inj h).symm⟩
  | receive t channel =>
      refine ⟨m, .inl rfl, ?_⟩
      simp only [Machine.step] at h
      split at h
      · rename_i receiver hpc hstart
        simp only [Receiver.startReceive, bind_eq_ok, refuseIf_eq_ok, pure_eq_ok, not_or,
          not_not] at hstart
        obtain ⟨-, ⟨hnew, -⟩, rfl⟩ := hstart
        obtain rfl := Option.some.inj h
        exact .inr (.startReceive t hpc hnew)
      · exact .inl (Option.some.inj h).symm
      · cases h
  | read t arrival =>
      refine ⟨m, .inl rfl, .inr ?_⟩
      simp only [Machine.step] at h
      split at h
      · rename_i completion hpc
        obtain rfl := Option.some.inj h
        exact .read t completion arrival _ hpc
      · cases h
  | finishReceive t locked =>
      refine ⟨m, .inl rfl, .inr ?_⟩
      simp only [Machine.step] at h
      split at h
      · rename_i completion captured hpc
        obtain rfl := Option.some.inj h
        exact .finishReceive t completion captured hpc
      · rename_i completion captured failure hpc
        obtain rfl := Option.some.inj h
        have hmoved := Moved.abandon (m := m) t completion m.receiver.uncertain
          (.inl (by rw [hpc]; rfl)) id
        rw [hpc] at hmoved
        exact hmoved
      · cases h
  | send t channel =>
      refine ⟨m, .inl rfl, ?_⟩
      simp only [Machine.step] at h
      split at h
      · rename_i receiver hpc hstart
        simp only [Receiver.startSend, bind_eq_ok, refuseIf_eq_ok, pure_eq_ok, not_or,
          not_not] at hstart
        obtain ⟨-, ⟨hready, -⟩, -, ⟨howner, -⟩, rfl⟩ := hstart
        obtain ⟨owner, howner⟩ := Option.ne_none_iff_exists'.mp howner
        obtain rfl := Option.some.inj h
        exact .inr (.startSend t owner hpc hready howner)
      · exact .inl (Option.some.inj h).symm
      · cases h
  | sendBody t failure unclear =>
      refine ⟨m, .inl rfl, .inr ?_⟩
      simp only [Machine.step] at h
      split at h
      · rename_i completion hpc
        obtain rfl := Option.some.inj h
        exact .sendBody t completion failure _ hpc
      · cases h
  | finishSend t locked =>
      refine ⟨m, .inl rfl, .inr ?_⟩
      simp only [Machine.step] at h
      split at h
      · rename_i completion failure hpc
        obtain rfl := Option.some.inj h
        exact .finishSend t completion failure hpc
      · rename_i completion sent failure hpc
        obtain rfl := Option.some.inj h
        have hmoved := Moved.abandon (m := m) t completion m.receiver.uncertain
          (.inr (by rw [hpc]; rfl)) id
        rw [hpc] at hmoved
        exact hmoved
      · cases h
  | interrupt t =>
      refine ⟨m, .inl rfl, .inr ?_⟩
      have habandon := fun c hpc => Moved.abandon (m := m) t c true hpc fun _ => rfl
      simp only [Machine.step] at h
      split at h
      case h_5 => cases h
      all_goals
        rename_i hpc
        obtain rfl := Option.some.inj h
        rw [hpc] at habandon
        first | exact habandon _ (.inl rfl) | exact habandon _ (.inr rfl)
  | complete t =>
      refine ⟨m, .inl rfl, .inr ?_⟩
      simp only [Machine.step] at h
      split at h
      · rename_i completion owner hpc
        obtain rfl := Option.some.inj h
        exact .complete t completion owner hpc
      · cases h
  | close t =>
      refine ⟨m.settle, .inr rfl, ?_⟩
      simp only [Machine.step] at h
      split at h
      case h_2 => cases h
      rename_i hpc
      have hpc : m.settle.pc t = .idle := hpc
      obtain ⟨hstate, hstart⟩ | hstart | ⟨hstate, hdiscarded, hstart⟩ | ⟨hstate, hstart⟩ :=
        startClose_cases m.settle.receiver <;> rw [hstart] at h <;> obtain rfl := Option.some.inj h
      · exact .inr (.already hstate)
      · exact .inl rfl
      · exact .inr (.closeAgain t hpc hstate hdiscarded)
      · exact .inr (.startClose t hpc hstate)
  | drop t =>
      refine ⟨m, .inl rfl, .inr ?_⟩
      simp only [Machine.step] at h
      split at h
      · rename_i owner hpc
        obtain rfl := Option.some.inj h
        exact .drop t owner hpc
      · cases h
  | finishClose t locked faults =>
      refine ⟨m, .inl rfl, .inr ?_⟩
      simp only [Machine.step] at h
      split at h
      · rename_i hpc
        obtain rfl := Option.some.inj h
        unfold Machine.endOutput
        split
        · rename_i hclosed
          exact .cleared t hpc hclosed
        · rename_i hopen
          exact .endOutput t faults hpc hopen
      · rename_i failure hpc
        obtain rfl := Option.some.inj h
        exact .leave t hpc
      · cases h

/-! ### Threads and state agree -/

/-- Completions are set once, by the threads that owe them. -/
structure Completions (m : Machine) : Prop where
  pending : ∀ t c, owes (m.pc t) = some c → c < m.next ∧ m.completed c = false
  completed : ∀ c, m.completed c = true → c < m.next
  own : ∀ t t' c, owes (m.pc t) = some c → owes (m.pc t') = some c → t = t'

theorem completions_moved {m m' : Machine} (hm : Completions m) (h : Moved m m') :
    Completions m' := by
  obtain ⟨pending, completed, own⟩ := hm
  cases h
  case complete t c owner hpc =>
    have howes := pending t c (by rw [hpc]; rfl)
    constructor <;> simp only [goto_pc, goto_next, Function.update_apply] <;>
      grind -ring -linarith -order -ac
  all_goals
    constructor <;> simp only [goto_pc, goto_completed, goto_next] <;>
      grind -ring -linarith -order -ac

/-- A thread between the sections of a call is in the state that the call has set. -/
structure Stages (m : Machine) : Prop where
  receiving : ∀ t c, receiving (m.pc t) = some c →
    m.receiver.state = .reading ∧ m.receiver.operation = c
  sending : ∀ t c, sendingFor (m.pc t) = some c →
    m.receiver.state = .sending ∧ m.receiver.operation = c
  closing : ∀ t, closes (m.pc t) = true → pastClose m.receiver.state = true
  dropped : ∀ t, m.pc t = .dropped → m.receiver.discarded = true
  discarded : m.receiver.discarded = true → pastClose m.receiver.state = true ∧
    ∀ t owner, m.pc t ≠ .closing (some owner)
  sole : m.receiver.discarded = false → ∀ t t', closes (m.pc t) = true → closes (m.pc t') = true →
    t = t'
  waits : m.receiver.discarded = false → pastClose m.receiver.state = true →
    m.receiver.state = .discarding

/-- `_settle_locked` sees only completions of operations that are over. -/
theorem stages_settle {m : Machine} (hthreads : Completions m) (hm : Stages m) : Stages m.settle := by
  rw [Machine.settle, Receiver.settle]
  obtain ⟨pending, completed, own⟩ := hthreads
  split
  · obtain ⟨receiving, sending, closing, dropped, discarded, sole, waits⟩ := hm
    constructor <;> simp only <;> grind -ring -linarith -order -ac
  · exact hm

theorem stages_moved {m m' : Machine} (hthreads : Completions m) (hm : Stages m) (h : Moved m m') :
    Stages m' := by
  obtain ⟨pending, completed, own⟩ := hthreads
  obtain ⟨receiving, sending, closing, dropped, discarded, sole, waits⟩ := hm
  cases h
  case finishReceive t c captured hpc =>
    have hreading := receiving t c (by rw [hpc]; rfl)
    have howes : owes (m.pc t) = some c := by rw [hpc]; rfl
    cases captured <;> constructor <;>
      simp only [goto_pc, Receiver.finishReceive] <;> grind -ring -linarith -order -ac
  case finishSend t c failure hpc =>
    have hsending := sending t c (by rw [hpc]; rfl)
    have howes : owes (m.pc t) = some c := by rw [hpc]; rfl
    constructor <;> simp only [goto_pc, Receiver.finishSend] <;> grind -ring -linarith -order -ac
  case drop t owner hpc =>
    have hcloses : closes (m.pc t) = true := by rw [hpc]; rfl
    have hpast := closing t hcloses
    have hother : ∀ t' owner', m.pc t' = .closing (some owner') → m.receiver.discarded = false →
        t' = t := fun t' owner' hpc' hdiscarded =>
      sole hdiscarded t' t (by rw [hpc']; rfl) hcloses
    constructor <;> simp only [goto_pc] <;> grind -ring -linarith -order -ac
  case endOutput t faults hpc hopen =>
    have hdiscarded := dropped t hpc
    have hpast := discarded hdiscarded
    simp only [Receiver.finishClose]
    split <;> constructor <;> simp only [goto_pc] <;> grind -ring -linarith -order -ac
  all_goals constructor <;> simp only [goto_pc, goto_receiver] <;> grind -ring -linarith -order -ac

end MaskGateway.Proofs.ResultReceiver
