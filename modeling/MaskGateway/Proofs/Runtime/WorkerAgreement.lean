import MaskGateway.Proofs.Pgwire.Codec
import MaskGateway.Proofs.Runtime.WorkerLink

/-!
# `MaskGateway.Proofs.Runtime.WorkerAgreement`: parent and worker agree

The books of a run: which answers the worker produced, what the parent's calls returned, which
sends were started. With the phases they give the agreement, in every state of every run: neither
side refuses a message of the other, a call returns the answer that was produced for its job, and a
call that has begun goes on to its end under every schedule.
-/

set_option autoImplicit false

namespace MaskGateway.Proofs.Runtime.Worker

open Lib MaskGateway.Pgwire MaskGateway.Runtime.Wire MaskGateway.Runtime.Worker Wire

variable {key : SessionKey} {limits : ResultLimits}

/-! ### The books -/

/-- A send belongs to the answer of its job. -/
def Planned (key : SessionKey) (produced : List Answer) (e : Nat × Sent) : Prop :=
  ∃ i answer, e.1 = i + 1 ∧ produced[i]? = some answer ∧
    e.2 ∈ (plan key e.1 answer).map Outgoing.what

/-- One answer for each job the worker has begun, each of them for its job, and no send that is not
of the answer of its job. -/
structure Books (key : SessionKey) (limits : ResultLimits) (s : Link) : Prop where
  count : s.produced.length = s.previous
  answers : ∀ i answer, s.produced[i]? = some answer → AnswerOf key limits (i + 1) answer
  sent : ∀ e ∈ s.sent, Planned key s.produced e
  queue : ∀ rest queue continuing, s.child = .sending rest queue continuing →
    ∀ o ∈ queue, Planned key s.produced (s.previous, o.what)

/-- A further answer leaves what is planned. -/
theorem Planned.append {produced : List Answer} {e : Nat × Sent}
    (h : Planned key produced e) (answer : Answer) :
    Planned key (produced ++ [answer]) e := by
  obtain ⟨i, a, hi, ha, hmem⟩ := h
  refine ⟨i, a, hi, ?_, hmem⟩
  rw [List.getElem?_append_left (List.getElem?_eq_some_iff.mp ha).1]
  exact ha

/-- The sends of the last answer are planned. -/
theorem planned_last {produced : List Answer} {answer : Answer} {o : Outgoing}
    (ho : o ∈ plan key (produced.length + 1) answer) :
    Planned key (produced ++ [answer]) (produced.length + 1, o.what) :=
  ⟨produced.length, answer, rfl, by simp, List.mem_map_of_mem ho⟩

/-- The books after the worker has turned to planned sends. -/
theorem books_startSends {s : Link} {continuing : Bool} {queue : List Outgoing}
    (hcount : s.produced.length = s.previous)
    (hanswers : ∀ i answer, s.produced[i]? = some answer → AnswerOf key limits (i + 1) answer)
    (hsent : ∀ e ∈ s.sent, Planned key s.produced e)
    (hqueue : ∀ o ∈ queue, Planned key s.produced (s.previous, o.what)) :
    Books key limits (startSends s continuing queue) := by
  cases queue with
  | nil =>
      refine ⟨hcount, hanswers, hsent, ?_⟩
      intro rest queue c hchild
      cases continuing <;> cases hchild
  | cons first queue =>
      rw [List.forall_mem_cons] at hqueue
      refine ⟨hcount, hanswers, ?_, ?_⟩
      · intro e he
        rcases List.mem_append.mp he with he | he
        · exact hsent e he
        · rw [List.mem_singleton.mp he]
          exact hqueue.1
      · rintro rest queue' c hchild
        cases hchild
        exact hqueue.2

/-- The books do not look at the parent or at the channels. -/
theorem Books.of_eq {s s' : Link} (h : Books key limits s) (hproduced : s'.produced = s.produced)
    (hprevious : s'.previous = s.previous) (hsent : s'.sent = s.sent)
    (hchild : s'.child = s.child ∨
      ∀ rest queue continuing, s'.child ≠ .sending rest queue continuing) :
    Books key limits s' := by
  refine ⟨?_, ?_, ?_, ?_⟩
  · rw [hproduced, hprevious]
    exact h.count
  · rw [hproduced]
    exact h.answers
  · rw [hsent, hproduced]
    exact h.sent
  · intro rest queue continuing hsending
    rw [hproduced, hprevious]
    rcases hchild with hchild | hchild
    · exact h.queue rest queue continuing (hchild ▸ hsending)
    · exact absurd hsending (hchild rest queue continuing)

theorem books_childReceive {world : JobWorld} {s s' : Link} (hharmless : Harmless key s)
    (hbooks : Books key limits s) (h : childReceive key limits world s = some s') :
    Books key limits s' := by
  cases hharmless with
  | query request lost hreads hrequest =>
      rcases query_receive hreads hrequest h with ⟨heq, hreads', -⟩ | ⟨-, answer, hanswer, rfl⟩
      · rw [heq]
        refine hbooks.of_eq rfl rfl rfl (.inr ?_)
        rintro rest queue c hchild
        rw [show s'.child = .sending rest queue c from hchild] at hreads'
        cases hreads'
      · have hcount := hbooks.count
        refine books_startSends ?_ ?_ ?_ ?_
        · show (s.produced ++ [answer]).length = s.previous + 1
          rw [List.length_append, hcount]
          rfl
        · intro i a ha
          by_cases hi : i < s.produced.length
          · exact hbooks.answers i a ((List.getElem?_append_left hi).symm.trans ha)
          · -- The answer of the job that has just ended.
            have hlt := (List.getElem?_eq_some_iff.mp ha).1
            rw [List.length_append, List.length_singleton] at hlt
            obtain rfl : i = s.produced.length := by omega
            obtain rfl := Option.some.inj (List.getElem?_concat_length.symm.trans ha)
            rw [hcount]
            exact hanswer
        · intro e he
          exact (hbooks.sent e he).append answer
        · intro o ho
          rw [← hcount] at ho ⊢
          exact planned_last ho
  | close lost hreads =>
      rcases close_receive hreads h with ⟨heq, hreads', -⟩ | ⟨-, rfl⟩
      · rw [heq]
        refine hbooks.of_eq rfl rfl rfl (.inr ?_)
        rintro rest queue c hchild
        rw [show s'.child = .sending rest queue c from hchild] at hreads'
        cases hreads'
      · exact hbooks.of_eq rfl rfl rfl (.inr fun _ _ _ h => nomatch h)
  | sends continuing left hsends htoChild =>
      rw [hsends.receive_none htoChild] at h
      cases h
  | ended code hchild =>
      rw [childReceive, hchild] at h
      cases h
  | gone hchild =>
      rw [childReceive, hchild] at h
      cases h

theorem books_childSend {n : Nat} {s s' : Link} (hbooks : Books key limits s)
    (h : childSend n s = some s') : Books key limits s' := by
  unfold childSend at h
  split at h
  case h_2 => cases h
  rename_i rest queue continuing hchild
  simp only [Option.ite_none_right_eq_some, Option.some.injEq] at h
  obtain ⟨-, rfl⟩ := h
  have hqueue := hbooks.queue rest queue continuing hchild
  split
  · exact books_startSends hbooks.count hbooks.answers hbooks.sent hqueue
  · refine ⟨hbooks.count, hbooks.answers, hbooks.sent, ?_⟩
    rintro _ _ _ hsending
    cases hsending
    exact hqueue

/-- A job sends a RESULT or an ERROR, never both. -/
theorem Books.one_reply {s : Link} (h : Books key limits s) {job : Nat}
    (hresult : (job, .result) ∈ s.sent) : (job, .error) ∉ s.sent := by
  intro herror
  obtain ⟨i, a, hi, ha, hmem⟩ := h.sent _ hresult
  obtain ⟨j, b, hj, hb, hmem'⟩ := h.sent _ herror
  obtain rfl : i = j := by
    dsimp only at hi hj
    omega
  obtain rfl := Option.some.inj (ha.symm.trans hb)
  cases a with
  | error reply => simp [plan] at hmem
  | frame bytes => simp [plan] at hmem'

/-- An answer that is on the way is one for the job of the call. -/
theorem Books.on_the_way {s : Link} {answer : Answer} (h : Books key limits s)
    (hproduced : s.produced = s.returned ++ [answer]) (hjob : s.job = s.previous) :
    AnswerOf key limits s.job answer := by
  have hcount := h.count
  rw [hproduced, List.length_append, List.length_singleton] at hcount
  rw [hjob, ← hcount]
  refine h.answers _ _ ?_
  rw [hproduced, List.getElem?_concat_length]

/-! ### The parent receives -/

/-- What the parent's bytes do: it reads on in the answer of the job, or has the whole of it and
the call returns. -/
theorem parentReceive_cases {s s' : Link} (hphase : Phase key s) (hbooks : Books key limits s)
    (h : parentReceive key limits s = some s') :
    (∃ answer left, s' = { s with parent := s'.parent, toParent := s'.toParent } ∧
        Expects key s'.job answer s'.parent (s'.toParent ++ left) ∧
        Sends (goesOn answer) s.child left ∧ s.job = s.previous ∧ s.toChild = [] ∧
        s.produced = s.returned ++ [answer] ∧ parentStage s'.parent < parentStage s.parent) ∨
      ∃ answer, s.produced = s.returned ++ [answer] ∧ s.job = s.previous ∧ s.toChild = [] ∧
        s.child = (if goesOn answer then .waiting else .ended 1) ∧
        s' = { s with parent := settled answer, toParent := [], returned := s.produced } := by
  unfold parentReceive at h
  split at h
  case h_1 => cases h
  rename_i n hwants
  simp only [Option.ite_none_right_eq_some] at h
  obtain ⟨hlen, h⟩ := h
  rcases hphase.of_wants hwants with ⟨hpos, hempty⟩ |
    ⟨answer, left, hexpects, hsends, hjob, htoChild, hproduced⟩
  · rw [hempty] at hlen
    exact absurd (Nat.lt_of_lt_of_le hpos hlen) (Nat.lt_irrefl 0)
  · have hanswer := hbooks.on_the_way hproduced hjob
    have htake : (s.toParent ++ left).take n = s.toParent.take n :=
      List.take_append_of_le_length hlen
    have hdrop : (s.toParent ++ left).drop n = s.toParent.drop n ++ left :=
      List.drop_append_of_le_length hlen
    rcases expects_receive hanswer hexpects hwants with ⟨p', hreceive, hexpects', hless⟩ |
      ⟨hreceive, hnil⟩
    · rw [htake] at hreceive
      rw [hdrop] at hexpects'
      rw [hreceive] at h
      simp only [Option.toList, List.append_nil, Option.some.injEq] at h
      subst h
      exact .inl ⟨answer, left, rfl, hexpects', hsends, hjob, htoChild, hproduced, hless⟩
    · rw [htake] at hreceive
      rw [hdrop] at hnil
      obtain ⟨hempty, rfl⟩ := List.append_eq_nil_iff.mp hnil
      rw [hreceive] at h
      simp only [Option.toList, Option.some.injEq] at h
      subst h
      refine .inr ⟨answer, hproduced, hjob, htoChild, hsends.child_eq, ?_⟩
      rw [hempty, ← hproduced]

theorem phase_parentReceive {s s' : Link} (hphase : Phase key s) (hbooks : Books key limits s)
    (h : parentReceive key limits s = some s') : Phase key s' := by
  rcases parentReceive_cases hphase hbooks h with
    ⟨answer, left, heq, hexpects, hsends, hjob, htoChild, hproduced, -⟩ |
    ⟨answer, hproduced, hjob, htoChild, hchild, rfl⟩
  · rw [heq] at hexpects ⊢
    exact .answering answer left hexpects hsends hjob htoChild hproduced
  · have hlast : s.produced.getLast? = some answer := by rw [hproduced, List.getLast?_concat]
    cases answer with
    | frame bytes =>
        exact .idle (.inr ⟨bytes, rfl, hlast⟩) hchild hjob htoChild rfl rfl
    | error reply =>
        cases hcontinue : reply.canContinue with
        | true =>
            rw [goesOn, hcontinue] at hchild
            exact .idle (.inl (by rw [settled, hcontinue]; rfl)) hchild hjob htoChild rfl rfl
        | false =>
            rw [goesOn, hcontinue] at hchild
            exact .fatal reply (by rw [settled, hcontinue]; rfl) (.inl hchild) rfl hlast hcontinue

/-! ### Every state -/

/-- What holds in every state: the phase and the books. -/
structure Sound (key : SessionKey) (limits : ResultLimits) (s : Link) : Prop where
  phase : Phase key s
  books : Books key limits s

theorem sound_start : Sound key limits {} where
  phase := .idle (.inl rfl) rfl rfl rfl rfl rfl
  books := ⟨rfl, fun _ _ h => (nomatch h), fun _ h => (nomatch h), fun _ _ _ h => (nomatch h)⟩

/-- The steps of the parent leave the books as they are. -/
theorem books_parent {s s' : Link} (hbooks : Books key limits s)
    (h : ∃ parent job toChild toParent returned, s' =
      { s with parent := parent, job := job, toChild := toChild, toParent := toParent,
               returned := returned }) : Books key limits s' := by
  obtain ⟨_, _, _, _, _, rfl⟩ := h
  exact hbooks.of_eq rfl rfl rfl (.inl rfl)

theorem sound_step {s s' : Link} {e : Event} (hsound : Sound key limits s)
    (h : step key limits s e = some s') : Sound key limits s' := by
  obtain ⟨hphase, hbooks⟩ := hsound
  cases e with
  | query sql expiresAt =>
      refine ⟨phase_query hphase h, books_parent hbooks ?_⟩
      simp only [step, query] at h
      grind
  | sendResultTo taken =>
      refine ⟨phase_sendResultTo hphase h, books_parent hbooks ?_⟩
      simp only [step, sendResultTo] at h
      grind
  | close =>
      refine ⟨phase_close hphase h, books_parent hbooks ?_⟩
      simp only [step, close] at h
      grind
  | parentSend n =>
      refine ⟨phase_parentSend hphase h, books_parent hbooks ?_⟩
      simp only [step, parentSend] at h
      grind
  | parentReceive =>
      refine ⟨phase_parentReceive hphase hbooks h, books_parent hbooks ?_⟩
      simp only [step, parentReceive] at h
      grind
  | parentFails =>
      refine ⟨phase_parentFails hphase h, books_parent hbooks ?_⟩
      simp only [step, parentFails] at h
      grind
  | childSend n => exact ⟨phase_childSend hphase h, books_childSend hbooks h⟩
  | childReceive world =>
      exact ⟨phase_childReceive hphase h, books_childReceive hphase.harmless hbooks h⟩
  | childGone =>
      refine ⟨phase_childGone hphase h, ?_⟩
      simp only [step, childGone] at h
      split at h
      · cases h
        exact hbooks.of_eq rfl rfl rfl (.inr fun _ _ _ h => nomatch h)
      · cases h

/-! ### Every call ends -/

/-- A `query` is running. -/
def Busy : Parent → Prop
  | .asking _ => True
  | .reply => True
  | .replyBody .. => True
  | .frameHeader => True
  | .frameBody .. => True
  | .done _ => True
  | .doneBody .. => True
  | _ => False

/-- A step of the session or of the worker inside a call. -/
def Internal : Event → Prop
  | .parentSend _ => True
  | .parentReceive => True
  | .childSend _ => True
  | .childReceive _ => True
  | _ => False

/-- What the worker has still to send. -/
def childLeft : Child → List UInt8
  | .sending rest queue _ => rest ++ (queue.map Outgoing.bytes).flatten
  | _ => []

/-- What the parent has still to send. -/
def parentLeft : Parent → List UInt8
  | .asking rest => rest
  | _ => []

/-- The bytes that are still to be sent and the reads that are still to be made. -/
def stepsLeft (p : Parent) (child : Child) : Nat :=
  (parentLeft p).length + childStage child + 4 * (childLeft child).length + parentStage p

/-- How far a call is from its end: whether the worker has the job, and then what is left. -/
def rank (s : Link) : Lex (Nat × Nat) := toLex (s.job - s.previous, stepsLeft s.parent s.child)

theorem Sends.childLeft_eq {continuing : Bool} {child : Child} {left : List UInt8}
    (h : Sends continuing child left) : childLeft child = left := by
  cases h <;> rfl

theorem Reads.childLeft_eq {kind : Kind} {data stream : List UInt8} {child : Child}
    (h : Reads kind data child stream) : childLeft child = [] := by
  cases h <;> rfl

/-- A worker that sends is past the packets it read, and one that is through is at most before the
next. -/
theorem Sends.childStage_le {continuing : Bool} {child : Child} {left : List UInt8}
    (h : Sends continuing child left) : childStage child ≤ 3 ∧ (left ≠ [] → childStage child = 0) := by
  cases h with
  | sending hrest => exact ⟨Nat.zero_le 3, fun _ => rfl⟩
  | waiting => exact ⟨Nat.le_refl 3, fun h => absurd rfl h⟩
  | ended => exact ⟨Nat.zero_le 3, fun _ => rfl⟩

theorem Expects.stage_pos {job : Nat} {answer : Answer} {p : Parent} {stream : List UInt8}
    (h : Expects key job answer p stream) : 2 ≤ parentStage p ∧ parentLeft p = [] := by
  cases h <;> exact ⟨by simp [parentStage], rfl⟩

theorem settled_stage (answer : Answer) :
    parentStage (settled answer) = 0 ∧ parentLeft (settled answer) = [] := by
  cases answer with
  | frame bytes => exact ⟨rfl, rfl⟩
  | error reply =>
      rw [settled]
      split <;> exact ⟨rfl, rfl⟩

/-- Inside a call every step brings its end nearer. -/
theorem rank_lt {s s' : Link} {e : Event} (hsound : Sound key limits s) (hbusy : Busy s.parent)
    (hinternal : Internal e) (h : step key limits s e = some s') : rank s' < rank s := by
  obtain ⟨hphase, hbooks⟩ := hsound
  have hphase' := hphase
  rw [rank, rank, Prod.Lex.toLex_lt_toLex]
  cases hphase with
  | asking request rest hparent hreads hrequest hjob htoParent hreturned =>
      have hnone : ∀ answer, s.produced ≠ s.returned ++ [answer] := by
        intro answer h
        have := congrArg List.length h
        rw [hreturned, List.length_append, List.length_singleton] at this
        omega
      cases e with
      | parentSend n =>
          rcases hparent with ⟨hparent, -⟩ | ⟨hparent, -⟩
          · simp only [step, parentSend, hparent, Option.ite_none_right_eq_some,
              Option.some.injEq] at h
            obtain ⟨hn, rfl⟩ := h
            refine .inr ⟨rfl, ?_⟩
            rw [hparent, stepsLeft, stepsLeft]
            by_cases hdrop : rest.drop n = []
            · simp only [if_pos hdrop, parentLeft, parentStage, List.length_nil]
              omega
            · simp only [if_neg hdrop, parentLeft, parentStage, List.length_drop]
              omega
          · simp only [step, parentSend, hparent] at h
            cases h
      | parentReceive =>
          rcases parentReceive_cases hphase' hbooks h with
            ⟨answer, -, -, -, -, -, -, hproduced, -⟩ | ⟨answer, hproduced, -⟩
          · exact absurd hproduced (hnone answer)
          · exact absurd hproduced (hnone answer)
      | childSend n =>
          rw [step, hreads.childSend_none] at h
          cases h
      | childReceive world =>
          rcases query_receive hreads hrequest h with ⟨heq, hreads', hstage⟩ | ⟨-, answer, -, rfl⟩
          · rw [heq]
            refine .inr ⟨rfl, ?_⟩
            show stepsLeft s.parent s'.child < stepsLeft s.parent s.child
            rw [stepsLeft, stepsLeft, hreads.childLeft_eq, hreads'.childLeft_eq]
            omega
          · rw [startSends_eq]
            refine .inl ?_
            show s.job - (s.previous + 1) < s.job - s.previous
            omega
      | query => exact hinternal.elim
      | sendResultTo => exact hinternal.elim
      | close => exact hinternal.elim
      | parentFails => exact hinternal.elim
      | childGone => exact hinternal.elim
  | answering answer left hexpects hsends hjob htoChild hproduced =>
      obtain ⟨hstage, hleft⟩ := hexpects.stage_pos
      cases e with
      | parentSend n =>
          simp only [step, parentSend] at h
          split at h
          · rename_i hp
            rw [hp] at hexpects
            cases hexpects
          · rename_i hp
            rw [hp] at hexpects
            cases hexpects
          · cases h
      | parentReceive =>
          rcases parentReceive_cases hphase' hbooks h with
            ⟨answer', left', heq, hexpects', -, -, -, -, hless⟩ | ⟨answer', -, -, -, -, rfl⟩
          · obtain ⟨-, hleft'⟩ := hexpects'.stage_pos
            rw [heq]
            refine .inr ⟨rfl, ?_⟩
            show stepsLeft s'.parent s.child < stepsLeft s.parent s.child
            rw [stepsLeft, stepsLeft, hleft, hleft']
            omega
          · obtain ⟨hzero, hempty⟩ := settled_stage answer'
            refine .inr ⟨rfl, ?_⟩
            show stepsLeft (settled answer') s.child < stepsLeft s.parent s.child
            rw [stepsLeft, stepsLeft, hleft, hempty, hzero]
            omega
      | childSend n =>
          obtain ⟨left', hsends', -, hless, heq⟩ := sends_childSend hsends h
          have hzero := hsends.childStage_le.2 (List.ne_nil_of_length_pos (by omega))
          have hthree := hsends'.childStage_le.1
          rw [heq]
          refine .inr ⟨rfl, ?_⟩
          show stepsLeft s.parent s'.child < stepsLeft s.parent s.child
          rw [stepsLeft, stepsLeft, hsends.childLeft_eq, hsends'.childLeft_eq]
          omega
      | childReceive world =>
          rw [step, hsends.receive_none htoChild] at h
          cases h
      | query => exact hinternal.elim
      | sendResultTo => exact hinternal.elim
      | close => exact hinternal.elim
      | parentFails => exact hinternal.elim
      | childGone => exact hinternal.elim
  | idle h => rcases h with h | ⟨_, h, -⟩ <;> rw [h] at hbusy <;> exact hbusy.elim
  | closing _ h => rw [h.1] at hbusy; exact hbusy.elim
  | fatal _ h => rw [h] at hbusy; exact hbusy.elim
  | shut h => rcases h with h | h <;> rw [h] at hbusy <;> exact hbusy.elim

/-- What the parent waits for is part of what it has still to read. -/
theorem Expects.wants_le {job : Nat} {answer : Answer} {p : Parent} {stream : List UInt8}
    (hanswer : AnswerOf key limits job answer) (h : Expects key job answer p stream) :
    ∃ n, p.wants = some n ∧ n ≤ stream.length := by
  cases h with
  | reply =>
      refine ⟨_, rfl, ?_⟩
      cases answer with
      | error reply =>
          rw [answerBytes_error, packetWire, List.length_append, length_packHeader]
          exact Nat.le_add_right ..
      | frame bytes =>
          rw [answerBytes_frame, packetWire, List.append_assoc, List.length_append,
            length_packHeader]
          exact Nat.le_add_right ..
  | errorBody => exact ⟨_, rfl, Nat.le_refl _⟩
  | notice => exact ⟨0, rfl, Nat.zero_le _⟩
  | frameHeader =>
      obtain ⟨identity, v, -, hvalid⟩ := hanswer
      refine ⟨_, rfl, Nat.le_trans (validateResult_parts hvalid).1 ?_⟩
      rw [List.length_append]
      exact Nat.le_add_right ..
  | frameBody =>
      obtain ⟨identity, v, -, hvalid⟩ := hanswer
      refine ⟨_, rfl, ?_⟩
      rw [List.length_take_of_le (validateResult_parts hvalid).1, List.length_append,
        List.length_drop]
      exact Nat.le_add_right ..
  | done =>
      refine ⟨_, rfl, ?_⟩
      rw [packetWire, List.length_append, length_packHeader]
      exact Nat.le_add_right ..
  | doneBody => exact ⟨_, rfl, Nat.le_refl _⟩

/-- A worker that has something left can send. -/
theorem Sends.can_send {continuing : Bool} {left : List UInt8} {s : Link}
    (h : Sends continuing s.child left) (hleft : left ≠ []) : (childSend 1 s).isSome := by
  rw [childSend]
  generalize s.child = child at h
  cases h with
  | sending hrest =>
      dsimp only
      rw [if_pos ⟨Nat.le_refl 1, List.length_pos_iff.mpr hrest⟩]
      rfl
  | waiting => exact absurd rfl hleft
  | ended => exact absurd rfl hleft

/-- Inside a call some step can always be taken, whatever the adapter does. -/
theorem can_move {s : Link} (hsound : Sound key limits s) (hbusy : Busy s.parent) :
    (step key limits s (.parentSend 1)).isSome ∨ (step key limits s .parentReceive).isSome ∨
      (step key limits s (.childSend 1)).isSome ∨
      ∀ world, (step key limits s (.childReceive world)).isSome := by
  obtain ⟨hphase, hbooks⟩ := hsound
  cases hphase with
  | asking request rest hparent hreads hrequest hjob htoParent hreturned =>
      rcases hparent with ⟨hparent, hne⟩ | ⟨hparent, rfl⟩
      · -- The parent has bytes left.
        have hpos := List.length_pos_iff.mpr hne
        refine .inl ?_
        simp only [step, parentSend, hparent]
        rw [if_pos ⟨Nat.le_refl 1, hpos⟩]
        rfl
      · -- The whole packet is in the channel.
        refine .inr (.inr (.inr fun world => ?_))
        rw [List.append_nil] at hreads
        have hready : ∃ n, s.child.wants = some n ∧ n ≤ s.toChild.length := by
          generalize s.child = child at hreads
          cases hreads with
          | waiting h =>
              refine ⟨1, rfl, ?_⟩
              rw [h]
              exact length_packetWire_pos _
          | @header first _ hfirst h =>
              refine ⟨_, rfl, ?_⟩
              have hlength := congrArg List.length h
              rw [List.length_append, hfirst, packetWire, List.length_append,
                length_packHeader] at hlength
              omega
          | body h => exact ⟨_, rfl, by rw [h]⟩
        obtain ⟨n, hwants, hlen⟩ := hready
        simp only [step, childReceive, hwants]
        rw [if_pos hlen]
        rfl
  | answering answer left hexpects hsends hjob htoChild hproduced =>
      obtain ⟨n, hwants, hlen⟩ :=
        hexpects.wants_le (hbooks.on_the_way hproduced hjob)
      by_cases hready : n ≤ s.toParent.length
      · refine .inr (.inl ?_)
        simp only [step, parentReceive, hwants]
        rw [if_pos hready]
        split <;> rfl
      · refine .inr (.inr (.inl (hsends.can_send ?_)))
        rintro rfl
        rw [List.append_nil] at hlen
        exact hready hlen
  | idle h => rcases h with h | ⟨_, h, -⟩ <;> rw [h] at hbusy <;> exact hbusy.elim
  | closing _ h => rw [h.1] at hbusy; exact hbusy.elim
  | fatal _ h => rw [h] at hbusy; exact hbusy.elim
  | shut h => rcases h with h | h <;> rw [h] at hbusy <;> exact hbusy.elim

/-- A session that is ready takes the next text. -/
theorem query_accepted {s : Link} {sql : List UInt8} (hready : s.parent = .ready)
    (hjob : s.job < maxId) (hsql : SqlText sql) (expiresAt : Expiry) :
    ∃ s', step key limits s (.query sql expiresAt) = some s' ∧ Busy s'.parent ∧
      s'.job = s.job + 1 := by
  let request : Query :=
    { key := key, jobId := s.job + 1, expiresAt := expiresAt, sql := sql,
      jobId_range := ⟨Nat.succ_pos _, hjob⟩, sql_text := hsql }
  have hmake : Query.make key (s.job + 1) expiresAt.bits sql = .ok request :=
    Query.make_eq_ok.mpr ⟨rfl, rfl, rfl, rfl⟩
  have hencode : encodeQuery request = .ok (packetWire (.query, queryWire request)) :=
    (encode_eq_ok (m := .query request)).mpr ⟨trivial, rfl⟩
  refine ⟨{ s with job := s.job + 1, parent := .asking (packetWire (.query, queryWire request)) },
    ?_, trivial, rfl⟩
  rw [step, query, hready]
  dsimp only
  rw [if_pos ⟨hjob, hsql.1.1, hsql.1.2.1⟩, hmake, Except.bind, hencode]

/-! ### The agreement -/

/-- What holds between a session and its worker. -/
structure Agreement (key : SessionKey) (limits : ResultLimits) (s : Link) : Prop where
  /-- neither side refuses a message of the other -/
  not_refused : s.parent ≠ .closed .refused ∧ s.child ≠ .refused
  /-- one answer for each job, under the key, the number and the limits of the job -/
  answers : s.produced.length = s.previous ∧
    ∀ i answer, s.produced[i]? = some answer → AnswerOf key limits (i + 1) answer
  /-- the calls return the answers, in order -/
  returned : s.returned <+: s.produced
  /-- a call ends with the answer that the worker produced for its job, and both sides can run the
  next job or both have ended -/
  answered : ∀ e s', step key limits s e = some s' → s'.returned ≠ s.returned →
    ∃ answer, s'.returned = s.returned ++ [answer] ∧ s'.produced = s'.returned ∧
      s'.produced.length = s.job ∧ s'.parent = settled answer ∧
      s'.child = if goesOn answer then .waiting else .ended 1
  /-- between two calls the worker waits for the next job, and nothing is unread -/
  ready : s.parent = .ready ∨ (∃ frame, s.parent = .result frame) →
    s.child = .waiting ∧ s.previous = s.job ∧ s.toChild = [] ∧ s.toParent = [] ∧
      s.returned = s.produced
  /-- the frame that can be sent is the one that was returned -/
  result : ∀ frame, s.parent = .result frame → s.returned.getLast? = some (.frame frame)
  /-- a reply that does not go on ends the worker -/
  fatal : s.parent = .closed .fatalReply → s.child = .ended 1 ∨ s.child = .gone
  /-- after a RESULT no ERROR is sent for the same job -/
  one_reply : ∀ job, (job, .result) ∈ s.sent → (job, .error) ∉ s.sent
  /-- a session that is ready takes the next text -/
  accepts : s.parent = .ready → s.job < maxId → ∀ sql expiresAt, SqlText sql →
    ∃ s', step key limits s (.query sql expiresAt) = some s' ∧ Busy s'.parent ∧ s'.job = s.job + 1
  /-- a call that is running can go on, -/
  moves : Busy s.parent →
    (step key limits s (.parentSend 1)).isSome ∨ (step key limits s .parentReceive).isSome ∨
      (step key limits s (.childSend 1)).isSome ∨
      ∀ world, (step key limits s (.childReceive world)).isSome
  /-- and comes nearer to its end with every step -/
  descends : Busy s.parent → ∀ e s', Internal e → step key limits s e = some s' → rank s' < rank s

theorem startSends_returned (s : Link) (continuing : Bool) (queue : List Outgoing) :
    (startSends s continuing queue).returned = s.returned := by
  cases queue <;> rfl

theorem receiveQuery_returned (world : JobWorld) (data : List UInt8) (s : Link) :
    (receiveQuery key limits world data s).returned = s.returned := by
  unfold receiveQuery
  split
  · rfl
  · split
    · split
      · rfl
      · rw [startSends_returned]
    · rfl

theorem receive_returned (world : JobWorld) (data : List UInt8) (child : Child) (s : Link) :
    (child.receive key limits world data s).returned = s.returned := by
  cases child with
  | header first =>
      simp only [Child.receive]
      split
      · rfl
      · split <;> rfl
  | body kind size =>
      simp only [Child.receive]
      split
      · rfl
      · rw [receiveQuery_returned]
  | _ => rfl

/-- Only the parent's `recv_exact` lets a call return. -/
theorem returned_eq {s s' : Link} {e : Event} (he : e ≠ .parentReceive)
    (h : step key limits s e = some s') : s'.returned = s.returned := by
  cases e with
  | parentReceive => exact absurd rfl he
  | query =>
      simp only [step, query] at h
      grind
  | sendResultTo =>
      simp only [step, sendResultTo] at h
      grind
  | close =>
      simp only [step, close] at h
      grind
  | parentSend =>
      simp only [step, parentSend] at h
      grind
  | parentFails =>
      simp only [step, parentFails] at h
      grind
  | childSend =>
      simp only [step, childSend] at h
      grind [startSends_returned]
  | childReceive =>
      simp only [step, childReceive] at h
      grind [receive_returned]
  | childGone =>
      simp only [step, childGone] at h
      grind

theorem Sound.agreement {s : Link} (h : Sound key limits s) : Agreement key limits s where
  not_refused := by
    refine ⟨?_, ?_⟩
    · intro hclosed
      cases h.phase with
      | idle hp => rcases hp with hp | ⟨_, hp, -⟩ <;> cases hclosed.symm.trans hp
      | asking _ _ hp => rcases hp with ⟨hp, -⟩ | ⟨hp, -⟩ <;> cases hclosed.symm.trans hp
      | answering _ _ hexpects =>
          rw [hclosed] at hexpects
          cases hexpects
      | closing _ hp => cases hclosed.symm.trans hp.1
      | fatal _ hp => cases hclosed.symm.trans hp
      | shut hp => rcases hp with hp | hp <;> cases hclosed.symm.trans hp
    · intro hrefused
      cases h.phase.harmless with
      | query _ _ hreads => rw [hrefused] at hreads; cases hreads
      | close _ hreads => rw [hrefused] at hreads; cases hreads
      | sends _ _ hsends => rw [hrefused] at hsends; cases hsends
      | ended _ hchild => cases hrefused.symm.trans hchild
      | gone hchild => cases hrefused.symm.trans hchild
  answers := ⟨h.books.count, h.books.answers⟩
  returned := h.phase.returned_prefix
  answered := by
    intro e s' hstep hne
    by_cases he : e = .parentReceive
    · subst he
      rcases parentReceive_cases h.phase h.books hstep with
        ⟨_, _, heq, -⟩ | ⟨answer, hproduced, hjob, -, hchild, rfl⟩
      · rw [heq] at hne
        exact absurd rfl hne
      · exact ⟨answer, hproduced, rfl, h.books.count.trans hjob.symm, rfl, hchild⟩
    · exact absurd (returned_eq he hstep) hne
  ready := by
    intro hparent
    obtain ⟨hchild, hjob, htoChild, htoParent, hreturned⟩ := h.phase.atRest hparent
    exact ⟨hchild, hjob.symm, htoChild, htoParent, hreturned⟩
  result := by
    intro frame hresult
    cases h.phase with
    | idle hp =>
        rcases hp with hp | ⟨frame', hp, hlast⟩
        · cases hresult.symm.trans hp
        · rw [Parent.result.inj (hresult.symm.trans hp)]
          exact hlast
    | asking _ _ hp => rcases hp with ⟨hp, -⟩ | ⟨hp, -⟩ <;> cases hresult.symm.trans hp
    | answering _ _ hexpects =>
        rw [hresult] at hexpects
        cases hexpects
    | closing _ hp => cases hresult.symm.trans hp.1
    | fatal _ hp => cases hresult.symm.trans hp
    | shut hp => rcases hp with hp | hp <;> cases hresult.symm.trans hp
  fatal := by
    intro hclosed
    cases h.phase with
    | fatal _ _ hchild => exact hchild
    | idle hp => rcases hp with hp | ⟨_, hp, -⟩ <;> cases hclosed.symm.trans hp
    | asking _ _ hp => rcases hp with ⟨hp, -⟩ | ⟨hp, -⟩ <;> cases hclosed.symm.trans hp
    | answering _ _ hexpects =>
        rw [hclosed] at hexpects
        cases hexpects
    | closing _ hp => cases hclosed.symm.trans hp.1
    | shut hp => rcases hp with hp | hp <;> cases hclosed.symm.trans hp
  one_reply := fun _ hresult => h.books.one_reply hresult
  accepts := fun hready hjob _ expiresAt hsql => query_accepted hready hjob hsql expiresAt
  moves := can_move h
  descends := fun hbusy _ _ hinternal hstep => rank_lt h hbusy hinternal hstep

/-- A session and its worker agree in every state of every run: over any texts, whatever the
adapter does, however the bytes are cut and in whatever order the two sides move. -/
theorem parent_worker_agree (key : SessionKey) (limits : ResultLimits) (events : List Event)
    (s : Link) (hrun : run (step key limits) {} events = some s) : Agreement key limits s :=
  (run_invariant (P := Sound key limits) sound_step hrun sound_start).agreement

/-! ### A job that runs out of memory -/

/-- A session. -/
def sampleKey : SessionKey where
  sessionId := List.replicate 16 1
  datasourceId := List.replicate 16 2
  generation := 1
  recordRevision := 1
  sessionId_length := Proofs.Pgwire.length_sampleSession
  datasourceId_length := Proofs.Pgwire.length_sampleDatasource
  generation_range := by decide
  recordRevision_range := by decide

/-- A job whose start raises `MemoryError`. -/
def shortOfMemory : JobWorld where
  before := some .memoryError
  maxRows := 1
  healthyBefore := .ok true
  healthyExecuted := .ok true
  healthyEncoded := .ok true
  healthyFailed := .ok true
  execute := .error .other
  interrupt := none
  after := none

/-- One text, cut in two on the way there and in two on the way back. -/
def sampleRun : List Event :=
  [.query [0x78] ⟨1, by decide⟩, .parentSend 30, .childReceive shortOfMemory, .parentSend 47,
    .childReceive shortOfMemory, .childReceive shortOfMemory, .childSend 20, .parentReceive,
    .childSend 52, .parentReceive]

theorem parent_worker_agree_sample :
    ∃ s, run (step sampleKey Pgwire.sampleLimits) {} sampleRun = some s ∧
      Agreement sampleKey Pgwire.sampleLimits s ∧ s.parent = .closed .fatalReply := by
  refine ⟨_, rfl, ?_, rfl⟩
  exact parent_worker_agree sampleKey Pgwire.sampleLimits sampleRun _ rfl

end MaskGateway.Proofs.Runtime.Worker
