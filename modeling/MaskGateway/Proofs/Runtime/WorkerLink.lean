import MaskGateway.Proofs.Runtime.WorkerJob
import MaskGateway.Lib.Machine

/-!
# `MaskGateway.Proofs.Runtime.WorkerLink`: where the two sides stand

A session and its worker take turns, and at every moment the bytes between them are what one side
has still to read of what the other side sends. `Reads` says so of the worker, for a packet that it
has begun to read; `Expects` of the parent, for the answer of a job; `Sends` is a worker with sends
left. A `Phase` puts the two sides together, and every step goes from a phase to a phase.

The channels are byte queues, and a packet may be cut anywhere. The statements are therefore about
what a side has read, what is in the channel and what is still to be sent, appended.
-/

set_option autoImplicit false

namespace MaskGateway.Proofs.Runtime.Worker

open Lib MaskGateway.Pgwire MaskGateway.Runtime.Wire MaskGateway.Runtime.Worker Wire

variable {key : SessionKey} {limits : ResultLimits}

/-! ### Bytes on the way -/

/-- What a packet leaves when its header is gone. -/
theorem drop_packetWire (kind : Kind) (data rest : List UInt8) :
    (packetWire (kind, data) ++ rest).drop headerBytes = data ++ rest := by
  rw [packetWire, List.append_assoc, List.drop_left' (length_packHeader ..)]

theorem take_packetWire (kind : Kind) (data rest : List UInt8) :
    (packetWire (kind, data) ++ rest).take headerBytes = packHeader kind data.length := by
  rw [packetWire, List.append_assoc, List.take_left' (length_packHeader ..)]

theorem packetWire_ne_nil (p : Kind × List UInt8) : packetWire p ≠ [] :=
  List.ne_nil_of_length_pos (length_packetWire_pos p)

/-- All bytes of an answer. -/
def answerBytes (key : SessionKey) (job : Nat) (answer : Answer) : List UInt8 :=
  ((plan key job answer).map Outgoing.bytes).flatten

theorem answerBytes_error (key : SessionKey) (job : Nat) (reply : ErrorReply) :
    answerBytes key job (.error reply) = packetWire (.error, errorWire reply) := by
  simp [answerBytes, plan]

theorem answerBytes_frame (key : SessionKey) (job : Nat) (frame : List UInt8) :
    answerBytes key job (.frame frame) =
      packetWire (.result, []) ++ (frame ++ packetWire (.done, doneWire key job)) := by
  simp [answerBytes, plan]

/-- What the validator says of a frame: the header announces its length, and it is returned as it
came. -/
theorem validateResult_parts {raw : List UInt8} {identity : ResultIdentity} {v : ValidatedResult}
    (h : validateResult raw identity limits = .ok v) :
    headerSize ≤ raw.length ∧ v.wire = raw ∧
      ∃ header, inspectResultHeader (raw.take headerSize) identity limits = .ok header ∧
        header.frameBytes = raw.length := by
  rw [validateResult] at h
  simp only [bind_eq_ok, refuseIf_eq_ok, exists_const, not_not] at h
  obtain ⟨hlen, header, hheader, hframe, h⟩ := h
  refine ⟨hlen.1, ?_, header, hheader, hframe⟩
  simp only [Pgwire.run, bind_eq_ok, refuseIf_eq_ok, exists_const, pure_eq_ok, Prod.exists] at h
  obtain ⟨_, _, _, _, _, _, _, _, _, _, _, rfl⟩ := h
  rfl

/-- A number with an identity is in range. -/
theorem jobId_range_of_identity {job : Nat} {identity : ResultIdentity}
    (h : key.resultIdentity job = .ok identity) : 1 ≤ job ∧ job ≤ maxId := by
  unfold SessionKey.resultIdentity at h
  split at h
  · assumption
  · cases h

/-- Every send of an answer has bytes. -/
theorem plan_bytes {job : Nat} {answer : Answer} (hanswer : AnswerOf key limits job answer) :
    ∀ o ∈ plan key job answer, o.bytes ≠ [] := by
  cases answer with
  | error reply =>
      intro o ho
      rw [List.mem_singleton.mp ho]
      exact packetWire_ne_nil _
  | frame bytes =>
      obtain ⟨identity, v, -, hvalid⟩ := hanswer
      have hlen := (validateResult_parts hvalid).1
      have hbytes : bytes ≠ [] :=
        List.ne_nil_of_length_pos (Nat.lt_of_lt_of_le (by decide) hlen)
      intro o ho
      simp only [plan, List.mem_cons, List.not_mem_nil, or_false] at ho
      rcases ho with rfl | rfl | rfl
      · exact packetWire_ne_nil _
      · exact hbytes
      · exact packetWire_ne_nil _

/-! ### The worker reads -/

/-- The worker is reading this packet, and `stream` is what it has still to read of it. -/
inductive Reads (kind : Kind) (data : List UInt8) : Child → List UInt8 → Prop
  | waiting {stream : List UInt8} (h : stream = packetWire (kind, data)) :
      Reads kind data .waiting stream
  | header {first stream : List UInt8} (hfirst : first.length = 1)
      (h : first ++ stream = packetWire (kind, data)) : Reads kind data (.header first) stream
  | body {stream : List UInt8} (h : stream = data) : Reads kind data (.body kind data.length) stream

/-- How many reads the worker is from the end of a packet. -/
def childStage : Child → Nat
  | .waiting => 3
  | .header _ => 2
  | .body _ _ => 1
  | _ => 0

/-- The worker reads on. Either it is still reading the same packet, or it had the whole body in
the channel and is through with it. -/
theorem reads_receive {kind : Kind} {data lost : List UInt8} {world : JobWorld} {s s' : Link}
    (hkind : kind = .query ∨ kind = .close)
    (hbounds : (lengths kind).1 ≤ data.length ∧ data.length ≤ (lengths kind).2)
    (hreads : Reads kind data s.child (s.toChild ++ lost))
    (h : childReceive key limits world s = some s') :
    (s' = { s with child := s'.child, toChild := s'.toChild } ∧
        Reads kind data s'.child (s'.toChild ++ lost) ∧
        childStage s'.child < childStage s.child) ∨
      (lost = [] ∧ s.toChild = data ∧ s.child = .body kind data.length ∧
        s' = (Child.body kind data.length).receive key limits world data
          { s with toChild := [] }) := by
  rw [childReceive] at h
  generalize hchild : s.child = child at h hreads
  cases hreads with
  | waiting hstream =>
      simp only [Child.wants, Option.ite_none_right_eq_some, Option.some.injEq] at h
      obtain ⟨hlen, rfl⟩ := h
      refine .inl ⟨rfl, .header (List.length_take_of_le hlen) ?_, Nat.lt_succ_self 2⟩
      show s.toChild.take 1 ++ (s.toChild.drop 1 ++ lost) = _
      rw [← List.append_assoc, List.take_append_drop, hstream]
  | @header first _ hfirst hstream =>
      simp only [Child.wants, Option.ite_none_right_eq_some, Option.some.injEq] at h
      obtain ⟨hlen, rfl⟩ := h
      -- The first byte and the next eleven are the header of the packet.
      have hparts : (first ++ s.toChild.take (headerBytes - 1)) ++
          (s.toChild.drop (headerBytes - 1) ++ lost) = packHeader kind data.length ++ data := by
        rw [List.append_assoc, ← List.append_assoc (s.toChild.take _), List.take_append_drop,
          hstream]
        rfl
      have hlength : (first ++ s.toChild.take (headerBytes - 1)).length = headerBytes := by
        rw [List.length_append, hfirst, List.length_take_of_le hlen]
        rfl
      obtain ⟨hheader, hrest⟩ := List.append_inj hparts (by rw [hlength, length_packHeader])
      have hparse := parseHeader_eq_ok.mpr ⟨hbounds, hheader⟩
      have hreceive : ∀ t : Link, (Child.header first).receive key limits world
          (s.toChild.take (headerBytes - 1)) t = { t with child := .body kind data.length } := by
        intro t
        simp only [Child.receive, hparse]
        rw [if_pos hkind]
      rw [hreceive]
      exact .inl ⟨rfl, .body hrest, Nat.lt_succ_self 1⟩
  | body hstream =>
      simp only [Child.wants, Option.ite_none_right_eq_some, Option.some.injEq] at h
      obtain ⟨hlen, rfl⟩ := h
      have hlost : lost = [] := by
        have := congrArg List.length hstream
        rw [List.length_append] at this
        exact List.eq_nil_of_length_eq_zero (by omega)
      rw [hlost, List.append_nil] at hstream
      refine .inr ⟨hlost, hstream, rfl, ?_⟩
      rw [← hstream, List.take_length, List.drop_length]

/-- The next QUERY of the session is taken, and its job ends in an answer. -/
theorem receiveQuery_eq {request : Query} (world : JobWorld) {s : Link}
    (hrequest : request.key = key ∧ request.jobId = s.previous + 1) :
    ∃ answer, AnswerOf key limits (s.previous + 1) answer ∧
      receiveQuery key limits world (queryWire request) s =
        startSends { s with previous := s.previous + 1, produced := s.produced ++ [answer] }
          (goesOn answer) (plan key (s.previous + 1) answer) := by
  obtain ⟨answer, hjob, hanswer⟩ := oneJob_eq world request limits
  rw [hrequest.1, hrequest.2] at hjob hanswer
  refine ⟨answer, hanswer, ?_⟩
  rw [receiveQuery, decodeQuery_eq_ok.mpr rfl]
  dsimp only
  rw [if_pos hrequest, hjob, hrequest.2]

/-- The worker reads on in a QUERY for the next job, or has all of it and ends the job in an
answer. -/
theorem query_receive {request : Query} {lost : List UInt8} {world : JobWorld} {s s' : Link}
    (hreads : Reads .query (queryWire request) s.child (s.toChild ++ lost))
    (hrequest : request.key = key ∧ request.jobId = s.previous + 1)
    (h : childReceive key limits world s = some s') :
    (s' = { s with child := s'.child, toChild := s'.toChild } ∧
        Reads .query (queryWire request) s'.child (s'.toChild ++ lost) ∧
        childStage s'.child < childStage s.child) ∨
      (lost = [] ∧ ∃ answer, AnswerOf key limits (s.previous + 1) answer ∧
        s' = startSends { s with toChild := [], previous := s.previous + 1,
                                 produced := s.produced ++ [answer] }
          (goesOn answer) (plan key (s.previous + 1) answer)) := by
  have hbounds : (lengths .query).1 ≤ (queryWire request).length ∧
      (queryWire request).length ≤ (lengths .query).2 :=
    length_wire (m := .query request) trivial
  rcases reads_receive (.inl rfl) hbounds hreads h with hstill | ⟨hlost, -, -, rfl⟩
  · exact .inl hstill
  · rw [Child.receive, if_neg (by decide)]
    exact .inr ⟨hlost, receiveQuery_eq world (s := { s with toChild := [] }) hrequest⟩

/-- The worker reads on in a CLOSE, or has all of it and ends. -/
theorem close_receive {lost : List UInt8} {world : JobWorld} {s s' : Link}
    (hreads : Reads .close [] s.child (s.toChild ++ lost))
    (h : childReceive key limits world s = some s') :
    (s' = { s with child := s'.child, toChild := s'.toChild } ∧
        Reads .close [] s'.child (s'.toChild ++ lost) ∧
        childStage s'.child < childStage s.child) ∨
      (lost = [] ∧ s' = { s with toChild := [], child := .ended 0 }) := by
  rcases reads_receive (.inr rfl) (by decide) hreads h with hstill | ⟨hlost, -, -, rfl⟩
  · exact .inl hstill
  · exact .inr ⟨hlost, rfl⟩

/-! ### The worker sends -/

/-- The worker has `left` to send, and knows whether it goes on after it. -/
inductive Sends (continuing : Bool) : Child → List UInt8 → Prop
  | sending {rest : List UInt8} {queue : List Outgoing} (hrest : rest ≠ [])
      (hqueue : ∀ o ∈ queue, o.bytes ≠ []) :
      Sends continuing (.sending rest queue continuing)
        (rest ++ (queue.map Outgoing.bytes).flatten)
  | waiting (h : continuing = true) : Sends continuing .waiting []
  | ended (h : continuing = false) : Sends continuing (.ended 1) []

/-- The worker turns to a list of sends. -/
theorem sends_startSends {queue : List Outgoing} (continuing : Bool) (s : Link)
    (hqueue : ∀ o ∈ queue, o.bytes ≠ []) :
    Sends continuing (startSends s continuing queue).child
      (queue.map Outgoing.bytes).flatten := by
  cases queue with
  | nil =>
      cases continuing with
      | true => exact .waiting rfl
      | false => exact .ended rfl
  | cons o queue =>
      rw [List.forall_mem_cons] at hqueue
      rw [List.map_cons, List.flatten_cons]
      exact .sending hqueue.1 hqueue.2

/-- What `startSends` leaves as it is. -/
theorem startSends_eq (s : Link) (continuing : Bool) (queue : List Outgoing) :
    startSends s continuing queue =
      { s with child := (startSends s continuing queue).child
               sent := (startSends s continuing queue).sent } := by
  cases queue <;> rfl

/-- Bytes that the worker hands over go from what it has left to the channel. -/
theorem sends_childSend {continuing : Bool} {left : List UInt8} {n : Nat} {s s' : Link}
    (hsends : Sends continuing s.child left) (h : childSend n s = some s') :
    ∃ left', Sends continuing s'.child left' ∧ s'.toParent ++ left' = s.toParent ++ left ∧
      left'.length < left.length ∧
      s' = { s with child := s'.child, toParent := s'.toParent, sent := s'.sent } := by
  rw [childSend] at h
  generalize hchild : s.child = child at h hsends
  cases hsends with
  | @sending rest queue hrest hqueue =>
      simp only [Option.ite_none_right_eq_some, Option.some.injEq] at h
      obtain ⟨hn, rfl⟩ := h
      have hbytes : (s.toParent ++ rest.take n) ++ (rest.drop n ++
          (queue.map Outgoing.bytes).flatten) =
          s.toParent ++ (rest ++ (queue.map Outgoing.bytes).flatten) := by
        rw [List.append_assoc, ← List.append_assoc (rest.take n), List.take_append_drop]
      have hless : (rest.drop n ++ (queue.map Outgoing.bytes).flatten).length <
          (rest ++ (queue.map Outgoing.bytes).flatten).length := by
        rw [List.length_append, List.length_append, List.length_drop]
        omega
      by_cases hdrop : rest.drop n = []
      · rw [if_pos hdrop]
        rw [hdrop, List.nil_append] at hbytes hless
        refine ⟨_, sends_startSends continuing _ hqueue, ?_, hless, ?_⟩
        · rw [startSends_eq]
          exact hbytes
        · rw [startSends_eq]
      · rw [if_neg hdrop]
        exact ⟨_, .sending hdrop hqueue, hbytes, hless, rfl⟩
  | waiting hc => cases h
  | ended hc => cases h

/-! ### The parent reads -/

/-- The parent is reading this answer, and `stream` is what it has still to read of it. -/
inductive Expects (key : SessionKey) (job : Nat) : Answer → Parent → List UInt8 → Prop
  | reply {answer : Answer} : Expects key job answer .reply (answerBytes key job answer)
  | errorBody {reply : ErrorReply} :
      Expects key job (.error reply) (.replyBody .error (errorWire reply).length) (errorWire reply)
  | notice {frame : List UInt8} :
      Expects key job (.frame frame) (.replyBody .result 0)
        (frame ++ packetWire (.done, doneWire key job))
  | frameHeader {frame : List UInt8} :
      Expects key job (.frame frame) .frameHeader (frame ++ packetWire (.done, doneWire key job))
  | frameBody {frame : List UInt8} :
      Expects key job (.frame frame) (.frameBody (frame.take headerSize) frame.length)
        (frame.drop headerSize ++ packetWire (.done, doneWire key job))
  | done {frame : List UInt8} :
      Expects key job (.frame frame) (.done frame) (packetWire (.done, doneWire key job))
  | doneBody {frame : List UInt8} :
      Expects key job (.frame frame) (.doneBody frame (doneWire key job).length) (doneWire key job)

/-- How many reads the parent is from the end of an answer. -/
def parentStage : Parent → Nat
  | .asking _ => 8
  | .reply => 7
  | .replyBody .. => 6
  | .frameHeader => 5
  | .frameBody .. => 4
  | .done _ => 3
  | .doneBody .. => 2
  | _ => 0

/-- Where an answer leaves the parent. -/
def settled : Answer → Parent
  | .error reply => if reply.canContinue then .ready else .closed .fatalReply
  | .frame bytes => .result bytes

/-- A header of an allowed kind and a short body passes `control`. -/
theorem control_eq {allowed : List Kind} {kind : Kind} {size : Nat} (hkind : kind ∈ allowed)
    (hbounds : (lengths kind).1 ≤ size ∧ size ≤ (lengths kind).2) (hsize : size ≤ controlBytes) :
    control allowed (packHeader kind size) = .ok (kind, size) := by
  rw [MaskGateway.Runtime.Worker.control, parseHeader_eq_ok.mpr ⟨hbounds, rfl⟩]
  show (need _ >>= _) = _
  rw [need_eq_ok (u := ()).mpr ⟨hkind, hsize⟩]
  rfl

/-- The parent reads on: it takes the next piece of the answer, or has the whole of it. -/
theorem expects_receive {job n : Nat} {answer : Answer} {p : Parent} {stream : List UInt8}
    (hanswer : AnswerOf key limits job answer) (h : Expects key job answer p stream)
    (hwants : p.wants = some n) :
    (∃ p', p.receive key limits job (stream.take n) = .ok (p', none) ∧
        Expects key job answer p' (stream.drop n) ∧ parentStage p' < parentStage p) ∨
      (p.receive key limits job (stream.take n) = .ok (settled answer, some answer) ∧
        stream.drop n = []) := by
  cases h with
  | reply =>
      obtain rfl := Option.some.inj hwants
      cases answer with
      | error reply =>
          have hlen : (lengths .error).1 ≤ (errorWire reply).length ∧
              (errorWire reply).length ≤ (lengths .error).2 :=
            length_wire (m := .error reply) trivial
          have hbytes := answerBytes_error key job reply
          rw [← List.append_nil (packetWire _)] at hbytes
          rw [hbytes, take_packetWire, drop_packetWire, List.append_nil]
          refine .inl ⟨_, ?_, .errorBody, Nat.lt_succ_self _⟩
          rw [Parent.receive, control_eq (by simp) hlen
            (Nat.le_trans hlen.2 (by decide))]
          rfl
      | frame frame =>
          rw [answerBytes_frame, take_packetWire, drop_packetWire, List.nil_append]
          refine .inl ⟨_, ?_, .notice, Nat.lt_succ_self _⟩
          rw [Parent.receive, control_eq (by simp) (by decide) (by decide)]
          rfl
  | @errorBody reply =>
      obtain rfl := Option.some.inj hwants
      rw [List.take_length, List.drop_length]
      refine .inr ⟨?_, rfl⟩
      rw [Parent.receive, if_pos rfl, receiveError, decodeError_eq_ok.mpr rfl]
      have hsame : reply.key = key ∧ reply.jobId = job := hanswer
      show (need _ >>= _) = _
      rw [need_eq_ok (u := ()).mpr hsame]
      rfl
  | notice =>
      obtain rfl := Option.some.inj hwants
      exact .inl ⟨_, rfl, .frameHeader, Nat.lt_succ_self 5⟩
  | @frameHeader frame =>
      obtain rfl := Option.some.inj hwants
      obtain ⟨identity, v, hidentity, hvalid⟩ := hanswer
      obtain ⟨hlen, -, header, hheader, hframe⟩ := validateResult_parts hvalid
      rw [List.take_append_of_le_length hlen, List.drop_append_of_le_length hlen]
      refine .inl ⟨.frameBody (frame.take headerSize) frame.length, ?_, .frameBody, Nat.lt_succ_self _⟩
      rw [Parent.receive, hidentity]
      show ((inspectResultHeader _ identity limits).mapError _ >>= _) = _
      rw [hheader, ← hframe]
      rfl
  | @frameBody frame =>
      obtain ⟨identity, v, hidentity, hvalid⟩ := hanswer
      obtain ⟨hlen, hwire, -⟩ := validateResult_parts hvalid
      have hn : n = (frame.drop headerSize).length := by
        rw [List.length_drop, ← Option.some.inj hwants, List.length_take_of_le hlen]
      rw [hn, List.take_left, List.drop_left]
      refine .inl ⟨.done frame, ?_, .done, Nat.lt_succ_self _⟩
      rw [Parent.receive, hidentity]
      show ((validateResult (frame.take headerSize ++ frame.drop headerSize) identity
        limits).mapError _ >>= _) = _
      rw [List.take_append_drop, hvalid, ← hwire]
      rfl
  | done =>
      obtain rfl := Option.some.inj hwants
      obtain ⟨identity, -, hidentity, -⟩ := hanswer
      have hlen : (lengths .done).1 ≤ (doneWire key job).length ∧
          (doneWire key job).length ≤ (lengths .done).2 :=
        length_wire (m := .done key job) (jobId_range_of_identity hidentity)
      have htake := take_packetWire .done (doneWire key job) []
      have hdrop := drop_packetWire .done (doneWire key job) []
      rw [List.append_nil] at htake hdrop
      rw [List.append_nil] at hdrop
      rw [htake, hdrop]
      refine .inl ⟨_, ?_, .doneBody, Nat.lt_succ_self _⟩
      rw [Parent.receive, control_eq (by simp) hlen (Nat.le_trans hlen.2 (by decide))]
      rfl
  | doneBody =>
      obtain rfl := Option.some.inj hwants
      obtain ⟨identity, -, hidentity, -⟩ := hanswer
      rw [List.take_length, List.drop_length]
      refine .inr ⟨?_, rfl⟩
      rw [Parent.receive,
        decodeDone_eq_ok.mpr ⟨jobId_range_of_identity hidentity, rfl⟩]
      show (need _ >>= _) = _
      rw [need_eq_ok (u := ()).mpr rfl]
      rfl

/-! ### Both sides -/

/-- Nothing that the worker can still read surprises it. -/
inductive Harmless (key : SessionKey) (s : Link) : Prop
  | query (request : Query) (lost : List UInt8)
      (hreads : Reads .query (queryWire request) s.child (s.toChild ++ lost))
      (hrequest : request.key = key ∧ request.jobId = s.previous + 1)
  | close (lost : List UInt8) (hreads : Reads .close [] s.child (s.toChild ++ lost))
  | sends (continuing : Bool) (left : List UInt8) (hsends : Sends continuing s.child left)
      (htoChild : s.toChild = [])
  | ended (code : Nat) (hchild : s.child = .ended code)
  | gone (hchild : s.child = .gone)

/-- Where the session and its worker stand. -/
inductive Phase (key : SessionKey) (s : Link) : Prop
  /-- no call is running, and nothing is on the way -/
  | idle (hparent : s.parent = .ready ∨
        ∃ frame, s.parent = .result frame ∧ s.returned.getLast? = some (.frame frame))
      (hchild : s.child = .waiting) (hjob : s.job = s.previous) (htoChild : s.toChild = [])
      (htoParent : s.toParent = []) (hreturned : s.returned = s.produced)
  /-- a QUERY is on the way -/
  | asking (request : Query) (rest : List UInt8)
      (hparent : (s.parent = .asking rest ∧ rest ≠ []) ∨ (s.parent = .reply ∧ rest = []))
      (hreads : Reads .query (queryWire request) s.child (s.toChild ++ rest))
      (hrequest : request.key = key ∧ request.jobId = s.previous + 1)
      (hjob : s.job = s.previous + 1) (htoParent : s.toParent = [])
      (hreturned : s.returned = s.produced)
  /-- an answer is on the way -/
  | answering (answer : Answer) (left : List UInt8)
      (hexpects : Expects key s.job answer s.parent (s.toParent ++ left))
      (hsends : Sends (goesOn answer) s.child left) (hjob : s.job = s.previous)
      (htoChild : s.toChild = []) (hproduced : s.produced = s.returned ++ [answer])
  /-- a CLOSE is on the way -/
  | closing (rest : List UInt8) (hparent : s.parent = .closing rest ∧ rest ≠ [])
      (hreads : Reads .close [] s.child (s.toChild ++ rest)) (hreturned : s.returned = s.produced)
  /-- the worker has ended with its last reply -/
  | fatal (reply : ErrorReply) (hparent : s.parent = .closed .fatalReply)
      (hchild : s.child = .ended 1 ∨ s.child = .gone) (hreturned : s.returned = s.produced)
      (hlast : s.returned.getLast? = some (.error reply)) (hreply : reply.canContinue = false)
  /-- the session was closed, and the worker may not know it yet -/
  | shut (hparent : s.parent = .closed .failed ∨ s.parent = .closed .asked)
      (hharmless : Harmless key s) (hreturned : s.returned <+: s.produced)

/-- In every phase the worker is safe from what it reads. -/
theorem Phase.harmless {s : Link} (h : Phase key s) : Harmless key s := by
  cases h with
  | idle _ hchild _ htoChild _ _ => exact .sends true [] (hchild ▸ .waiting rfl) htoChild
  | asking request rest _ hreads hrequest _ _ _ => exact .query request rest hreads hrequest
  | answering answer left _ hsends _ htoChild _ => exact .sends _ left hsends htoChild
  | closing rest _ hreads _ => exact .close rest hreads
  | fatal _ _ hchild _ _ _ =>
      rcases hchild with hchild | hchild
      · exact .ended 1 hchild
      · exact .gone hchild
  | shut _ hharmless _ => exact hharmless

/-- In every phase the calls returned what was produced, one answer behind at most. -/
theorem Phase.returned_prefix {s : Link} (h : Phase key s) : s.returned <+: s.produced := by
  cases h with
  | idle _ _ _ _ _ hreturned => exact hreturned ▸ List.prefix_rfl
  | asking _ _ _ _ _ _ _ hreturned => exact hreturned ▸ List.prefix_rfl
  | answering answer _ _ _ _ _ hproduced => exact ⟨[answer], hproduced.symm⟩
  | closing _ _ _ hreturned => exact hreturned ▸ List.prefix_rfl
  | fatal _ _ _ hreturned _ _ => exact hreturned ▸ List.prefix_rfl
  | shut _ _ hreturned => exact hreturned

/-! ### The phase, by what the parent is doing -/

/-- Between two calls the worker waits for the next job, and nothing is unread. -/
structure AtRest (s : Link) : Prop where
  child : s.child = .waiting
  job : s.job = s.previous
  toChild : s.toChild = []
  toParent : s.toParent = []
  returned : s.returned = s.produced

theorem Phase.atRest {s : Link} (h : Phase key s)
    (hparent : s.parent = .ready ∨ ∃ frame, s.parent = .result frame) : AtRest s := by
  cases h with
  | idle _ hchild hjob htoChild htoParent hreturned =>
      exact ⟨hchild, hjob, htoChild, htoParent, hreturned⟩
  | asking _ _ h =>
      rcases h with ⟨h, -⟩ | ⟨h, -⟩ <;> rcases hparent with hp | ⟨_, hp⟩ <;> rw [h] at hp <;> cases hp
  | answering _ _ hexpects =>
      rcases hparent with hp | ⟨_, hp⟩ <;> rw [hp] at hexpects <;> cases hexpects
  | closing _ h =>
      rcases hparent with hp | ⟨_, hp⟩ <;> rw [h.1] at hp <;> cases hp
  | fatal _ h =>
      rcases hparent with hp | ⟨_, hp⟩ <;> rw [h] at hp <;> cases hp
  | shut h =>
      rcases h with h | h <;> rcases hparent with hp | ⟨_, hp⟩ <;> rw [h] at hp <;> cases hp

/-- A parent that waits for bytes has asked for an answer that is not there yet, or is reading
one. -/
theorem Phase.of_wants {s : Link} {n : Nat} (h : Phase key s) (hwants : s.parent.wants = some n) :
    (0 < n ∧ s.toParent = []) ∨ ∃ answer left, Expects key s.job answer s.parent
        (s.toParent ++ left) ∧ Sends (goesOn answer) s.child left ∧ s.job = s.previous ∧
      s.toChild = [] ∧ s.produced = s.returned ++ [answer] := by
  cases h with
  | answering answer left hexpects hsends hjob htoChild hproduced =>
      exact .inr ⟨answer, left, hexpects, hsends, hjob, htoChild, hproduced⟩
  | asking _ _ h _ _ _ htoParent =>
      rcases h with ⟨h, -⟩ | ⟨h, -⟩ <;> rw [h] at hwants <;> cases hwants
      exact .inl ⟨by decide, htoParent⟩
  | idle h => rcases h with h | ⟨_, h, -⟩ <;> rw [h] at hwants <;> cases hwants
  | closing _ h =>
      rw [h.1] at hwants
      cases hwants
  | fatal _ h =>
      rw [h] at hwants
      cases hwants
  | shut h => rcases h with h | h <;> rw [h] at hwants <;> cases hwants

/-! ### What each step does to a phase -/

theorem phase_query {sql : List UInt8} {expiresAt : Expiry} {s s' : Link} (hphase : Phase key s)
    (h : query key sql expiresAt s = some s') : Phase key s' := by
  unfold query at h
  split at h
  case h_2 => cases h
  rename_i hready
  obtain ⟨hchild, hjob, htoChild, htoParent, hreturned⟩ := hphase.atRest (.inl hready)
  split at h
  case isFalse => cases h
  dsimp only at h
  split at h
  · cases h
    exact .shut (.inl rfl) (.sends true [] (by rw [hchild]; exact .waiting rfl) htoChild)
      (hreturned ▸ List.prefix_rfl)
  · rename_i packet hpacket
    cases h
    obtain ⟨request, hmake, hencode⟩ : ∃ request, Query.make key (s.job + 1) expiresAt.bits
        sql = .ok request ∧ encodeQuery request = .ok packet := bind_eq_ok.mp hpacket
    obtain ⟨hkey, hjobId, -, -⟩ := Query.make_eq_ok.mp hmake
    have hwire := ((encode_eq_ok (m := .query request)).mp hencode).2
    refine .asking request packet (.inl ⟨rfl, ?_⟩) ?_ ⟨hkey.symm, ?_⟩ ?_ htoParent hreturned
    · rw [hwire]
      exact packetWire_ne_nil (.query, queryWire request)
    · show Reads .query (queryWire request) s.child (s.toChild ++ packet)
      rw [hchild, htoChild, List.nil_append, hwire]
      exact .waiting rfl
    · rw [← hjobId, hjob]
    · show s.job + 1 = s.previous + 1
      rw [hjob]

theorem phase_sendResultTo {taken : Bool} {s s' : Link} (hphase : Phase key s)
    (h : sendResultTo taken s = some s') : Phase key s' := by
  unfold sendResultTo at h
  split at h
  case h_2 => cases h
  rename_i frame hresult
  cases h
  obtain ⟨hchild, hjob, htoChild, htoParent, hreturned⟩ := hphase.atRest (.inr ⟨frame, hresult⟩)
  cases taken with
  | true => exact .idle (.inl rfl) hchild hjob htoChild htoParent hreturned
  | false =>
      exact .shut (.inl rfl) (.sends true [] (by rw [hchild]; exact .waiting rfl) htoChild)
        (hreturned ▸ List.prefix_rfl)

theorem phase_close {s s' : Link} (hphase : Phase key s) (h : close s = some s') :
    Phase key s' := by
  -- `encode_close` has nothing to refuse.
  have hencode : encodeClose = .ok (packetWire (.close, [])) := rfl
  have hclosing : AtRest s → s' = { s with parent := .closing (packetWire (.close, [])) } →
      Phase key s' := by
    rintro ⟨hchild, -, htoChild, -, hreturned⟩ rfl
    refine .closing _ ⟨rfl, packetWire_ne_nil _⟩ ?_ hreturned
    show Reads .close [] s.child (s.toChild ++ packetWire (.close, []))
    rw [hchild, htoChild]
    exact .waiting rfl
  unfold close at h
  rw [hencode] at h
  split at h
  · rename_i hready hpacket
    obtain rfl := Except.ok.inj hpacket
    exact hclosing (hphase.atRest (.inl hready)) (Option.some.inj h).symm
  · rename_i frame packet hresult hpacket
    obtain rfl := Except.ok.inj hpacket
    exact hclosing (hphase.atRest (.inr ⟨frame, hresult⟩)) (Option.some.inj h).symm
  · cases h

/-- Bytes that the parent hands over go from what it has left to the channel. -/
theorem append_handed {toChild rest : List UInt8} (n : Nat) :
    (toChild ++ rest.take n) ++ rest.drop n = toChild ++ rest := by
  rw [List.append_assoc, List.take_append_drop]

theorem phase_parentSend {n : Nat} {s s' : Link} (hphase : Phase key s)
    (h : parentSend n s = some s') : Phase key s' := by
  unfold parentSend at h
  split at h
  · rename_i rest hasking
    simp only [Option.ite_none_right_eq_some, Option.some.injEq] at h
    obtain ⟨hn, rfl⟩ := h
    cases hphase with
    | asking request rest' hparent hreads hrequest hjob htoParent hreturned =>
        rw [hasking] at hparent
        obtain ⟨hsame, -⟩ | ⟨hsame, -⟩ := hparent
        case inr => cases hsame
        obtain rfl := Parent.asking.inj hsame
        refine .asking request (rest.drop n) ?_ ?_ hrequest hjob htoParent hreturned
        · by_cases hdrop : rest.drop n = []
          · exact .inr ⟨if_pos hdrop, hdrop⟩
          · exact .inl ⟨if_neg hdrop, hdrop⟩
        · show Reads _ _ s.child ((s.toChild ++ rest.take n) ++ rest.drop n)
          rw [append_handed]
          exact hreads
    | idle hparent =>
        rcases hparent with hp | ⟨_, hp, -⟩ <;> rw [hasking] at hp <;> cases hp
    | answering _ _ hexpects =>
        rw [hasking] at hexpects
        cases hexpects
    | closing _ hparent => cases hasking.symm.trans hparent.1
    | fatal _ hparent => cases hasking.symm.trans hparent
    | shut hparent => rcases hparent with hp | hp <;> cases hasking.symm.trans hp
  · rename_i rest hclosing
    simp only [Option.ite_none_right_eq_some, Option.some.injEq] at h
    obtain ⟨hn, rfl⟩ := h
    cases hphase with
    | closing rest' hparent hreads hreturned =>
        obtain rfl := Parent.closing.inj (hclosing.symm.trans hparent.1)
        have hreads' : Reads .close [] s.child ((s.toChild ++ rest.take n) ++ rest.drop n) := by
          rw [append_handed]
          exact hreads
        by_cases hdrop : rest.drop n = []
        · exact .shut (.inr (if_pos hdrop)) (.close _ hreads') (hreturned ▸ List.prefix_rfl)
        · exact .closing (rest.drop n) ⟨if_neg hdrop, hdrop⟩ hreads' hreturned
    | idle hparent =>
        rcases hparent with hp | ⟨_, hp, -⟩ <;> cases hclosing.symm.trans hp
    | asking _ _ hparent =>
        rcases hparent with ⟨hp, -⟩ | ⟨hp, -⟩ <;> cases hclosing.symm.trans hp
    | answering _ _ hexpects =>
        rw [hclosing] at hexpects
        cases hexpects
    | fatal _ hparent => cases hclosing.symm.trans hparent
    | shut hparent => rcases hparent with hp | hp <;> cases hclosing.symm.trans hp
  · cases h

/-- A step of the parent fails: what the worker can read is what it could read before. -/
theorem phase_parentFails {s s' : Link} (hphase : Phase key s) (h : parentFails s = some s') :
    Phase key s' := by
  have hclosed : s' = { s with parent := .closed .failed } := by
    unfold parentFails at h
    split at h
    · cases h
    · cases h
    · cases h
    · exact (Option.some.inj h).symm
  subst hclosed
  refine .shut (.inl rfl) ?_ hphase.returned_prefix
  cases hphase.harmless with
  | query request lost hreads hrequest => exact .query request lost hreads hrequest
  | close lost hreads => exact .close lost hreads
  | sends continuing left hsends htoChild => exact .sends continuing left hsends htoChild
  | ended code hchild => exact .ended code hchild
  | gone hchild => exact .gone hchild

theorem phase_childGone {s s' : Link} (hphase : Phase key s) (h : childGone s = some s') :
    Phase key s' := by
  unfold childGone at h
  split at h
  case h_2 => cases h
  rename_i why hclosed
  cases h
  cases hphase with
  | fatal reply hparent hchild hreturned hlast hreply =>
      exact .fatal reply hparent (.inr rfl) hreturned hlast hreply
  | shut hparent _ hreturned => exact .shut hparent (.gone rfl) hreturned
  | idle hparent => rcases hparent with hp | ⟨_, hp, -⟩ <;> cases hclosed.symm.trans hp
  | asking _ _ hparent => rcases hparent with ⟨hp, -⟩ | ⟨hp, -⟩ <;> cases hclosed.symm.trans hp
  | answering _ _ hexpects =>
      rw [hclosed] at hexpects
      cases hexpects
  | closing _ hparent => cases hclosed.symm.trans hparent.1

/-- A worker that has sends left, or has nothing to read, reads nothing. -/
theorem Sends.receive_none {continuing : Bool} {left : List UInt8} {world : JobWorld} {s : Link}
    (hsends : Sends continuing s.child left) (htoChild : s.toChild = []) :
    childReceive key limits world s = none := by
  rw [childReceive, htoChild]
  generalize s.child = child at hsends
  cases hsends <;> rfl

/-- A worker with nothing left goes on or has ended. -/
theorem Sends.child_eq {continuing : Bool} {child : Child} (hsends : Sends continuing child []) :
    child = if continuing then .waiting else .ended 1 := by
  generalize hleft : ([] : List UInt8) = left at hsends
  cases hsends with
  | sending hrest => exact absurd (List.append_eq_nil_iff.mp hleft.symm).1 hrest
  | waiting h => rw [h]; rfl
  | ended h => rw [h]; rfl

theorem phase_childReceive {world : JobWorld} {s s' : Link} (hphase : Phase key s)
    (h : childReceive key limits world s = some s') : Phase key s' := by
  cases hphase with
  | idle _ hchild _ htoChild =>
      have hsends : Sends true s.child [] := by
        rw [hchild]
        exact .waiting rfl
      rw [hsends.receive_none htoChild] at h
      cases h
  | asking request rest hparent hreads hrequest hjob htoParent hreturned =>
      rcases query_receive hreads hrequest h with ⟨heq, hreads', -⟩ | ⟨rfl, answer, hanswer, rfl⟩
      · rw [heq]
        exact .asking request rest hparent hreads' hrequest hjob htoParent hreturned
      · obtain ⟨-, hne⟩ | ⟨hparent, -⟩ := hparent
        case inl => exact absurd rfl hne
        have hsends := sends_startSends (goesOn answer)
          { s with toChild := [], previous := s.previous + 1, produced := s.produced ++ [answer] }
          (plan_bytes hanswer)
        rw [startSends_eq]
        refine .answering answer (answerBytes key (s.previous + 1) answer) ?_ hsends hjob rfl ?_
        · show Expects key s.job answer s.parent (s.toParent ++ _)
          rw [hparent, htoParent, hjob]
          exact .reply
        · show s.produced ++ [answer] = s.returned ++ [answer]
          rw [hreturned]
  | answering _ _ _ hsends _ htoChild =>
      rw [hsends.receive_none htoChild] at h
      cases h
  | closing rest hparent hreads hreturned =>
      rcases close_receive hreads h with ⟨heq, hreads', -⟩ | ⟨rfl, -⟩
      · rw [heq]
        exact .closing rest hparent hreads' hreturned
      · exact absurd rfl hparent.2
  | fatal _ _ hchild =>
      rw [childReceive] at h
      rcases hchild with hchild | hchild <;> rw [hchild] at h <;> cases h
  | shut hparent hharmless hreturned =>
      cases hharmless with
      | query request lost hreads hrequest =>
          rcases query_receive hreads hrequest h with ⟨heq, hreads', -⟩ | ⟨-, answer, hanswer, rfl⟩
          · rw [heq]
            exact .shut hparent (.query request lost hreads' hrequest) hreturned
          · have hsends := sends_startSends (goesOn answer)
              { s with toChild := [], previous := s.previous + 1,
                       produced := s.produced ++ [answer] } (plan_bytes hanswer)
            rw [startSends_eq]
            exact .shut hparent (.sends _ _ hsends rfl)
              (hreturned.trans (List.prefix_append ..))
      | close lost hreads =>
          rcases close_receive hreads h with ⟨heq, hreads', -⟩ | ⟨-, rfl⟩
          · rw [heq]
            exact .shut hparent (.close lost hreads') hreturned
          · exact .shut hparent (.ended 0 rfl) hreturned
      | sends continuing left hsends htoChild =>
          rw [hsends.receive_none htoChild] at h
          cases h
      | ended code hchild =>
          rw [childReceive, hchild] at h
          cases h
      | gone hchild =>
          rw [childReceive, hchild] at h
          cases h

/-- Only a worker that is sending hands bytes over. -/
theorem childSend_none {n : Nat} {s : Link}
    (h : ∀ rest queue continuing, s.child ≠ .sending rest queue continuing) :
    childSend n s = none := by
  unfold childSend
  split
  · rename_i rest queue continuing hchild
    exact absurd hchild (h rest queue continuing)
  · rfl

theorem Reads.childSend_none {kind : Kind} {data stream : List UInt8} {n : Nat} {s : Link}
    (h : Reads kind data s.child stream) : childSend n s = none := by
  apply Worker.childSend_none
  intro rest queue continuing hchild
  rw [hchild] at h
  cases h

theorem phase_childSend {n : Nat} {s s' : Link} (hphase : Phase key s)
    (h : childSend n s = some s') : Phase key s' := by
  cases hphase with
  | idle _ hchild =>
      rw [childSend, hchild] at h
      cases h
  | asking _ _ _ hreads =>
      rw [hreads.childSend_none] at h
      cases h
  | answering answer left hexpects hsends hjob htoChild hproduced =>
      obtain ⟨left', hsends', hbytes, -, heq⟩ := sends_childSend hsends h
      rw [heq]
      refine .answering answer left' ?_ hsends' hjob htoChild hproduced
      rw [← hbytes] at hexpects
      exact hexpects
  | closing _ _ hreads =>
      rw [hreads.childSend_none] at h
      cases h
  | fatal _ _ hchild =>
      rw [childSend] at h
      rcases hchild with hchild | hchild <;> rw [hchild] at h <;> cases h
  | shut hparent hharmless hreturned =>
      cases hharmless with
      | query request lost hreads =>
          rw [hreads.childSend_none] at h
          cases h
      | close lost hreads =>
          rw [hreads.childSend_none] at h
          cases h
      | sends continuing left hsends htoChild =>
          obtain ⟨left', hsends', -, -, heq⟩ := sends_childSend hsends h
          rw [heq]
          exact .shut hparent (.sends continuing left' hsends' htoChild) hreturned
      | ended code hchild =>
          rw [childSend, hchild] at h
          cases h
      | gone hchild =>
          rw [childSend, hchild] at h
          cases h

end MaskGateway.Proofs.Runtime.Worker
