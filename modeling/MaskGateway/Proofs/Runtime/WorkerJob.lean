import MaskGateway.Proofs.Pgwire.Encoding
import MaskGateway.Proofs.Runtime.WorkerProtocol
import MaskGateway.Runtime.WorkerLink

/-!
# `MaskGateway.Proofs.Runtime.WorkerJob`: what a job can end in

Whatever the adapter does, `oneJob` raises nothing and ends in one of two answers: an ERROR under
the key and the number of the job, which lets the worker go on only in a category that the parent
too takes for recoverable; or a frame that the validator accepts for this job. The sends of an
answer are its `plan`.
-/

set_option autoImplicit false

namespace MaskGateway.Proofs.Runtime.Worker

open Lib MaskGateway.Db MaskGateway.Pgwire MaskGateway.Runtime.Wire MaskGateway.Runtime.Worker Wire

/-! ### The enumerations agree -/

/-- The member of `WireFailure` with the name of a member of `JobFailure`. -/
def sameName : JobFailure → WireFailure
  | .query => .query
  | .timeout => .timeout
  | .type => .type
  | .limit => .limit
  | .memory => .memory
  | .resource => .resource
  | .connection => .connection
  | .internal => .internal
  | .protocol => .protocol
  | .deadline => .deadline

theorem wireNamed_name (category : JobFailure) :
    wireNamed category.name = some (sameName category) := by
  cases category <;> decide

/-- The two sides take the same categories for recoverable. -/
theorem sameName_mem_recoverable {category : JobFailure} :
    sameName category ∈ recoverable ↔ category ∈ candidates := by
  cases category <;> decide

/-- Every category of the encoder has a name among the failures of a job. -/
theorem named_encode (category : EncodeFailure) :
    ∃ c, JobFailure.named category.name = some c ∧ c.name = category.name := by
  cases category <;> exact ⟨_, rfl, rfl⟩

/-! ### The frame of an outcome -/

theorem whenHealthy_eq_ok {healthy : Except Raised Bool} {next : Except Raised JobOutcome}
    {o : JobOutcome} (h : whenHealthy healthy next = .ok o) :
    next = .ok o ∨ o = .fatal .connection := by
  rw [whenHealthy] at h
  obtain ⟨b, -, h⟩ := bind_eq_ok.mp h
  cases b with
  | true => exact .inl h
  | false => exact .inr (Except.ok.inj h).symm

/-- A frame of the `try` block is one that the encoder returned. -/
theorem attempt_frame {world : JobWorld} {sql : List Char} {identity : ResultIdentity}
    {limits : ResultLimits} {o : JobOutcome} {frame : List UInt8}
    (h : attempt world sql identity limits = .ok o) (hframe : o.frame = some frame) :
    ∃ result, Encoder.encodeResult result identity limits = .ok frame := by
  -- An outcome without a frame ends every other branch.
  have hfatal : ∀ category, o ≠ .fatal category := by
    rintro category rfl
    cases hframe
  unfold attempt at h
  split at h
  · exact absurd (Except.ok.inj h).symm (hfatal _)
  rcases whenHealthy_eq_ok h with h | h
  · obtain ⟨result, -, h⟩ := bind_eq_ok.mp h
    rcases whenHealthy_eq_ok h with h | h
    · obtain ⟨-, -, h⟩ := bind_eq_ok.mp h
      obtain ⟨bytes, hencode, h⟩ := bind_eq_ok.mp h
      unfold finish at h
      split at h
      · rcases whenHealthy_eq_ok h with h | h
        · obtain rfl := Except.ok.inj h
          obtain rfl := Option.some.inj hframe
          exact ⟨result, mapError_eq_ok.mp hencode⟩
        · exact absurd h (hfatal _)
      · exact absurd (Except.ok.inj h).symm (hfatal _)
    · exact absurd h (hfatal _)
  · exact absurd h (hfatal _)

theorem afterFailure_frame (world : JobWorld) (category : JobFailure) :
    (afterFailure world category).frame = none := by
  unfold afterFailure
  split
  · split <;> rfl
  · rfl

/-- A frame of a job is one that the encoder returned. -/
theorem runJob_frame {world : JobWorld} {sql : List Char} {identity : ResultIdentity}
    {limits : ResultLimits} {frame : List UInt8}
    (hframe : (runJob world sql identity limits).frame = some frame) :
    ∃ result, Encoder.encodeResult result identity limits = .ok frame := by
  rw [runJob] at hframe
  cases h : attempt world sql identity limits with
  | ok o =>
      rw [h] at hframe
      exact attempt_frame h hframe
  | error e =>
      rw [h] at hframe
      have hnone := afterFailure_frame world (classify e)
      rw [show (afterFailure world (classify e)).frame = some frame from hframe] at hnone
      cases hnone

/-! ### The answer of a job -/

/-- The sends of an answer, in order. -/
def plan (key : SessionKey) (job : Nat) : Answer → List Outgoing
  | .error reply => [⟨.error, packetWire (.error, errorWire reply)⟩]
  | .frame bytes => [⟨.result, packetWire (.result, [])⟩, ⟨.frame, bytes⟩,
      ⟨.done, packetWire (.done, doneWire key job)⟩]

/-- The worker may go on after an answer. -/
def goesOn : Answer → Bool
  | .error reply => reply.canContinue
  | .frame _ => true

/-- An answer for this job of this session: the key and the number in a reply are the ones of the
job, a frame is valid under the identity of the job. -/
def AnswerOf (key : SessionKey) (limits : ResultLimits) (job : Nat) : Answer → Prop
  | .error reply => reply.key = key ∧ reply.jobId = job
  | .frame bytes => ∃ identity valid, key.resultIdentity job = .ok identity ∧
      validateResult bytes identity limits = .ok valid

/-- A number in range gives an identity. -/
theorem exists_resultIdentity (key : SessionKey) {job : Nat} (h : 1 ≤ job ∧ job ≤ maxId) :
    ∃ identity, key.resultIdentity job = .ok identity := by
  unfold SessionKey.resultIdentity
  exact ⟨_, dif_pos h⟩

/-- A send of an ERROR succeeds when its reply is one that may be sent. -/
theorem sendError_eq {request : Query} {category : WireFailure} {canContinue : Bool}
    (h : canContinue = true → category ∈ recoverable) :
    ∃ answer, sendError request category canContinue =
        .ok (answer, plan request.key request.jobId answer, goesOn answer) ∧
      ∀ limits, AnswerOf request.key limits request.jobId answer := by
  let reply : ErrorReply :=
    { key := request.key, jobId := request.jobId, category := category,
      canContinue := canContinue, jobId_range := request.jobId_range.2,
      canContinue_of := fun hc => ⟨request.jobId_range.1, h hc⟩ }
  have hmake : ErrorReply.make request.key request.jobId category canContinue = .ok reply :=
    ErrorReply.make_eq_ok.mpr ⟨rfl, rfl, rfl, rfl⟩
  have hencode : encodeError reply = .ok (packetWire (.error, errorWire reply)) :=
    (encode_eq_ok (m := .error reply)).mpr ⟨trivial, rfl⟩
  refine ⟨.error reply, ?_, fun _ => ⟨rfl, rfl⟩⟩
  rw [sendError, hmake]
  show (ofWire (encodeError reply) >>= _) = _
  rw [hencode]
  rfl

/-- Whatever the adapter does, a job ends in an answer for it, with the sends of that answer. -/
theorem oneJob_eq (world : JobWorld) (request : Query) (limits : ResultLimits) :
    ∃ answer, oneJob world request limits =
        .ok (answer, plan request.key request.jobId answer, goesOn answer) ∧
      AnswerOf request.key limits request.jobId answer := by
  rw [oneJob]
  cases hcompute : compute world request limits with
  | error e =>
      obtain ⟨answer, heq, hanswer⟩ := @sendError_eq request (failure e) false fun h => (by cases h)
      exact ⟨answer, heq, hanswer limits⟩
  | ok outcome =>
      rw [compute] at hcompute
      simp only [bind_eq_ok, pure_eq_ok, ofWire, mapError_eq_ok] at hcompute
      obtain ⟨-, -, sql, -, identity, hidentity, -, -, rfl⟩ := hcompute
      have hvalid := (runJob world sql identity limits).valid
      cases hfailure : (runJob world sql identity limits).failure with
      | some category =>
          rw [hfailure] at hvalid
          obtain ⟨answer, heq, hanswer⟩ := @sendError_eq request (sameName category)
            (runJob world sql identity limits).canContinue
            fun h => sameName_mem_recoverable.mpr (hvalid.2 h)
          refine ⟨answer, ?_, hanswer limits⟩
          simp only [wireNamed_name, hfailure]
          exact heq
      | none =>
          rw [hfailure] at hvalid
          obtain ⟨frame, hframe, -⟩ := hvalid.1
          obtain ⟨result, hencode⟩ := runJob_frame hframe
          have hnotice : encodeResultNotice = .ok (packetWire (.result, [])) := rfl
          have hdone : encodeDone request.key request.jobId =
              .ok (packetWire (.done, doneWire request.key request.jobId)) :=
            (encode_eq_ok (m := .done request.key request.jobId)).mpr ⟨request.jobId_range, rfl⟩
          refine ⟨.frame frame, ?_, identity, ?_⟩
          · simp only [hfailure, hframe, hnotice, hdone]
            rfl
          · obtain ⟨valid, hok⟩ := Pgwire.validateResult_of_encodeResult hencode
            exact ⟨valid, hidentity, hok⟩

end MaskGateway.Proofs.Runtime.Worker
