import MaskGateway.Proofs.Datasource.Answer
import MaskGateway.Lib.Machine

/-!
# `MaskGateway.Proofs.Datasource.AnswerEnd`: a verification comes to its end

`rank` is what is left to do of a verification. In every state some thread has a step that makes it
smaller (`progress`): the pumps and the child go first, and when none of them can go on the child has
ended and both threads are gone, or were not started. So every run can be carried on until `verify` is
over (`comes_to_end`).
-/

set_option autoImplicit false

namespace MaskGateway.Proofs.Datasource.Answer

open Lib MaskGateway.Datasource.Verify

/-- What a thread has to do outside of its target. -/
def threadRank : Thread → Nat
  | .unborn => 5
  | .entering => 4
  | .target => 3
  | .leaving => 2
  | .ending => 1
  | .dead => 0

def writerRank : WriterPc → Nat
  | .writing => 2
  | .closing => 1
  | .returning => 0

/-- Every chunk takes two steps. -/
def readerRank (reader : ReaderPc) (pipe : List UInt8) : Nat :=
  match reader with
  | .looping _ => 2 * pipe.length + 10
  | .reading _ => 2 * pipe.length + 9
  | .closing _ => 3
  | .ending _ => 2
  | .returning => 1

/-- To write the answer is worth the steps that read it. -/
def childRank : ChildPc → Nat
  | .reading => 300
  | .writing => 200
  | .exiting => 1
  | .ended => 0

/-- What `run` and `reap` have to do when the pumps and the child are at their end. -/
def pcRank : VerifyPc → Nat
  | .running pc => match pc with
    | .spawning => 200
    | .starting i => 180 - 10 * i
    | .launching i => 179 - 10 * i
    | .started i => 178 - 10 * i
    | .timing => 150
    | .checking _ => 140
    | .waiting _ => 139
  | .reaping _ _ pc => match pc with
    | .checking => 120
    | .polling => 110
    | .killing | .waiting | .confirming => 0
    | .closingStdin => 109
    | .closingStdout => 108
    | .joining i => 103 + (2 - i)
    | .settling i settled => (if settled then 97 else 127) + (3 - i)
    | .concluding settled => if settled then 96 else 126
    | .sealing => 95
    | .looking => 125
    | .pausing => 124
  | .finished _ => 0

/-- What is left to do. -/
def rank (v : Verification) (x : View) : Nat :=
  1000 * (10 * threadRank x.writer.thread + writerRank v.writer + 100 * threadRank x.reader.thread +
    readerRank v.reader v.pipe + childRank v.child) + pcRank v.pc

section
variable {accepts : List UInt8 → Bool} {v v' : Verification} {x x' : View} {who : Who}

/-- A thread that moves has less to do. -/
theorem Lives.rank_lt {p p' : Pump} {returning : Prop} (h : Lives p returning p') :
    threadRank p'.thread + 1 ≤ threadRank p.thread := by
  cases h with
  | enter hthread _ => simp [hthread, threadRank]
  | skip hthread _ => simp [hthread, threadRank]
  | leave hthread _ => simp [hthread, threadRank]
  | finish hthread => simp [hthread, threadRank]
  | die hthread => simp [hthread, threadRank]

/-- A step of a pump or of the child makes the rank smaller. -/
theorem rank_lt_of_change (hchange : Change accepts v x who v' x') (hwho : who ≠ .verifier)
    (htick : who ≠ .tick) : rank v' x' < rank v x := by
  cases hchange with
  | writer p hlives =>
      have hless := hlives.rank_lt
      simp only [rank]
      omega
  | wrote _ hpc =>
      simp only [rank, hpc, writerRank]
      omega
  | wroteAll _ hpc =>
      simp only [rank, hpc, writerRank]
      omega
  | reader p hlives =>
      have hless := hlives.rank_lt
      simp only [rank]
      omega
  | raises chunks _ hpc _ =>
      simp only [rank, hpc, readerRank]
      omega
  | reads chunks _ hpc _ =>
      simp only [rank, hpc, readerRank]
      omega
  | read chunks _ hpc hne =>
      have hpos : 0 < v.pipe.length := List.length_pos_iff.mpr hne
      have hdrop : (v.pipe.drop 4096).length = v.pipe.length - 4096 := List.length_drop
      simp only [rank, hpc, readerRank, hdrop]
      omega
  | overflows chunks _ hpc _ =>
      simp only [rank, hpc, readerRank]
      omega
  | readAll chunks _ hpc _ _ =>
      simp only [rank, hpc, readerRank]
      omega
  | closes data _ hpc =>
      simp only [rank, hpc, readerRank]
      omega
  | puts data _ hpc =>
      simp only [rank, hpc, readerRank]
      omega
  | ends _ hpc =>
      simp only [rank, hpc, readerRank]
      omega
  | childReads hpc _ =>
      simp only [rank, hpc, childRank]
      omega
  | childWrites hpc =>
      have hlength : (v.pipe ++ okAnswer).length = v.pipe.length + 12 := by
        rw [List.length_append]
        rfl
      have hreader : readerRank v.reader (v.pipe ++ okAnswer) ≤ readerRank v.reader v.pipe + 24 := by
        cases v.reader <;> simp only [readerRank, hlength] <;> omega
      simp only [rank, hpc, childRank]
      omega
  | childExits hpc _ _ =>
      simp only [rank, hpc, childRank]
      omega
  | run _ _ _ _ _ _ => exact absurd rfl hwho
  | reap _ _ _ _ _ _ _ _ => exact absurd rfl hwho
  | tick _ => exact absurd rfl htick

/-- `pumpMove` of a thread that is there. -/
theorem guardedStep_isSome {i : Nat} {p : Pump} {returning : Bool} {target : Option Verification}
    (hp : v.res.pumps[i]? = some p) (hborn : p.thread ≠ .unborn) (hlives : p.thread ≠ .dead)
    (htarget : p.thread = .target → returning = false → target.isSome = true) :
    (v.guardedStep i returning target).isSome = true := by
  have hself : v.thread i = p.thread := by simp [Verification.thread, hp]
  simp only [Verification.guardedStep, hself]
  cases hthread : p.thread with
  | unborn => exact absurd hthread hborn
  | dead => exact absurd hthread hlives
  | target =>
      cases returning with
      | true => simp [Verification.move, Resources.pumpMove, hp, hthread]
      | false => exact htarget hthread rfl
  | entering =>
      cases hcancelled : p.cancelled <;>
        simp [Verification.move, Resources.pumpMove, hp, hthread, hcancelled]
  | leaving => simp [Verification.move, Resources.pumpMove, hp, hthread]
  | ending => simp [Verification.move, Resources.pumpMove, hp, hthread]

/-- The writer goes on until its thread is gone. -/
theorem writerStep_isSome (hres : v.res = x.res) (hborn : x.writer.thread ≠ .unborn)
    (hlives : x.writer.thread ≠ .dead) : (v.writerStep).isSome = true := by
  have hp : v.res.pumps[0]? = some x.writer := by rw [hres]; rfl
  refine guardedStep_isSome hp hborn hlives fun hthread hreturning => ?_
  cases hpc : v.writer with
  | writing => rfl
  | closing =>
      simp [Verification.move, hres, Resources.pumpMove, View.res, hthread]
  | returning => simp [hpc] at hreturning

/-- The reader goes on until its thread is gone, unless it waits for the child. -/
theorem readerStep_isSome (hres : v.res = x.res) (hborn : x.reader.thread ≠ .unborn)
    (hlives : x.reader.thread ≠ .dead) (hended : x.exit.isSome = true) :
    (v.readerStep).isSome = true := by
  have hp : v.res.pumps[1]? = some x.reader := by rw [hres]; rfl
  have hmove : x.reader.thread = .target → ∀ m, m = .close ∨ m = .overflow ∨ (∃ d, m = .output d) →
      (x.res.pumpMove 1 m).isSome = true := by
    rintro hthread m (rfl | rfl | ⟨d, rfl⟩) <;> simp [Resources.pumpMove, View.res, hthread]
  refine guardedStep_isSome hp hborn hlives fun hthread hreturning => ?_
  cases hpc : v.reader with
  | looping chunks =>
      simp only []
      split <;> rfl
  | reading chunks =>
      simp only [exited_view hres, hended]
      rw [if_neg (fun hf => by cases hf.2)]
      split_ifs
      · rfl
      · simpa [Verification.move, hres] using hmove hthread .overflow (.inr (.inl rfl))
      · rfl
  | closing data => simpa [Verification.move, hres] using hmove hthread .close (.inl rfl)
  | ending data =>
      cases data with
      | none => rfl
      | some data =>
          simpa [Verification.move, hres] using hmove hthread (.output data) (.inr (.inr ⟨data, rfl⟩))
  | returning => simp [hpc] at hreturning

/-- The child goes on when its input was written. -/
theorem childStep_isSome (h : Holds v x) (hne : v.child ≠ .ended)
    (hwritten : v.writer ≠ .writing) : (v.childStep).isSome = true := by
  have hexit := h.exit.mpr hne
  cases hpc : v.child with
  | reading => simp [Verification.childStep, hpc, hwritten]
  | writing => simp [Verification.childStep, hpc]
  | exiting =>
      simp only [Verification.childStep, hpc]
      rw [if_pos, h.res]
      · simp [Resources.exits, View.res, hexit]
      · rw [h.res]
        cases hdeadline : x.deadline with
        | none => simp [View.res, hdeadline]
        | some deadline => simpa [View.res, hdeadline] using h.early hexit deadline hdeadline
  | ended => exact absurd hpc hne

/-- A step of a pump or of the child, when there is one. -/
theorem progress_of_isSome (h : Holds v x) (hstep : (v.step accepts who).isSome = true)
    (hwho : who ≠ .verifier) (htick : who ≠ .tick) :
    ∃ v' x', v.step accepts who = some v' ∧ Holds v' x' ∧ rank v' x' < rank v x := by
  obtain ⟨v', hv'⟩ := Option.isSome_iff_exists.mp hstep
  obtain ⟨x', -, hchange⟩ := change_of_step h hv'
  exact ⟨v', x', hv', holds_of_change h hchange, rank_lt_of_change hchange hwho htick⟩

/-- A pump that is cancelled has the same thread. -/
theorem thread_cancel (p : Pump) : p.cancel.thread = p.thread := by
  rw [Pump.cancel]
  split <;> rfl

/-- A pump whose thread is gone is settled. -/
theorem settled_of_dead {p : Pump} {fresh returning : Prop} (h : Guarded p fresh returning)
    (hdead : p.thread = .dead) : p.settled = true := by
  simp only [Guarded, hdead] at h
  simp [Pump.settled, h.1, hdead]

/-- What the verification has when neither the pumps nor the child can go on. -/
structure Quiet (v : Verification) (x : View) : Prop where
  writer : x.writer.thread = .unborn ∨ x.writer.thread = .dead
  child : v.child = .ended ∨ v.writer = .writing
  reader : x.exit.isSome = true → x.reader.thread = .unborn ∨ x.reader.thread = .dead

/-- Once the first pump has begun, the child has ended. -/
theorem Quiet.ended (hq : Quiet v x) (h : Holds v x) (hbegun : Begun x.writer) :
    x.writer.thread = .dead ∧ x.exit.isSome = true := by
  have hdead : x.writer.thread = .dead := hq.writer.resolve_left hbegun.2
  refine ⟨hdead, ?_⟩
  cases hexit : x.exit with
  | some exit => rfl
  | none =>
      -- the writer was not cancelled, so it has written
      have hwriter := h.writer
      simp only [Guarded, hdead, (h.kept hexit).1] at hwriter
      have hreturning : v.writer = .returning := hwriter.2.resolve_right fun hf => by cases hf.1
      have hended : v.child = .ended := hq.child.resolve_right fun hf => by
        rw [hreturning] at hf
        cases hf
      exact absurd hended (h.exit.mp hexit)

/-- The verification can go on. -/
theorem verifier_isSome (h : Holds v x) (hq : Quiet v x) (hover : ∀ returned, v.pc ≠ .finished returned) :
    (v.step accepts .verifier).isSome = true := by
  have hlaunched := h.launched
  have hfound := h.found
  cases hpc : v.pc with
  | finished returned => exact absurd hpc (hover returned)
  | running pc =>
      rw [hpc] at hlaunched
      have hrun : v.punctual .verifier = true → (v.runStep pc).isSome = true →
          (v.step accepts .verifier).isSome = true := by
        intro hpunctual hsome
        unfold Verification.step
        rw [if_pos hpunctual]
        simp only [Verification.verifierStep, hpc]
        exact hsome
      have hpunctual : pc ≠ .timing → v.punctual .verifier = true := by
        intro hne
        simp [Verification.punctual, hpc, hne]
      cases pc with
      | spawning => exact hlaunched.elim
      | starting k =>
          rcases k with - | - | k
          · exact hrun (hpunctual (by simp)) (by rw [Verification.runStep, h.res]; rfl)
          · exact hrun (hpunctual (by simp)) (by rw [Verification.runStep, h.res]; rfl)
          · exact hlaunched.elim
      | launching k =>
          rcases k with - | - | k
          · exact hrun (hpunctual (by simp)) (by rw [Verification.runStep, h.res]; rfl)
          · exact hrun (hpunctual (by simp)) (by rw [Verification.runStep, h.res]; rfl)
          · exact hlaunched.elim
      | started k =>
          rcases k with - | - | k
          · exact hrun (hpunctual (by simp)) (by rw [Verification.runStep, h.res]; rfl)
          · exact hrun (hpunctual (by simp)) (by rw [Verification.runStep, h.res]; rfl)
          · exact hlaunched.elim
      | timing =>
          have hended := (hq.ended h hlaunched.1).2
          refine hrun ?_ (by rw [Verification.runStep, h.res]; rfl)
          simp [Verification.punctual, exited_view h.res, hended]
      | checking deadline =>
          refine hrun (hpunctual (fun hf => by cases hf)) ?_
          rw [Verification.runStep, Option.isSome_map]
          simp only [Resources.runStep]
          split <;> rfl
      | waiting deadline =>
          have hended := (hq.ended h hlaunched.1).2
          refine hrun (hpunctual (fun hf => by cases hf)) ?_
          rw [Verification.runStep, Option.isSome_map]
          simp only [Resources.runStep, RunPc.effect, exited_view h.res, hended]
          have hany : v.res.process.any Process.exited = true := (exited_view h.res).trans hended
          rw [if_pos trivial, if_pos hany]
          rfl
  | reaping completed deadline pc =>
      rw [hpc] at hfound
      obtain ⟨hw, hr⟩ := h.begun hpc
      obtain ⟨-, hended⟩ := hq.ended h hw
      have hdead : x.reader.thread = .dead := (hq.reader hended).resolve_left hr.2
      have hheld : v.held = false := by
        have hreader := h.reader
        simp only [Guarded, hdead] at hreader
        rcases hreader.2 with hpc' | ⟨-, hpc'⟩
        · simp only [Verification.held, hpc, hpc']
        · simp only [Verification.held, hpc, hpc']
      unfold Verification.step
      rw [if_pos (by simp [Verification.punctual, exited_view h.res, hended])]
      simp only [Verification.verifierStep, hpc, hheld]
      rw [if_neg Bool.false_ne_true, Verification.reapStep, Option.isSome_map, h.res,
        Resources.reapStep, if_neg (fun hf => by cases hf), if_neg (fun hf => by cases hf.2)]
      have hreached : x.res.reachable = some ⟨true, some x.stdin, some x.stdout, x.exit⟩ := rfl
      have hpoll : Process.ended ⟨true, some x.stdin, some x.stdout, x.exit⟩
          ⟨v.exited, .returned⟩ = some true := by
        simp [Process.ended, Process.exited, exited_view h.res, hended]
      rw [hreached]
      cases pc with
      | killing => exact hfound.elim
      | waiting => exact hfound.elim
      | confirming => exact hfound.elim
      | polling => simp [Resources.reapReached, ReapPc.effect, hpoll]
      | concluding settled =>
          simp [Resources.reapReached, ReapPc.effect, hpoll, Process.pipeMissing]
      | joining i =>
          simp only [Resources.reapReached]
          split <;> rfl
      | settling i settled =>
          simp only [Resources.reapReached]
          split <;> rfl
      | sealing =>
          simp only [Resources.reapReached]
          split <;> rfl
      | looking =>
          simp only [Resources.reapReached]
          rw [if_neg (by simp [Process.pipeMissing])]
          split <;> rfl
      | checking => rfl
      | closingStdin => rfl
      | closingStdout => rfl
      | pausing => rfl

/-- A step of the verification makes the rank smaller when nothing else can go on. -/
theorem verifier_rank_lt (h : Holds v x) (hq : Quiet v x)
    (hchange : Change accepts v x .verifier v' x') : rank v' x' < rank v x := by
  have hlaunched := h.launched
  have hfound := h.found
  cases hchange with
  | run pc x' pc' hpc hruns _ =>
      rw [hpc] at hlaunched
      cases hruns with
      | launching0 =>
          have hborn : x.writer.thread = .unborn := by rw [hlaunched.1]
          simp only [rank, hpc, pcRank, hborn, threadRank]
          omega
      | launching1 =>
          have hborn : x.reader.thread = .unborn := by rw [hlaunched.2]
          simp only [rank, hpc, pcRank, hborn, threadRank]
          omega
      | expired deadline hexit =>
          have hended := (hq.ended h hlaunched.1).2
          rw [hexit] at hended
          exact nomatch hended
      | _ =>
          simp only [rank, hpc, pcRank]
          omega
  | reap completed deadline pc x' pc' hpc _ hreaps =>
      rw [hpc] at hfound
      obtain ⟨hw, hr⟩ := h.begun hpc
      obtain ⟨hwdead, hended⟩ := hq.ended h hw
      have hrdead : x.reader.thread = .dead := (hq.reader hended).resolve_left hr.2
      cases hreaps with
      | settling0 settled =>
          rw [settled_of_dead h.writer hwdead, Bool.and_true]
          simp only [rank, hpc, pcRank, thread_cancel]
          omega
      | settling1 settled =>
          rw [settled_of_dead h.reader hrdead, Bool.and_true]
          simp only [rank, hpc, pcRank, thread_cancel]
          omega
      | settled i settled =>
          cases settled <;> simp only [rank, hpc, pcRank] <;> simp <;> omega
      | concluding settled =>
          cases settled <;> simp only [rank, hpc, pcRank] <;> simp
      | unsealed hopen => exact absurd ⟨hfound.1, hfound.2.1⟩ hopen
      | joined i _ =>
          simp only [rank, hpc, pcRank]
          simp
          omega
      | _ =>
          simp only [rank, hpc, pcRank]
          omega

/-- In every state some thread has a step that makes the rank smaller. -/
theorem progress (h : Holds v x) (hover : ∀ returned, v.pc ≠ .finished returned) :
    ∃ who v' x', v.step accepts who = some v' ∧ Holds v' x' ∧ rank v' x' < rank v x := by
  by_cases hwriter : x.writer.thread = .unborn ∨ x.writer.thread = .dead
  · by_cases hchild : v.child = .ended ∨ v.writer = .writing
    · by_cases hreader : x.exit.isSome = true → x.reader.thread = .unborn ∨ x.reader.thread = .dead
      · have hq : Quiet v x := ⟨hwriter, hchild, hreader⟩
        have hstep : (v.step accepts .verifier).isSome = true := verifier_isSome h hq hover
        obtain ⟨v', hv'⟩ := Option.isSome_iff_exists.mp hstep
        obtain ⟨x', -, hchange⟩ := change_of_step h hv'
        exact ⟨.verifier, v', x', hv', holds_of_change h hchange, verifier_rank_lt h hq hchange⟩
      · rw [Classical.not_imp, not_or] at hreader
        have hstep : (v.step accepts .reader).isSome = true :=
          readerStep_isSome h.res hreader.2.1 hreader.2.2 hreader.1
        obtain ⟨v', x', hv', hnext⟩ := progress_of_isSome h hstep nofun nofun
        exact ⟨.reader, v', x', hv', hnext⟩
    · rw [not_or] at hchild
      have hstep : (v.step accepts .child).isSome = true := childStep_isSome h hchild.1 hchild.2
      obtain ⟨v', x', hv', hnext⟩ := progress_of_isSome h hstep nofun nofun
      exact ⟨.child, v', x', hv', hnext⟩
  · rw [not_or] at hwriter
    have hstep : (v.step accepts .writer).isSome = true :=
      writerStep_isSome h.res hwriter.1 hwriter.2
    obtain ⟨v', x', hv', hnext⟩ := progress_of_isSome h hstep nofun nofun
    exact ⟨.writer, v', x', hv', hnext⟩

/-- A verification can be carried on until `verify` is over. -/
theorem comes_to_end (h : Holds v x) : ∃ later v' returned,
    run (Verification.step accepts) v later = some v' ∧ v'.pc = .finished returned := by
  induction hrank : rank v x using Nat.strongRecOn generalizing v x with
  | _ n ih =>
      by_cases hover : ∃ returned, v.pc = .finished returned
      · obtain ⟨returned, hpc⟩ := hover
        exact ⟨[], v, returned, rfl, hpc⟩
      · have hnot : ∀ returned, v.pc ≠ .finished returned := fun returned hpc => hover ⟨returned, hpc⟩
        obtain ⟨who, v₁, x₁, hstep, hnext, hless⟩ := @progress accepts v x h hnot
        obtain ⟨later, v', returned, hrun, hpc⟩ := ih (rank v₁ x₁) (hrank ▸ hless) hnext rfl
        exact ⟨who :: later, v', returned, run_cons_eq_some.mpr ⟨v₁, hstep, hrun⟩, hpc⟩

end

end MaskGateway.Proofs.Datasource.Answer
