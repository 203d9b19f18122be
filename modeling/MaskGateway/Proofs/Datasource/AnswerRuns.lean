import MaskGateway.Proofs.Datasource.AnswerEnd

/-!
# `MaskGateway.Proofs.Datasource.AnswerRuns`: which answers are lost

`answer_kept_iff` is the principal theorem: every run of a verification can be carried on until
`verify` is over, and then it has returned if and only if every step of the run met the condition
`meets`. While the condition is met the reader has read everything when its pipe is closed (`Kept`);
a step that does not meet it leaves a state that only leads to an exception (`Lost`).

`answer_lost` is a run in which `reap` closes the pipe before the reader has begun.
-/

set_option autoImplicit false

namespace MaskGateway.Proofs.Datasource.Answer

open Lib MaskGateway.Datasource.Verify

/-! ### Runs that meet the condition -/

/-- The reader has come to the end of the output. -/
def HasRead (reader : ReaderPc) (x : View) : Prop :=
  match reader with
  | .looping _ | .reading _ => False
  | .closing data | .ending data => data.isSome = true
  | .returning => x.sink.data.isSome = true

/-- Nothing has gone wrong. -/
structure Kept (v : Verification) (x : View) : Prop where
  completed : ∀ completed deadline pc, v.pc = .reaping completed deadline pc → completed = true
  returned : ∀ returned, v.pc = .finished returned → returned = true
  read : x.stdout = true → HasRead v.reader x

/-- Something has gone wrong, for good. -/
def Lost (v : Verification) (x : View) : Prop :=
  match v.pc with
  | .running _ => False
  | .reaping completed _ _ => completed = false ∨
      x.stdout = true ∧ (∀ chunks, v.reader ≠ .reading chunks) ∧ ¬ HasRead v.reader x
  | .finished returned => returned = false

section
variable {accepts : List UInt8 → Bool} {v v' : Verification} {x x' : View} {who : Who}

/-- What was put is the answer, and it is put at the end only. -/
theorem data_of_not_hasRead (h : Holds v x) (hread : ¬ HasRead v.reader x) : x.sink.data = none := by
  have houtput := h.output
  rw [Output] at houtput
  cases hpc : v.reader with
  | looping chunks => rw [hpc] at houtput; exact houtput.2
  | reading chunks => rw [hpc] at houtput; exact houtput.2
  | closing data => rw [hpc] at houtput; exact houtput.2.2
  | ending data => rw [hpc] at houtput; exact houtput.2.2
  | returning =>
      rw [hpc] at hread
      simpa [HasRead] using hread

/-- A reader that has read everything and is gone has put the answer. -/
theorem data_of_settled (h : Holds v x) {completed : Bool} {deadline : Nat} {pc : ReapPc}
    (hpc : v.pc = .reaping completed deadline pc) (hread : HasRead v.reader x)
    (hsettled : x.reader.settled = true) : x.sink.data = some okAnswer := by
  have hdead := dead_of_settled (by simp [(h.begun hpc).2.1]) hsettled
  have hreader := h.reader
  simp only [Guarded, hdead] at hreader
  have hreturning : v.reader = .returning := by
    rcases hreader.2 with hreturning | ⟨-, hfresh⟩
    · exact hreturning
    · rw [hfresh] at hread
      exact hread.elim
  have houtput := h.output
  simp only [Output, hreturning] at houtput
  rw [hreturning] at hread
  obtain ⟨output, hdata⟩ := Option.isSome_iff_exists.mp hread
  rw [hdata, houtput.1 output hdata]

/-- `_run` and `verify` find the answer, and nothing that speaks against it. -/
theorem judge_view (h : Holds v x) (hended : x.exit.isSome = true) {completed : Bool} :
    Machine.judge accepts x.res completed = (completed && x.sink.data.any accepts) := by
  obtain ⟨exit, hexit⟩ := Option.isSome_iff_exists.mp hended
  have hcode := h.code exit hexit
  simp [Machine.judge, View.res, h.sink.1, h.sink.2, hexit, hcode]

/-- While the condition is met nothing goes wrong. -/
theorem kept_of_change (haccepts : accepts okAnswer = true) (h : Holds v x) (hkept : Kept v x)
    (hmeets : v.meets who = true) (hchange : Change accepts v x who v' x') : Kept v' x' := by
  have houtput := h.output
  rw [Output] at houtput
  -- a reader whose pipe was closed before it had read everything
  have hnot : ∀ {reader : ReaderPc}, v.reader = reader → ¬ HasRead reader x → x.stdout = true →
      False := by
    rintro reader rfl hread hclosed
    exact hread (hkept.read hclosed)
  cases hchange with
  | writer p _ => exact ⟨hkept.completed, hkept.returned, hkept.read⟩
  | wrote _ _ => exact ⟨hkept.completed, hkept.returned, hkept.read⟩
  | wroteAll _ _ => exact ⟨hkept.completed, hkept.returned, hkept.read⟩
  | reader p _ => exact ⟨hkept.completed, hkept.returned, hkept.read⟩
  | raises chunks _ hpc hclosed => exact (hnot hpc (fun hf => hf) hclosed).elim
  | reads chunks _ hpc hopen =>
      refine ⟨hkept.completed, hkept.returned, fun hclosed => ?_⟩
      rw [hopen] at hclosed
      cases hclosed
  | read chunks _ hpc _ =>
      exact ⟨hkept.completed, hkept.returned, fun hclosed => (hnot hpc (fun hf => hf) hclosed).elim⟩
  | overflows chunks _ _ _ => exact ⟨hkept.completed, hkept.returned, fun _ => rfl⟩
  | readAll chunks _ _ _ _ => exact ⟨hkept.completed, hkept.returned, fun _ => rfl⟩
  | closes data _ hpc =>
      refine ⟨hkept.completed, hkept.returned, fun _ => ?_⟩
      simp only [hpc] at houtput
      cases data with
      | some output => rfl
      | none => exact (hnot hpc (fun hf => by cases hf) (houtput.2.1 rfl)).elim
  | puts data _ _ => exact ⟨hkept.completed, hkept.returned, fun _ => rfl⟩
  | ends _ hpc =>
      simp only [hpc] at houtput
      exact (hnot hpc (fun hf => by cases hf) houtput.2.1).elim
  | childReads _ _ => exact ⟨hkept.completed, hkept.returned, hkept.read⟩
  | childWrites _ => exact ⟨hkept.completed, hkept.returned, hkept.read⟩
  | childExits _ _ _ => exact ⟨hkept.completed, hkept.returned, hkept.read⟩
  | tick _ => exact ⟨hkept.completed, hkept.returned, hkept.read⟩
  | run pc x' pc' hpc hruns _ =>
      cases hruns with
      | late deadline hlate =>
          simp only [Verification.meets, hpc, decide_eq_true_eq] at hmeets
          rcases hlate with hover | hbig
          · exact absurd hmeets (Nat.not_lt.mpr hover)
          · rw [h.sink.1] at hbig
            cases hbig
      | ended deadline _ => exact ⟨fun _ _ _ heq => by cases heq; rfl, (by intros; contradiction), hkept.read⟩
      | _ => exact ⟨(by intros; contradiction), (by intros; contradiction), hkept.read⟩
  | reap completed deadline pc x' pc' hpc _ hreaps =>
      have hcompleted := hkept.completed completed deadline pc hpc
      have hfound := h.found
      rw [hpc] at hfound
      have hstay : ∀ {pc' : ReapPc} {x' : View}, (x'.stdout = true → HasRead v.reader x') →
          Kept { v with res := x'.res, pc := .reaping completed deadline pc' } x' := by
        intro pc' x' hread
        exact ⟨fun _ _ _ heq => by cases heq; exact hcompleted, (by intros; contradiction), hread⟩
      cases hreaps with
      | closingStdout =>
          refine hstay fun _ => ?_
          simp only [Verification.meets, hpc, stdoutClosed_view h.res, Bool.or_eq_true] at hmeets
          rcases hmeets with hclosed | hend
          · exact hkept.read hclosed
          · cases hreader : v.reader with
            | closing data => rw [hreader] at hend; exact hend
            | _ => rw [hreader] at hend; cases hend
      | sealing _ hclosed =>
          refine ⟨(by intros; contradiction), fun returned heq => ?_, hkept.read⟩
          have hdata := data_of_settled h hpc (hkept.read hclosed) hfound.2.2.2
          rw [← VerifyPc.finished.inj heq, judge_view h (h.after (by rw [hpc]; trivial)), hcompleted, hdata]
          exact haccepts
      | gaveUp hover =>
          simp only [Verification.meets, hpc, decide_eq_true_eq] at hmeets
          exact absurd hmeets (Nat.not_lt.mpr hover)
      | _ => exact hstay hkept.read

/-- A step that does not meet the condition. -/
theorem lost_of_not_meets (h : Holds v x) (hmeets : v.meets who = false)
    (hchange : Change accepts v x who v' x') : Lost v' x' := by
  have houtput := h.output
  rw [Output] at houtput
  cases hchange with
  | run pc x' pc' hpc hruns _ =>
      cases hruns with
      | late deadline _ => exact .inl rfl
      | checking deadline hbefore _ =>
          simp [Verification.meets, hpc, Nat.not_le.mpr hbefore] at hmeets
      | _ => simp [Verification.meets, hpc] at hmeets
  | reap completed deadline pc x' pc' hpc hheld hreaps =>
      cases hreaps with
      | closingStdout =>
          simp only [Verification.meets, hpc, stdoutClosed_view h.res, Bool.or_eq_false_iff]
            at hmeets
          obtain ⟨hopen, hend⟩ := hmeets
          refine .inr ⟨rfl, hheld rfl hopen, ?_⟩
          -- the pipe was open, so the reader was still at the head of its loop
          cases hreader : v.reader with
          | looping chunks => exact fun hf => hf
          | reading chunks => exact fun hf => hf
          | closing data =>
              rw [hreader] at hend
              exact fun hf => Bool.false_ne_true (hend.symm.trans hf)
          | ending data =>
              simp only [hreader] at houtput
              rw [houtput.2.1] at hopen
              cases hopen
          | returning =>
              simp only [hreader] at houtput
              rw [houtput.2] at hopen
              cases hopen
      | gaveUp _ => exact rfl
      | looking hbefore => simp [Verification.meets, hpc, Nat.not_le.mpr hbefore] at hmeets
      | _ => simp [Verification.meets, hpc] at hmeets
  | _ => simp [Verification.meets] at hmeets

/-- What has gone wrong stays wrong. -/
theorem lost_of_change (h : Holds v x) (hlost : Lost v x) (hchange : Change accepts v x who v' x') :
    Lost v' x' := by
  have houtput := h.output
  rw [Output] at houtput
  -- the reader goes on, and has not read everything
  have hreads : ∀ {w : Verification} {y : View}, w.pc = v.pc → (x.stdout = true → y.stdout = true) →
      (x.stdout = true → (∀ chunks, v.reader ≠ .reading chunks) → ¬ HasRead v.reader x →
        (∀ chunks, w.reader ≠ .reading chunks) ∧ ¬ HasRead w.reader y) → Lost w y := by
    intro w y hpc hclosed hnot
    rw [Lost] at hlost ⊢
    rw [hpc]
    cases hv : v.pc with
    | running pc => rw [hv] at hlost; exact hlost
    | reaping completed deadline pc =>
        rw [hv] at hlost
        refine hlost.imp_right fun hl => ?_
        exact ⟨hclosed hl.1, hnot hl.1 hl.2.1 hl.2.2⟩
    | finished returned => rw [hv] at hlost; exact hlost
  cases hchange with
  | writer p _ => exact hreads rfl id fun _ hr hn => ⟨hr, hn⟩
  | wrote _ _ => exact hreads rfl id fun _ hr hn => ⟨hr, hn⟩
  | wroteAll _ _ => exact hreads rfl id fun _ hr hn => ⟨hr, hn⟩
  | reader p _ => exact hreads rfl id fun _ hr hn => ⟨hr, hn⟩
  | raises chunks _ _ _ => exact hreads rfl id fun _ _ _ => ⟨fun _ hf => (by cases hf), fun hf => by cases hf⟩
  | reads chunks _ _ hopen =>
      refine hreads rfl id fun hclosed _ _ => ?_
      rw [hopen] at hclosed
      cases hclosed
  | read chunks _ hpc _ => exact hreads rfl id fun _ hr _ => absurd hpc (hr chunks)
  | overflows chunks _ hpc _ => exact hreads rfl id fun _ hr _ => absurd hpc (hr chunks)
  | readAll chunks _ hpc _ _ => exact hreads rfl id fun _ hr _ => absurd hpc (hr chunks)
  | closes data _ hpc =>
      refine hreads rfl (fun _ => rfl) fun _ _ hn => ⟨fun _ hf => (by cases hf), ?_⟩
      rw [hpc] at hn
      exact hn
  | puts data _ hpc =>
      refine hreads rfl id fun _ _ hn => ?_
      rw [hpc] at hn
      exact absurd rfl hn
  | ends _ hpc =>
      refine hreads rfl id fun _ _ _ => ⟨(fun _ hf => by cases hf), ?_⟩
      simp only [hpc] at houtput
      simp [HasRead, houtput.2.2]
  | childReads _ _ => exact hreads rfl id fun _ hr hn => ⟨hr, hn⟩
  | childWrites _ => exact hreads rfl id fun _ hr hn => ⟨hr, hn⟩
  | childExits _ _ _ => exact hreads rfl id fun _ hr hn => ⟨hr, hn⟩
  | tick _ => exact hreads rfl id fun _ hr hn => ⟨hr, hn⟩
  | run pc x' pc' hpc _ _ =>
      rw [Lost, hpc] at hlost
      exact hlost.elim
  | reap completed deadline pc x' pc' hpc _ hreaps =>
      rw [Lost, hpc] at hlost
      cases hreaps with
      | closingStdout => exact hlost.imp_right fun hl => ⟨rfl, hl.2.1, hl.2.2⟩
      | sealing _ _ =>
          show Machine.judge accepts x.res completed = false
          rw [judge_view h (h.after (by rw [hpc]; trivial))]
          rcases hlost with hfailed | ⟨-, -, hnot⟩
          · rw [hfailed]
            rfl
          · rw [data_of_not_hasRead h hnot]
            simp
      | gaveUp _ => exact rfl
      | _ => exact hlost

/-- While a run meets the condition nothing goes wrong. -/
theorem kept_of_run (haccepts : accepts okAnswer = true) {events : List Who}
    (hrun : run (guarded (Verification.step accepts) Verification.meets) v events = some v')
    (h : Holds v x) (hkept : Kept v x) : ∃ x', Holds v' x' ∧ Kept v' x' := by
  refine run_invariant (P := fun v => ∃ x, Holds v x ∧ Kept v x) ?_ hrun ⟨x, h, hkept⟩
  rintro v v' who ⟨x, h, hkept⟩ hstep
  obtain ⟨hmeets, hstep⟩ := guarded_eq_some.mp hstep
  obtain ⟨x', -, hchange⟩ := change_of_step h hstep
  exact ⟨x', holds_of_change h hchange, kept_of_change haccepts h hkept hmeets hchange⟩

/-- What has gone wrong stays wrong in every run. -/
theorem lost_of_run {events : List Who} (hrun : run (Verification.step accepts) v events = some v')
    (h : Holds v x) (hlost : Lost v x) : ∃ x', Holds v' x' ∧ Lost v' x' := by
  refine run_invariant (P := fun v => ∃ x, Holds v x ∧ Lost v x) ?_ hrun ⟨x, h, hlost⟩
  rintro v v' who ⟨x, h, hlost⟩ hstep
  obtain ⟨x', -, hchange⟩ := change_of_step h hstep
  exact ⟨x', holds_of_change h hchange, lost_of_change h hlost hchange⟩

/-- A run meets the condition, or something goes wrong in it. -/
theorem meets_or_lost {events : List Who}
    (hrun : run (Verification.step accepts) v events = some v') (h : Holds v x) :
    run (guarded (Verification.step accepts) Verification.meets) v events = some v' ∨
      ∃ x', Holds v' x' ∧ Lost v' x' := by
  induction events generalizing v x with
  | nil => exact .inl hrun
  | cons who events ih =>
      obtain ⟨v₁, hstep, hrest⟩ := run_cons_eq_some.mp hrun
      obtain ⟨x₁, -, hchange⟩ := change_of_step h hstep
      have hnext := holds_of_change h hchange
      cases hmeets : v.meets who with
      | true =>
          have hfirst := guarded_eq_some.mpr ⟨hmeets, hstep⟩
          exact (ih hrest hnext).imp_left fun hrun' => run_cons_eq_some.mpr ⟨v₁, hfirst, hrun'⟩
      | false => exact .inr (lost_of_run hrest hnext (lost_of_not_meets h hmeets hchange))

end

/-- A verification whose child reads its input, writes the answer and ends in time, with no failure
of the operating system, comes to its end in every interleaving; and `verify` returns if and only if
in every step the loop of `run` looked at the clock before the deadline, `reap` closed the pipe after
the output was read to its end, and `reap` had time left when something was not settled. -/
theorem answer_kept_iff (accepts : List UInt8 → Bool) (haccepts : accepts okAnswer = true)
    (timeout now : Nat) {events : List Who} {v : Verification}
    (hrun : run (Verification.step accepts) { timeout := timeout, now := now } events = some v) :
    (∃ later v' returned, run (Verification.step accepts) v later = some v' ∧
      v'.pc = .finished returned) ∧
    ∀ returned, v.pc = .finished returned → (returned = true ↔
      run (guarded (Verification.step accepts) Verification.meets)
        { timeout := timeout, now := now } events = some v) := by
  obtain ⟨x, hx⟩ := run_invariant (P := fun v => ∃ x, Holds v x)
    (fun h hstep => holds_step h hstep) hrun ⟨View.init, holds_init timeout now⟩
  refine ⟨comes_to_end hx, fun returned hpc => ⟨fun hreturned => ?_, fun hmeets => ?_⟩⟩
  · rcases meets_or_lost hrun (holds_init timeout now) with hmeets | ⟨x', -, hlost⟩
    · exact hmeets
    · simp only [Lost, hpc, hreturned] at hlost
      exact nomatch hlost
  · obtain ⟨x', -, hkept⟩ := kept_of_run haccepts hmeets (holds_init timeout now)
      ⟨nofun, nofun, fun hf => nomatch hf⟩
    exact hkept.returned returned hpc

/-- The pumps are launched, the input is written and read, the answer is written, and the child ends;
the second thread has not begun. -/
def answered : List Who :=
  List.replicate 8 Who.verifier ++ [.writer, .writer, .child, .child, .child, .verifier]

/-- The reader reads everything before `reap` begins. -/
def readFirst : List Who := List.replicate 10 Who.reader ++
  List.replicate 4 Who.writer ++ List.replicate 12 Who.verifier

/-- `reap` closes the pipe, and waits for the two threads. -/
def closeFirst : List Who := List.replicate 4 Who.verifier ++
  List.replicate 4 Who.writer ++ Who.verifier :: List.replicate 7 Who.reader ++
    List.replicate 7 Who.verifier

/-- A verification whose reader comes first. -/
theorem answer_kept_iff_read : ∃ v : Verification, v.pc = .finished true ∧
    run (guarded (Verification.step (· == okAnswer)) Verification.meets) { timeout := 12000 }
      (answered ++ readFirst) = some v := by
  have hsome : (run (Verification.step (· == okAnswer)) { timeout := 12000 }
      (answered ++ readFirst)).any (fun v => decide (v.pc = .finished true)) = true := by decide
  obtain ⟨v, hrun, hpc⟩ := (Option.any_eq_true _ _).mp hsome
  have hpc := of_decide_eq_true hpc
  exact ⟨v, hpc, ((answer_kept_iff (· == okAnswer) (by decide) 12000 0 hrun).2 true hpc).mp rfl⟩

/-- `reap` closes the pipe before the reader has begun to read: the answer is lost. -/
theorem answer_lost : ¬ ∀ (accepts : List UInt8 → Bool), accepts okAnswer = true →
    ∀ (timeout now : Nat) (events : List Who) (v : Verification),
      run (Verification.step accepts) { timeout := timeout, now := now } events = some v →
        ∀ returned, v.pc = .finished returned → returned = true := by
  intro hclaim
  have hsome : (run (Verification.step (· == okAnswer)) { timeout := 12000 }
      (answered ++ closeFirst)).any (fun v => decide (v.pc = .finished false)) = true := by decide
  obtain ⟨v, hrun, hpc⟩ := (Option.any_eq_true _ _).mp hsome
  exact nomatch hclaim _ (by decide) 12000 0 _ v hrun false (of_decide_eq_true hpc)

end MaskGateway.Proofs.Datasource.Answer
