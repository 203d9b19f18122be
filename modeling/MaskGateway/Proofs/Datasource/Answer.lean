import MaskGateway.Proofs.Datasource.AnswerMoves

/-!
# `MaskGateway.Proofs.Datasource.Answer`: what holds of one verification

`Holds` is the invariant of all steps of all threads: how far the pumps were launched, where their
threads are, what was read and is in the pipe, and what `reap` has closed and found settled.
-/

set_option autoImplicit false

namespace MaskGateway.Proofs.Datasource.Answer

open MaskGateway.Datasource.Verify

/-! ### The invariant -/

/-- A pump whose `start` has returned. -/
def Begun (p : Pump) : Prop := p.state = .started ∧ p.thread ≠ .unborn

/-- How far the pumps are launched. -/
def Launched (pc : VerifyPc) (w r : Pump) : Prop :=
  match pc with
  | .running pc => match pc with
    | .spawning => False
    | .starting k => match k with
      | 0 => w = {} ∧ r = {}
      | 1 => Begun w ∧ r = {}
      | _ + 2 => False
    | .launching k => match k with
      | 0 => w = { state := .starting } ∧ r = {}
      | 1 => Begun w ∧ r = { state := .starting }
      | _ + 2 => False
    | .started k => match k with
      | 0 => w.state = .starting ∧ w.thread ≠ .unborn ∧ r = {}
      | 1 => Begun w ∧ r.state = .starting ∧ r.thread ≠ .unborn
      | _ + 2 => False
    | .timing | .checking _ | .waiting _ => Begun w ∧ Begun r
  | .reaping _ _ _ | .finished _ => Begun w ∧ Begun r

/-- Where the thread of a pump is, and where its target is: `fresh` or at its end. -/
def Guarded (p : Pump) (fresh returning : Prop) : Prop :=
  match p.thread with
  | .unborn | .entering => p.done = false ∧ p.ran = false ∧ fresh
  | .target => p.done = false ∧ p.ran = true
  | .leaving => p.done = false ∧ (returning ∨ p.cancelled = true ∧ fresh)
  | .ending | .dead => p.done = true ∧ (returning ∨ p.cancelled = true ∧ fresh)

/-- What the child has written. -/
def written : ChildPc → List UInt8
  | .reading | .writing => []
  | .exiting | .ended => okAnswer

/-- What was read, and what is in the pipe. -/
def Output (v : Verification) (x : View) : Prop :=
  match v.reader with
  | .looping chunks | .reading chunks =>
      chunks.flatten ++ v.pipe = written v.child ∧ x.sink.data = none
  | .closing data => (∀ output, data = some output → output = okAnswer) ∧
      (data = none → x.stdout = true) ∧ x.sink.data = none
  | .ending data => (∀ output, data = some output → output = okAnswer) ∧ x.stdout = true ∧
      x.sink.data = none
  | .returning => (∀ output, x.sink.data = some output → output = okAnswer) ∧ x.stdout = true

/-- What `reap` has closed and found settled. -/
def Found (pc : VerifyPc) (x : View) : Prop :=
  match pc with
  | .reaping _ _ pc => match pc with
    | .checking | .polling | .closingStdin | .looking | .pausing => True
    | .killing | .waiting | .confirming => False
    | .closingStdout => x.stdin = true
    | .joining _ => x.stdin = true ∧ x.stdout = true
    | .settling i settled => x.stdin = true ∧ x.stdout = true ∧
        (settled = true → (0 < i → x.writer.settled = true) ∧ (1 < i → x.reader.settled = true))
    | .concluding settled => x.stdin = true ∧ x.stdout = true ∧
        (settled = true → x.writer.settled = true ∧ x.reader.settled = true)
    | .sealing => x.stdin = true ∧ x.stdout = true ∧ x.writer.settled = true ∧
        x.reader.settled = true
  | .running _ | .finished _ => True

/-- The deadline that `run` goes by. -/
def deadlineOf : VerifyPc → Option Nat
  | .running pc => match pc with
    | .checking deadline | .waiting deadline => some deadline
    | _ => none
  | .reaping _ _ _ | .finished _ => none

/-- `run` is over. -/
def Ran : VerifyPc → Prop
  | .running _ => False
  | .reaping _ _ _ | .finished _ => True

/-- What holds of a verification with its parts. -/
structure Holds (v : Verification) (x : View) : Prop where
  res : v.res = x.res
  launched : Launched v.pc x.writer x.reader
  writer : Guarded x.writer (v.writer = .writing) (v.writer = .returning)
  reader : Guarded x.reader (v.reader = .looping []) (v.reader = .returning)
  output : Output v x
  found : Found v.pc x
  /-- the child reads what was written, ends with code zero, and in time -/
  reads : v.child ≠ .reading → v.writer ≠ .writing
  exit : x.exit = none ↔ v.child ≠ .ended
  code : ∀ exit, x.exit = some exit → exit.1 = 0
  early : x.exit = none → ∀ deadline, x.deadline = some deadline → v.now < deadline
  deadline : ∀ deadline, deadlineOf v.pc = some deadline → x.deadline = some deadline
  /-- `reap` comes after the end of the child -/
  after : Ran v.pc → x.exit.isSome = true
  kept : x.exit = none → x.writer.cancelled = false ∧ x.reader.cancelled = false
  sink : x.sink.tooBig = false ∧ x.sink.ioError = false

section
variable {accepts : List UInt8 → Bool} {v v' : Verification} {x x' : View} {who : Who}

/-- Every step is one of these changes. -/
theorem change_of_step (h : Holds v x) (hstep : v.step accepts who = some v') :
    ∃ x', v'.res = x'.res ∧ Change accepts v x who v' x' := by
  unfold Verification.step at hstep
  split at hstep
  next hpunctual =>
    cases who with
    | writer => exact change_of_writerStep h.res hstep
    | reader => exact change_of_readerStep h.res hstep
    | child => exact change_of_childStep h.res hstep
    | tick =>
        obtain rfl := Option.some.inj hstep
        refine ⟨x, h.res, .tick ?_⟩
        simp only [Verification.punctual, exited_view h.res, h.res, Bool.or_eq_true] at hpunctual
        refine hpunctual.imp id fun hearly deadline hdeadline => ?_
        simpa [View.res, hdeadline] using hearly
    | verifier =>
        simp only [Verification.verifierStep] at hstep
        cases hpc : v.pc with
        | running pc =>
            simp only [hpc] at hstep
            refine change_of_runStep h.res hpc ?_ hstep
            rintro rfl
            simpa [Verification.punctual, hpc, exited_view h.res] using hpunctual
        | reaping completed deadline pc =>
            simp only [hpc] at hstep
            split at hstep
            next => cases hstep
            next hheld =>
              have hfound := h.found
              rw [hpc] at hfound
              refine change_of_reapStep h.res hpc (h.after (by rw [hpc]; trivial)) ?_ ?_ hstep
              · refine ⟨?_, ?_, ?_⟩ <;> rintro rfl <;> exact hfound
              · rintro rfl hopen chunks hreading
                simp [Verification.held, hpc, hreading, stdoutClosed_view h.res, hopen] at hheld
        | finished returned => simp [hpc] at hstep
  next => cases hstep

/-- A thread that moves is alive. -/
theorem Lives.alive {p p' : Pump} {returning : Prop} (h : Lives p returning p') :
    p.thread ≠ .unborn ∧ p.thread ≠ .dead := by
  cases h with
  | enter hthread _ => simp [hthread]
  | skip hthread _ => simp [hthread]
  | leave hthread _ => simp [hthread]
  | finish hthread => simp [hthread]
  | die hthread => simp [hthread]

/-- A thread that moves stays launched as it was. -/
theorem Lives.state {p p' : Pump} {returning : Prop} (h : Lives p returning p') :
    p'.state = p.state ∧ p'.thread ≠ .unborn ∧ p'.cancelled = p.cancelled := by
  cases h <;> exact ⟨rfl, nofun, rfl⟩

/-- The target of a thread is where it was, or is entered, or left at its end. -/
theorem Lives.guarded {p p' : Pump} {fresh returning : Prop} (h : Lives p returning p')
    (hg : Guarded p fresh returning) : Guarded p' fresh returning := by
  cases h with
  | enter hthread _ =>
      simp only [Guarded, hthread] at hg
      exact ⟨hg.1, rfl⟩
  | skip hthread hcancelled =>
      simp only [Guarded, hthread] at hg
      exact ⟨hg.1, .inr ⟨hcancelled, hg.2.2⟩⟩
  | leave hthread hreturning =>
      simp only [Guarded, hthread] at hg
      exact ⟨hg.1, .inl hreturning⟩
  | finish hthread =>
      simp only [Guarded, hthread] at hg
      exact ⟨rfl, hg.2⟩
  | die hthread =>
      simp only [Guarded, hthread] at hg
      exact hg

/-- A pump that has begun and is settled is at its end. -/
theorem dead_of_settled {p : Pump} (hstate : p.state ≠ .idle) (h : p.settled = true) :
    p.thread = .dead := by
  simp only [Pump.settled, hstate, decide_false, Bool.false_or, Bool.decide_or, Bool.decide_and,
    Bool.and_eq_true, decide_eq_true_eq] at h
  exact h.2

/-- The first pump stays launched as it was when its thread moves. -/
theorem launched_writer {pc : VerifyPc} {w r p : Pump} {returning : Prop}
    (hlives : Lives w returning p) (h : Launched pc w r) : Launched pc p r := by
  obtain ⟨hstate, hborn, -⟩ := hlives.state
  have hbegun : Begun w → Begun p := fun hw => ⟨hstate.trans hw.1, hborn⟩
  have halive := hlives.alive.1
  cases pc with
  | running pc =>
      cases pc with
      | spawning => exact h
      | starting k =>
          match k, h with
          | 0, h => exact absurd (congrArg Pump.thread h.1) halive
          | 1, h => exact ⟨hbegun h.1, h.2⟩
      | launching k =>
          match k, h with
          | 0, h => exact absurd (congrArg Pump.thread h.1) halive
          | 1, h => exact ⟨hbegun h.1, h.2⟩
      | started k =>
          match k, h with
          | 0, h => exact ⟨hstate.trans h.1, hborn, h.2.2⟩
          | 1, h => exact ⟨hbegun h.1, h.2⟩
      | timing => exact ⟨hbegun h.1, h.2⟩
      | checking deadline => exact ⟨hbegun h.1, h.2⟩
      | waiting deadline => exact ⟨hbegun h.1, h.2⟩
  | reaping completed deadline pc => exact ⟨hbegun h.1, h.2⟩
  | finished returned => exact ⟨hbegun h.1, h.2⟩

/-- So does the second. -/
theorem launched_reader {pc : VerifyPc} {w r p : Pump} {returning : Prop}
    (hlives : Lives r returning p) (h : Launched pc w r) : Launched pc w p := by
  obtain ⟨hstate, hborn, -⟩ := hlives.state
  have hbegun : Begun r → Begun p := fun hr => ⟨hstate.trans hr.1, hborn⟩
  have halive := hlives.alive.1
  cases pc with
  | running pc =>
      cases pc with
      | spawning => exact h
      | starting k =>
          match k, h with
          | 0, h => exact absurd (congrArg Pump.thread h.2) halive
          | 1, h => exact absurd (congrArg Pump.thread h.2) halive
      | launching k =>
          match k, h with
          | 0, h => exact absurd (congrArg Pump.thread h.2) halive
          | 1, h => exact absurd (congrArg Pump.thread h.2) halive
      | started k =>
          match k, h with
          | 0, h => exact absurd (congrArg Pump.thread h.2.2) halive
          | 1, h => exact ⟨h.1, hstate.trans h.2.1, hborn⟩
      | timing => exact ⟨h.1, hbegun h.2⟩
      | checking deadline => exact ⟨h.1, hbegun h.2⟩
      | waiting deadline => exact ⟨h.1, hbegun h.2⟩
  | reaping completed deadline pc => exact ⟨h.1, hbegun h.2⟩
  | finished returned => exact ⟨h.1, hbegun h.2⟩

/-- `reap` comes after both pumps have begun. -/
theorem Holds.begun (h : Holds v x) {completed : Bool} {deadline : Nat} {pc : ReapPc}
    (hpc : v.pc = .reaping completed deadline pc) : Begun x.writer ∧ Begun x.reader := by
  have hlaunched := h.launched
  rw [hpc] at hlaunched
  exact hlaunched

/-- What `reap` has found settled does not move. -/
theorem found_lives (h : Holds v x) {p : Pump} {returning : Prop} :
    (Lives x.writer returning p → Found v.pc { x with writer := p }) ∧
      (Lives x.reader returning p → Found v.pc { x with reader := p }) := by
  have hfound := h.found
  cases hpc : v.pc with
  | reaping completed deadline pc =>
      obtain ⟨hw, hr⟩ := h.begun hpc
      have hwriter : Lives x.writer returning p → x.writer.settled ≠ true := by
        intro hlives hsettled
        exact hlives.alive.2 (dead_of_settled (by simp [hw.1]) hsettled)
      have hreader : Lives x.reader returning p → x.reader.settled ≠ true := by
        intro hlives hsettled
        exact hlives.alive.2 (dead_of_settled (by simp [hr.1]) hsettled)
      rw [hpc] at hfound
      cases pc with
      | settling i settled =>
          obtain ⟨hin, hout, hsettled⟩ := hfound
          constructor
          · intro hlives
            refine ⟨hin, hout, fun hs => ⟨fun hi => ?_, (hsettled hs).2⟩⟩
            exact absurd ((hsettled hs).1 hi) (hwriter hlives)
          · intro hlives
            refine ⟨hin, hout, fun hs => ⟨(hsettled hs).1, fun hi => ?_⟩⟩
            exact absurd ((hsettled hs).2 hi) (hreader hlives)
      | concluding settled =>
          obtain ⟨hin, hout, hsettled⟩ := hfound
          constructor
          · exact fun hlives => ⟨hin, hout, fun hs => absurd (hsettled hs).1 (hwriter hlives)⟩
          · exact fun hlives => ⟨hin, hout, fun hs => absurd (hsettled hs).2 (hreader hlives)⟩
      | sealing =>
          obtain ⟨_, _, hsettled, hsettled'⟩ := hfound
          exact ⟨fun hlives => absurd hsettled (hwriter hlives),
            fun hlives => absurd hsettled' (hreader hlives)⟩
      | _ => exact ⟨fun _ => hfound, fun _ => hfound⟩
  | running pc => exact ⟨fun _ => trivial, fun _ => trivial⟩
  | finished returned => exact ⟨fun _ => trivial, fun _ => trivial⟩

/-- A pump that is cancelled is where it was. -/
theorem Guarded.cancel {p : Pump} {fresh returning : Prop} (h : Guarded p fresh returning) :
    Guarded p.cancel fresh returning := by
  rw [Pump.cancel]
  split
  next => exact h
  next =>
    cases hthread : p.thread <;> simp only [Guarded, hthread] at h ⊢
    case leaving => exact ⟨h.1, h.2.imp_right fun hf => ⟨trivial, hf.2⟩⟩
    case ending => exact ⟨h.1, h.2.imp_right fun hf => ⟨trivial, hf.2⟩⟩
    case dead => exact ⟨h.1, h.2.imp_right fun hf => ⟨trivial, hf.2⟩⟩
    all_goals exact h

/-- A pump that is cancelled has begun, as before. -/
theorem Begun.cancel {p : Pump} (h : Begun p) : Begun p.cancel := by
  rw [Pump.cancel]
  split <;> exact h

/-- A step of `run` keeps the invariant. -/
theorem holds_of_runs (h : Holds v x) {pc : RunPc} {pc' : VerifyPc} (hpc : v.pc = .running pc)
    (htime : pc = .timing → x.exit.isSome = true ∨ 0 < v.timeout)
    (hruns : Runs x v.now v.timeout pc x' pc') :
    Holds { v with res := x'.res, pc := pc' } x' := by
  have hlaunched := h.launched
  have hdeadline := h.deadline
  rw [hpc] at hlaunched hdeadline
  have hguarded : ∀ {p q : Pump} {fresh returning : Prop}, Guarded p fresh returning →
      q.thread = p.thread → q.done = p.done → q.ran = p.ran → q.cancelled = p.cancelled →
      Guarded q fresh returning := by
    intro p q fresh returning hg hthread hdone hran hcancelled
    simpa only [Guarded, hthread, hdone, hran, hcancelled] using hg
  cases hruns with
  | starting0 =>
      exact { h with
        res := rfl
        launched := ⟨by rw [hlaunched.1], hlaunched.2⟩
        writer := hguarded h.writer rfl rfl rfl rfl
        found := trivial
        deadline := nofun
        after := nofun }
  | starting1 =>
      exact { h with
        res := rfl
        launched := ⟨hlaunched.1, by rw [hlaunched.2]⟩
        reader := hguarded h.reader rfl rfl rfl rfl
        found := trivial
        deadline := nofun
        after := nofun }
  | launching0 =>
      have hw := h.writer
      have hfresh : x.writer.thread = .unborn := by rw [hlaunched.1]
      simp only [Guarded, hfresh] at hw
      exact { h with
        res := rfl
        launched := ⟨by rw [hlaunched.1], nofun, hlaunched.2⟩
        writer := hw
        found := trivial
        deadline := nofun
        after := nofun }
  | launching1 =>
      have hr := h.reader
      have hfresh : x.reader.thread = .unborn := by rw [hlaunched.2]
      simp only [Guarded, hfresh] at hr
      exact { h with
        res := rfl
        launched := ⟨hlaunched.1, by rw [hlaunched.2], nofun⟩
        reader := hr
        found := trivial
        deadline := nofun
        after := nofun }
  | started0 =>
      exact { h with
        res := rfl
        launched := ⟨⟨rfl, hlaunched.2.1⟩, hlaunched.2.2⟩
        writer := hguarded h.writer rfl rfl rfl rfl
        found := trivial
        deadline := nofun
        after := nofun }
  | started1 =>
      exact { h with
        res := rfl
        launched := ⟨hlaunched.1, rfl, hlaunched.2.2⟩
        reader := hguarded h.reader rfl rfl rfl rfl
        found := trivial
        deadline := nofun
        after := nofun }
  | timing =>
      exact { h with
        res := rfl
        launched := hlaunched
        found := trivial
        early := fun hnone deadline hd => by
          obtain rfl := Option.some.inj hd
          rcases htime rfl with hsome | hpos
          · rw [hnone] at hsome
            exact nomatch hsome
          · exact Nat.lt_add_of_pos_right hpos
        deadline := fun _ hd => hd
        after := nofun }
  | late deadline hlate =>
      exact { h with
        res := rfl
        launched := hlaunched
        found := trivial
        deadline := nofun
        after := fun _ => by
          -- before its end the clock has not come to the deadline
          cases hexit : x.exit with
          | some exit => rfl
          | none =>
              have hbefore := h.early hexit deadline (hdeadline deadline rfl)
              rcases hlate with hover | hbig
              · exact absurd hbefore (Nat.not_lt.mpr hover)
              · rw [h.sink.1] at hbig
                exact nomatch hbig }
  | checking deadline _ _ =>
      exact { h with
        res := rfl
        launched := hlaunched
        found := trivial
        deadline := hdeadline
        after := nofun }
  | ended deadline hended =>
      exact { h with
        res := rfl
        launched := hlaunched
        found := trivial
        deadline := nofun
        after := fun _ => hended }
  | expired deadline _ =>
      exact { h with
        res := rfl
        launched := hlaunched
        found := trivial
        deadline := hdeadline
        after := nofun }

/-- A step of `reap` keeps the invariant. -/
theorem holds_of_reaps (h : Holds v x) {completed : Bool} {deadline : Nat} {pc : ReapPc}
    {pc' : VerifyPc} (hpc : v.pc = .reaping completed deadline pc)
    (hreaps : Reaps accepts x completed v.now deadline pc x' pc') :
    Holds { v with res := x'.res, pc := pc' } x' := by
  have hfound := h.found
  have hended := h.after (by rw [hpc]; trivial)
  obtain ⟨hw, hr⟩ := h.begun hpc
  rw [hpc] at hfound
  have hout : ∀ {w : Verification} {y : View}, v.reader = w.reader → v.pipe = w.pipe →
      v.child = w.child → y.sink = x.sink → (x.stdout = true → y.stdout = true) → Output w y := by
    intro w y hreader hpipe hchild hsink hopen
    have houtput := h.output
    rw [Output, ← hreader]
    rw [Output] at houtput
    cases hpc : v.reader with
    | looping chunks =>
        rw [hpc] at houtput
        rw [← hpipe, ← hchild, hsink]
        exact houtput
    | reading chunks =>
        rw [hpc] at houtput
        rw [← hpipe, ← hchild, hsink]
        exact houtput
    | closing data =>
        rw [hpc] at houtput
        rw [hsink]
        exact ⟨houtput.1, fun hd => hopen (houtput.2.1 hd), houtput.2.2⟩
    | ending data =>
        rw [hpc] at houtput
        rw [hsink]
        exact ⟨houtput.1, hopen houtput.2.1, houtput.2.2⟩
    | returning =>
        rw [hpc] at houtput
        rw [hsink]
        exact ⟨houtput.1, hopen houtput.2⟩
  -- only the pipes and the pumps change
  have hstay : ∀ pc', Launched pc' x.writer x.reader → Found pc' x → deadlineOf pc' = none →
      Holds { v with res := x.res, pc := pc' } x := by
    intro pc' hlaunched hfound' hnone
    exact { h with
      res := rfl
      launched := hlaunched
      output := hout rfl rfl rfl rfl id
      found := hfound'
      deadline := fun d hd => by rw [hnone] at hd; exact nomatch hd
      after := fun _ => hended }
  cases hreaps with
  | checking => exact hstay _ ⟨hw, hr⟩ trivial rfl
  | polling => exact hstay _ ⟨hw, hr⟩ trivial rfl
  | closingStdin =>
      exact { h with
        res := rfl
        launched := ⟨hw, hr⟩
        output := hout rfl rfl rfl rfl id
        found := rfl
        deadline := nofun
        after := fun _ => hended }
  | closingStdout =>
      exact { h with
        res := rfl
        launched := ⟨hw, hr⟩
        output := hout rfl rfl rfl rfl fun _ => rfl
        found := ⟨hfound, rfl⟩
        deadline := nofun
        after := fun _ => hended }
  | joining i _ _ => exact hstay _ ⟨hw, hr⟩ hfound rfl
  | joined i _ =>
      refine hstay _ ⟨hw, hr⟩ ⟨hfound.1, hfound.2, fun _ => ⟨?_, ?_⟩⟩ rfl
      · exact fun hf => absurd hf (Nat.lt_irrefl 0)
      · exact fun hf => absurd hf (Nat.not_lt_zero 1)
  | settling0 settled =>
      exact { h with
        res := rfl
        launched := ⟨hw.cancel, hr⟩
        writer := h.writer.cancel
        output := hout rfl rfl rfl rfl id
        found := ⟨hfound.1, hfound.2.1, fun hs => by
          rw [Bool.and_eq_true] at hs
          exact ⟨fun _ => (Child.settled_cancel x.writer).trans hs.2,
            fun hf => absurd hf (Nat.lt_irrefl 1)⟩⟩
        deadline := nofun
        after := fun _ => hended
        kept := fun hnone => by rw [hnone] at hended; exact nomatch hended }
  | settling1 settled =>
      exact { h with
        res := rfl
        launched := ⟨hw, hr.cancel⟩
        reader := h.reader.cancel
        output := hout rfl rfl rfl rfl id
        found := ⟨hfound.1, hfound.2.1, fun hs => by
          rw [Bool.and_eq_true] at hs
          exact ⟨fun _ => (hfound.2.2 hs.1).1 Nat.one_pos,
            fun _ => (Child.settled_cancel x.reader).trans hs.2⟩⟩
        deadline := nofun
        after := fun _ => hended
        kept := fun hnone => by rw [hnone] at hended; exact nomatch hended }
  | settled i settled =>
      refine hstay _ ⟨hw, hr⟩ ⟨hfound.1, hfound.2.1, fun hs => ?_⟩ rfl
      exact ⟨(hfound.2.2 hs).1 (Nat.succ_pos _), (hfound.2.2 hs).2 (by omega)⟩
  | concluding settled =>
      cases settled with
      | true => exact hstay _ ⟨hw, hr⟩ ⟨hfound.1, hfound.2.1, hfound.2.2 rfl⟩ rfl
      | false => exact hstay _ ⟨hw, hr⟩ trivial rfl
  | sealing _ _ => exact hstay _ ⟨hw, hr⟩ trivial rfl
  | unsealed _ => exact hstay _ ⟨hw, hr⟩ trivial rfl
  | gaveUp _ => exact hstay _ ⟨hw, hr⟩ trivial rfl
  | looking _ => exact hstay _ ⟨hw, hr⟩ trivial rfl
  | pausing => exact hstay _ ⟨hw, hr⟩ trivial rfl

/-- A thread that runs its target goes on there. -/
theorem Guarded.target {p : Pump} {fresh returning fresh' returning' : Prop}
    (h : Guarded p fresh returning) (hthread : p.thread = .target) :
    Guarded p fresh' returning' := by
  simp only [Guarded, hthread] at h ⊢
  exact h

/-- Every step keeps the invariant. -/
theorem holds_of_change (h : Holds v x) (hchange : Change accepts v x who v' x') : Holds v' x' := by
  have houtput := h.output
  rw [Output] at houtput
  cases hchange with
  | writer p hlives =>
      exact { h with
        res := rfl
        launched := launched_writer hlives h.launched
        writer := hlives.guarded h.writer
        output := h.output
        found := (found_lives h).1 hlives
        kept := fun hnone => ⟨hlives.state.2.2.trans (h.kept hnone).1, (h.kept hnone).2⟩ }
  | wrote hthread hpc =>
      exact { h with
        res := h.res
        writer := h.writer.target hthread
        reads := fun _ => nofun }
  | wroteAll hthread hpc =>
      exact { h with
        res := rfl
        writer := h.writer.target hthread
        output := h.output
        reads := fun _ => nofun
        found := by
          have hfound := h.found
          revert hfound
          rcases v.pc with pc | ⟨c, d, pc⟩ | b
          · exact id
          · cases pc <;> first | exact id | exact fun _ => rfl | exact fun hf => ⟨rfl, hf.2⟩
          · exact id }
  | reader p hlives =>
      exact { h with
        res := rfl
        launched := launched_reader hlives h.launched
        reader := hlives.guarded h.reader
        output := h.output
        found := (found_lives h).2 hlives
        kept := fun hnone => ⟨(h.kept hnone).1, hlives.state.2.2.trans (h.kept hnone).2⟩ }
  | raises chunks hthread hpc hclosed =>
      simp only [hpc] at houtput
      exact { h with
        res := h.res
        reader := h.reader.target hthread
        output := ⟨nofun, fun _ => hclosed, houtput.2⟩ }
  | reads chunks hthread hpc hopen =>
      simp only [hpc] at houtput
      exact { h with
        res := h.res
        reader := h.reader.target hthread
        output := houtput }
  | read chunks hthread hpc hne =>
      simp only [hpc] at houtput
      exact { h with
        res := h.res
        reader := h.reader.target hthread
        output := ⟨by
          show (chunks ++ [v.pipe.take 4096]).flatten ++ v.pipe.drop 4096 = written v.child
          rw [List.flatten_append, List.append_assoc, List.flatten_singleton,
            List.take_append_drop]
          exact houtput.1, houtput.2⟩ }
  | overflows chunks hthread hpc hbig =>
      -- the answer is short
      simp only [hpc] at houtput
      have hlength : (chunks ++ [v.pipe.take 4096]).flatten.length ≤ 12 := by
        have htotal := congrArg List.length houtput.1
        have hshort : (written v.child).length ≤ 12 := by cases v.child <;> decide
        rw [List.length_append] at htotal
        rw [List.flatten_append, List.length_append, List.flatten_singleton, List.length_take]
        omega
      have hmax : maxOutputBytes = 4096 := rfl
      omega
  | readAll chunks hthread hpc hempty hended =>
      simp only [hpc] at houtput
      have hchild : v.child = .ended := by
        by_contra hne
        rw [h.exit.mpr hne] at hended
        exact nomatch hended
      have hall : chunks.flatten = okAnswer := by
        have htotal := houtput.1
        rw [hempty, List.append_nil, hchild] at htotal
        exact htotal
      exact { h with
        res := h.res
        reader := h.reader.target hthread
        output := ⟨fun output hd => by rw [← Option.some.inj hd]; exact hall, nofun, houtput.2⟩ }
  | closes data hthread hpc =>
      simp only [hpc] at houtput
      exact { h with
        res := rfl
        reader := h.reader.target hthread
        output := ⟨houtput.1, rfl, houtput.2.2⟩
        found := by
          have hfound := h.found
          revert hfound
          rcases v.pc with pc | ⟨c, d, pc⟩ | b
          · exact id
          · cases pc <;> first | exact id | exact fun hf => ⟨hf.1, rfl⟩ | exact fun hf => ⟨hf.1, rfl, hf.2.2⟩
          · exact id }
  | puts data hthread hpc =>
      simp only [hpc] at houtput
      exact { h with
        res := rfl
        reader := h.reader.target hthread
        output := ⟨fun output hd => by
          rw [← Option.some.inj hd]
          exact houtput.1 data rfl, houtput.2.1⟩
        found := h.found }
  | ends hthread hpc =>
      simp only [hpc] at houtput
      exact { h with
        res := h.res
        reader := h.reader.target hthread
        output := ⟨fun output hd => by rw [houtput.2.2] at hd; exact (nomatch hd), houtput.2.1⟩ }
  | childReads hpc hwritten =>
      have hexit : x.exit = none := h.exit.mpr (by rw [hpc]; exact nofun)
      exact { h with
        res := h.res
        output := by
          have hsame : written v.child = written .writing := by rw [hpc]; rfl
          rw [hsame] at houtput
          exact houtput
        reads := fun _ => hwritten
        exit := ⟨fun _ => nofun, fun _ => hexit⟩ }
  | childWrites hpc =>
      have hexit : x.exit = none := h.exit.mpr (by rw [hpc]; exact nofun)
      have hempty : written v.child = [] := by rw [hpc]; rfl
      exact { h with
        res := h.res
        output := by
          show match v.reader with
            | .looping chunks | .reading chunks =>
                chunks.flatten ++ (v.pipe ++ okAnswer) = okAnswer ∧ x.sink.data = none
            | .closing data => (∀ output, data = some output → output = okAnswer) ∧
                (data = none → x.stdout = true) ∧ x.sink.data = none
            | .ending data => (∀ output, data = some output → output = okAnswer) ∧
                x.stdout = true ∧ x.sink.data = none
            | .returning => (∀ output, x.sink.data = some output → output = okAnswer) ∧
                x.stdout = true
          rw [hempty] at houtput
          split at houtput
          · rw [← List.append_assoc, houtput.1]
            exact ⟨rfl, houtput.2⟩
          · rw [← List.append_assoc, houtput.1]
            exact ⟨rfl, houtput.2⟩
          · exact houtput
          · exact houtput
          · exact houtput
        reads := fun _ => h.reads (by rw [hpc]; exact nofun)
        exit := ⟨fun _ => nofun, fun _ => hexit⟩ }
  | childExits hpc hearly hexit =>
      exact { h with
        res := rfl
        output := by
          have hsame : written v.child = written .ended := by rw [hpc]; rfl
          rw [hsame] at houtput
          exact houtput
        found := h.found
        reads := fun _ => h.reads (by rw [hpc]; exact nofun)
        exit := ⟨nofun, fun hf => absurd rfl hf⟩
        code := fun exit he => by rw [← Option.some.inj he]
        early := nofun
        after := fun _ => rfl
        kept := nofun }
  | run pc x' pc' hpc hruns htime => exact holds_of_runs h hpc htime hruns
  | reap completed deadline pc x' pc' hpc _ hreaps => exact holds_of_reaps h hpc hreaps
  | tick hearly =>
      exact { h with
        res := h.res
        output := h.output
        early := fun hnone deadline hd => by
          rcases hearly with hended | hbefore
          · rw [hnone] at hended
            exact nomatch hended
          · exact hbefore deadline hd }

/-- The parts of the child at the start. -/
def View.init : View := ⟨false, false, none, {}, {}, {}, none⟩

/-- The invariant holds at the start. -/
theorem holds_init (timeout now : Nat) :
    Holds { timeout := timeout, now := now } View.init where
  res := rfl
  launched := ⟨rfl, rfl⟩
  writer := ⟨rfl, rfl, rfl⟩
  reader := ⟨rfl, rfl, rfl⟩
  output := ⟨rfl, rfl⟩
  found := trivial
  reads := fun hf => absurd rfl hf
  exit := ⟨fun _ => nofun, fun _ => rfl⟩
  code := nofun
  early := nofun
  deadline := nofun
  after := nofun
  kept := fun _ => ⟨rfl, rfl⟩
  sink := ⟨rfl, rfl⟩

/-- Every step keeps the invariant. -/
theorem holds_step (h : ∃ x, Holds v x) (hstep : v.step accepts who = some v') :
    ∃ x, Holds v' x := by
  obtain ⟨x, hx⟩ := h
  obtain ⟨x', -, hchange⟩ := change_of_step hx hstep
  exact ⟨x', holds_of_change hx hchange⟩

end

end MaskGateway.Proofs.Datasource.Answer
