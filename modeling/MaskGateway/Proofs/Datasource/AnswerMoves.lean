import MaskGateway.Datasource.Answer
import MaskGateway.Proofs.Datasource.Child

/-!
# `MaskGateway.Proofs.Datasource.AnswerMoves`: the steps of one verification

A `View` has the parts of the child of a verification one by one, and `Change` is what one step of one
thread does to them: one lemma for each of the threads.
-/

set_option autoImplicit false

namespace MaskGateway.Proofs.Datasource.Answer

open MaskGateway.Datasource.Verify

/-! ### What one step does -/

/-- The child of a verification. -/
structure View where
  stdin : Bool
  stdout : Bool
  exit : Option (Int × Nat)
  writer : Pump
  reader : Pump
  sink : Sink
  deadline : Option Nat

/-- What the record holds of it. -/
def View.res (x : View) : Resources :=
  { spawn := .created, process := some ⟨true, some x.stdin, some x.stdout, x.exit⟩
    pumps := [x.writer, x.reader], sink := x.sink, deadline := x.deadline }

/-- One move of a thread outside of its target. -/
inductive Lives (p : Pump) (returning : Prop) : Pump → Prop where
  | enter : p.thread = .entering → p.cancelled = false →
      Lives p returning { p with ran := true, thread := .target }
  | skip : p.thread = .entering → p.cancelled = true →
      Lives p returning { p with thread := .leaving }
  | leave : p.thread = .target → returning → Lives p returning { p with thread := .leaving }
  | finish : p.thread = .leaving → Lives p returning { p with done := true, thread := .ending }
  | die : p.thread = .ending → Lives p returning { p with thread := .dead }

/-- One step of `run` after the spawn, with every call as the machine answers it. -/
inductive Runs (x : View) (now timeout : Nat) : RunPc → View → VerifyPc → Prop where
  | starting0 : Runs x now timeout (.starting 0)
      { x with writer := { x.writer with state := .starting } } (.running (.launching 0))
  | starting1 : Runs x now timeout (.starting 1)
      { x with reader := { x.reader with state := .starting } } (.running (.launching 1))
  | launching0 : Runs x now timeout (.launching 0)
      { x with writer := { x.writer with thread := .entering } } (.running (.started 0))
  | launching1 : Runs x now timeout (.launching 1)
      { x with reader := { x.reader with thread := .entering } } (.running (.started 1))
  | started0 : Runs x now timeout (.started 0)
      { x with writer := { x.writer with state := .started } } (.running (.starting 1))
  | started1 : Runs x now timeout (.started 1)
      { x with reader := { x.reader with state := .started } } (.running .timing)
  | timing : Runs x now timeout .timing { x with deadline := some (now + timeout) }
      (.running (.checking (now + timeout)))
  | late (deadline : Nat) : deadline ≤ now ∨ x.sink.tooBig = true →
      Runs x now timeout (.checking deadline) x (.reaping false (now + cleanupBudget) .checking)
  | checking (deadline : Nat) : now < deadline → x.sink.tooBig = false →
      Runs x now timeout (.checking deadline) x (.running (.waiting deadline))
  | ended (deadline : Nat) : x.exit.isSome = true →
      Runs x now timeout (.waiting deadline) x (.reaping true (now + cleanupBudget) .checking)
  | expired (deadline : Nat) : x.exit = none →
      Runs x now timeout (.waiting deadline) x (.running (.checking deadline))

/-- One step of `reap` on a child that has ended. -/
inductive Reaps (accepts : List UInt8 → Bool) (x : View) (completed : Bool) (now deadline : Nat) :
    ReapPc → View → VerifyPc → Prop where
  | checking : Reaps accepts x completed now deadline .checking x
      (.reaping completed deadline .polling)
  | polling : Reaps accepts x completed now deadline .polling x
      (.reaping completed deadline .closingStdin)
  | closingStdin : Reaps accepts x completed now deadline .closingStdin { x with stdin := true }
      (.reaping completed deadline .closingStdout)
  | closingStdout : Reaps accepts x completed now deadline .closingStdout { x with stdout := true }
      (.reaping completed deadline (.joining 0))
  | joining (i : Nat) : i < 2 → now < deadline → Reaps accepts x completed now deadline (.joining i) x
      (.reaping completed deadline (.joining (i + 1)))
  | joined (i : Nat) : ¬ (i < 2 ∧ now < deadline) →
      Reaps accepts x completed now deadline (.joining i) x
        (.reaping completed deadline (.settling 0 true))
  | settling0 (settled : Bool) : Reaps accepts x completed now deadline (.settling 0 settled)
      { x with writer := x.writer.cancel }
      (.reaping completed deadline (.settling 1 (settled && x.writer.settled)))
  | settling1 (settled : Bool) : Reaps accepts x completed now deadline (.settling 1 settled)
      { x with reader := x.reader.cancel }
      (.reaping completed deadline (.settling 2 (settled && x.reader.settled)))
  | settled (i : Nat) (settled : Bool) : Reaps accepts x completed now deadline
      (.settling (i + 2) settled) x (.reaping completed deadline (.concluding settled))
  | concluding (settled : Bool) : Reaps accepts x completed now deadline (.concluding settled) x
      (.reaping completed deadline (if settled then .sealing else .looking))
  | sealing : x.stdin = true → x.stdout = true → Reaps accepts x completed now deadline .sealing x
      (.finished (Machine.judge accepts x.res completed))
  | unsealed : ¬ (x.stdin = true ∧ x.stdout = true) →
      Reaps accepts x completed now deadline .sealing x (.reaping completed deadline .looking)
  | gaveUp : deadline ≤ now → Reaps accepts x completed now deadline .looking x (.finished false)
  | looking : now < deadline → Reaps accepts x completed now deadline .looking x
      (.reaping completed deadline .pausing)
  | pausing : Reaps accepts x completed now deadline .pausing x
      (.reaping completed deadline .polling)

section
variable {accepts : List UInt8 → Bool} {v v' : Verification} {x : View}

/-- The thread of the first pump. -/
@[simp] theorem thread_writer (hres : v.res = x.res) : v.thread 0 = x.writer.thread := by
  simp [Verification.thread, hres, View.res]

/-- The thread of the second pump. -/
@[simp] theorem thread_reader (hres : v.res = x.res) : v.thread 1 = x.reader.thread := by
  simp [Verification.thread, hres, View.res]

/-- The child has ended. -/
theorem exited_view (hres : v.res = x.res) : v.exited = x.exit.isSome := by
  simp [Verification.exited, hres, View.res, Process.exited]

/-- The standard output is closed. -/
theorem stdoutClosed_view (hres : v.res = x.res) : v.stdoutClosed = x.stdout := by
  cases h : x.stdout <;> simp [Verification.stdoutClosed, hres, View.res, h]

/-- The thread of a pump, outside or inside of its target. -/
theorem lives_of_guardedStep {i : Nat} {p : Pump} {returning : Bool}
    {target : Option Verification} (hp : v.res.pumps[i]? = some p)
    (h : v.guardedStep i returning target = some v') :
    (∃ p', Lives p (returning = true) p' ∧ v' = { v with res := v.res.withPump i p' }) ∨
      (p.thread = .target ∧ returning = false ∧ target = some v') := by
  have hself : v.thread i = p.thread := by simp [Verification.thread, hp]
  have hmove : ∀ {m res}, v.res.pumpMove i m = some res → v.move i m = some v' →
      v' = { v with res := res } := by
    intro m res hm hv
    rw [Verification.move, hm] at hv
    exact (Option.some.inj hv).symm
  simp only [Verification.guardedStep, hself] at h
  cases hthread : p.thread <;> simp only [hthread] at h
  case unborn => exact nomatch h
  case dead => exact nomatch h
  case entering =>
    cases hcancelled : p.cancelled with
    | true =>
        exact .inl ⟨_, .skip hthread hcancelled,
          hmove (by simp [Resources.pumpMove, hp, hthread, hcancelled]) h⟩
    | false =>
        exact .inl ⟨_, .enter hthread hcancelled,
          hmove (by simp [Resources.pumpMove, hp, hthread, hcancelled]) h⟩
  case target =>
    cases returning with
    | true =>
        exact .inl ⟨_, .leave hthread rfl, hmove (by simp [Resources.pumpMove, hp, hthread]) h⟩
    | false => exact .inr ⟨rfl, rfl, h⟩
  case leaving =>
    exact .inl ⟨_, .finish hthread, hmove (by simp [Resources.pumpMove, hp, hthread]) h⟩
  case ending =>
    exact .inl ⟨_, .die hthread, hmove (by simp [Resources.pumpMove, hp, hthread]) h⟩

end

/-- What one step of one thread does. -/
inductive Change (accepts : List UInt8 → Bool) (v : Verification) (x : View) :
    Who → Verification → View → Prop where
  | writer (p : Pump) : Lives x.writer (v.writer = .returning) p →
      Change accepts v x .writer { v with res := { x with writer := p }.res } { x with writer := p }
  | wrote : x.writer.thread = .target → v.writer = .writing →
      Change accepts v x .writer { v with writer := .closing } x
  | wroteAll : x.writer.thread = .target → v.writer = .closing →
      Change accepts v x .writer
        { v with writer := .returning, res := { x with stdin := true }.res } { x with stdin := true }
  | reader (p : Pump) : Lives x.reader (v.reader = .returning) p →
      Change accepts v x .reader { v with res := { x with reader := p }.res } { x with reader := p }
  | raises (chunks : List (List UInt8)) : x.reader.thread = .target →
      v.reader = .looping chunks → x.stdout = true →
      Change accepts v x .reader { v with reader := .closing none } x
  | reads (chunks : List (List UInt8)) : x.reader.thread = .target →
      v.reader = .looping chunks → x.stdout = false →
      Change accepts v x .reader { v with reader := .reading chunks } x
  | read (chunks : List (List UInt8)) : x.reader.thread = .target → v.reader = .reading chunks →
      v.pipe ≠ [] →
      Change accepts v x .reader { v with
        reader := .looping (chunks ++ [v.pipe.take 4096]), pipe := v.pipe.drop 4096 } x
  | overflows (chunks : List (List UInt8)) : x.reader.thread = .target →
      v.reader = .reading chunks →
      maxOutputBytes < (chunks ++ [v.pipe.take 4096]).flatten.length →
      Change accepts v x .reader { v with
        reader := .closing (some chunks.flatten), pipe := v.pipe.drop 4096
        res := { x with sink := { x.sink with tooBig := true } }.res }
        { x with sink := { x.sink with tooBig := true } }
  | readAll (chunks : List (List UInt8)) : x.reader.thread = .target →
      v.reader = .reading chunks → v.pipe = [] → x.exit.isSome = true →
      Change accepts v x .reader { v with reader := .closing (some chunks.flatten) } x
  | closes (data : Option (List UInt8)) : x.reader.thread = .target → v.reader = .closing data →
      Change accepts v x .reader
        { v with reader := .ending data, res := { x with stdout := true }.res }
        { x with stdout := true }
  | puts (data : List UInt8) : x.reader.thread = .target → v.reader = .ending (some data) →
      Change accepts v x .reader { v with
        reader := .returning, res := { x with sink := { x.sink with data := some data } }.res }
        { x with sink := { x.sink with data := some data } }
  | ends : x.reader.thread = .target → v.reader = .ending none →
      Change accepts v x .reader { v with reader := .returning } x
  | childReads : v.child = .reading → v.writer ≠ .writing →
      Change accepts v x .child { v with child := .writing } x
  | childWrites : v.child = .writing →
      Change accepts v x .child { v with child := .exiting, pipe := v.pipe ++ okAnswer } x
  | childExits : v.child = .exiting → (∀ deadline, x.deadline = some deadline → v.now < deadline) →
      x.exit = none →
      Change accepts v x .child
        { v with child := .ended, res := { x with exit := some (0, v.now) }.res }
        { x with exit := some (0, v.now) }
  | run (pc : RunPc) (x' : View) (pc' : VerifyPc) : v.pc = .running pc →
      Runs x v.now v.timeout pc x' pc' →
      (pc = .timing → x.exit.isSome = true ∨ 0 < v.timeout) →
      Change accepts v x .verifier { v with res := x'.res, pc := pc' } x'
  | reap (completed : Bool) (deadline : Nat) (pc : ReapPc) (x' : View) (pc' : VerifyPc) :
      v.pc = .reaping completed deadline pc →
      (pc = .closingStdout → x.stdout = false → ∀ chunks, v.reader ≠ .reading chunks) →
      Reaps accepts x completed v.now deadline pc x' pc' →
      Change accepts v x .verifier { v with res := x'.res, pc := pc' } x'
  | tick : (x.exit.isSome = true ∨ ∀ deadline, x.deadline = some deadline → v.now + 1 < deadline) →
      Change accepts v x .tick { v with now := v.now + 1 } x

section
variable {accepts : List UInt8 → Bool} {v v' : Verification} {x : View}

/-- A step of `_pump_stdin`. -/
theorem change_of_writerStep (hres : v.res = x.res) (h : v.writerStep = some v') :
    ∃ x', v'.res = x'.res ∧ Change accepts v x .writer v' x' := by
  have hp : v.res.pumps[0]? = some x.writer := by rw [hres]; rfl
  rcases lives_of_guardedStep hp h with ⟨p, hlives, rfl⟩ | ⟨hthread, hreturning, htarget⟩
  · have heq : v.res.withPump 0 p = { x with writer := p }.res := by rw [hres]; rfl
    refine ⟨{ x with writer := p }, heq, ?_⟩
    rw [heq]
    exact .writer p (by simpa using hlives)
  · cases hpc : v.writer <;> simp only [hpc] at htarget
    case writing =>
      obtain rfl := Option.some.inj htarget
      exact ⟨x, hres, .wrote hthread hpc⟩
    case closing =>
      have hmove : x.res.pumpMove 0 .close = some { x with stdin := true }.res := by
        simp [Resources.pumpMove, View.res, hthread, Resources.withProcess]
      simp only [Verification.move, hres, hmove, Option.map_some] at htarget
      obtain rfl := Option.some.inj htarget
      exact ⟨{ x with stdin := true }, rfl, .wroteAll hthread hpc⟩
    case returning => cases htarget

/-- A step of `_pump_stdout`. -/
theorem change_of_readerStep (hres : v.res = x.res) (h : v.readerStep = some v') :
    ∃ x', v'.res = x'.res ∧ Change accepts v x .reader v' x' := by
  have hp : v.res.pumps[1]? = some x.reader := by rw [hres]; rfl
  rcases lives_of_guardedStep hp h with ⟨p, hlives, rfl⟩ | ⟨hthread, hreturning, htarget⟩
  · have heq : v.res.withPump 1 p = { x with reader := p }.res := by rw [hres]; rfl
    refine ⟨{ x with reader := p }, heq, ?_⟩
    rw [heq]
    exact .reader p (by simpa using hlives)
  · cases hpc : v.reader with
    | looping chunks =>
        simp only [hpc, stdoutClosed_view hres] at htarget
        cases hclosed : x.stdout with
        | true =>
            rw [if_pos hclosed] at htarget
            obtain rfl := Option.some.inj htarget
            exact ⟨x, hres, .raises chunks hthread hpc hclosed⟩
        | false =>
            rw [if_neg (by simp [hclosed])] at htarget
            obtain rfl := Option.some.inj htarget
            exact ⟨x, hres, .reads chunks hthread hpc hclosed⟩
    | reading chunks =>
        simp only [hpc, exited_view hres] at htarget
        split_ifs at htarget with hblocked hempty hbig
        · obtain rfl := Option.some.inj htarget
          refine ⟨x, hres, .readAll chunks hthread hpc hempty ?_⟩
          simpa [hempty, Option.isSome_iff_ne_none] using hblocked
        · have hmove : x.res.pumpMove 1 .overflow =
              some { x with sink := { x.sink with tooBig := true } }.res := by
            simp [Resources.pumpMove, View.res, hthread]
          simp only [Verification.move, hres, hmove, Option.map_some] at htarget
          obtain rfl := Option.some.inj htarget
          exact ⟨{ x with sink := { x.sink with tooBig := true } }, rfl,
            .overflows chunks hthread hpc hbig⟩
        · obtain rfl := Option.some.inj htarget
          exact ⟨x, hres, .read chunks hthread hpc hempty⟩
    | closing data =>
        have hmove : x.res.pumpMove 1 .close = some { x with stdout := true }.res := by
          simp [Resources.pumpMove, View.res, hthread, Resources.withProcess]
        simp only [hpc, Verification.move, hres, hmove, Option.map_some] at htarget
        obtain rfl := Option.some.inj htarget
        exact ⟨{ x with stdout := true }, rfl, .closes data hthread hpc⟩
    | ending data =>
        cases data with
        | none =>
            simp only [hpc] at htarget
            obtain rfl := Option.some.inj htarget
            exact ⟨x, hres, .ends hthread hpc⟩
        | some data =>
            have hmove : x.res.pumpMove 1 (.output data) =
                some { x with sink := { x.sink with data := some data } }.res := by
              simp [Resources.pumpMove, View.res, hthread]
            simp only [hpc, Verification.move, hres, hmove, Option.map_some] at htarget
            obtain rfl := Option.some.inj htarget
            exact ⟨{ x with sink := { x.sink with data := some data } }, rfl,
              .puts data hthread hpc⟩
    | returning => simp [hpc] at hreturning

/-- A step of the child. -/
theorem change_of_childStep (hres : v.res = x.res) (h : v.childStep = some v') :
    ∃ x', v'.res = x'.res ∧ Change accepts v x .child v' x' := by
  cases hpc : v.child <;> simp only [Verification.childStep, hpc] at h
  case reading =>
    split_ifs at h with hwriting
    obtain rfl := Option.some.inj h
    exact ⟨x, hres, .childReads hpc hwriting⟩
  case writing =>
    obtain rfl := Option.some.inj h
    exact ⟨x, hres, .childWrites hpc⟩
  case exiting =>
    rw [hres] at h
    split_ifs at h with hearly
    obtain ⟨res, hexits, rfl⟩ := Option.map_eq_some_iff.mp h
    simp only [Resources.exits, View.res] at hexits
    split_ifs at hexits with hexit
    obtain rfl := Option.some.inj hexits
    refine ⟨{ x with exit := some (0, v.now) }, rfl, .childExits hpc ?_ hexit⟩
    intro deadline hdeadline
    simpa [View.res, hdeadline] using hearly
  case ended => cases h

/-- A step of `run`. -/
theorem change_of_runStep (hres : v.res = x.res) {pc : RunPc} (hpc : v.pc = .running pc)
    (htime : pc = .timing → x.exit.isSome = true ∨ 0 < v.timeout) (h : v.runStep pc = some v') :
    ∃ x', v'.res = x'.res ∧ Change accepts v x .verifier v' x' := by
  obtain ⟨⟨res, out⟩, hrun, rfl⟩ := Option.map_eq_some_iff.mp h
  rw [hres] at hrun
  -- the step leads to `x'` and `pc'`
  have hto : ∀ (x' : View) (pc' : VerifyPc), res = x'.res → Runs x v.now v.timeout pc x' pc' →
      out.afterRun (v.now + cleanupBudget) = pc' → ∃ x', res = x'.res ∧ Change accepts v x .verifier
        { v with res := res, pc := out.afterRun (v.now + cleanupBudget) } x' := by
    rintro x' pc' rfl hruns rfl
    exact ⟨x', rfl, .run pc x' _ hpc hruns htime⟩
  cases pc with
  | spawning => exact nomatch hrun
  | starting i =>
      match i, hrun with
      | 0, hrun =>
          obtain ⟨rfl, rfl⟩ := Prod.mk.inj (Option.some.inj hrun)
          exact hto _ _ rfl .starting0 rfl
      | 1, hrun =>
          obtain ⟨rfl, rfl⟩ := Prod.mk.inj (Option.some.inj hrun)
          exact hto _ _ rfl .starting1 rfl
      | i + 2, hrun => exact nomatch hrun
  | launching i =>
      match i, hrun with
      | 0, hrun =>
          obtain ⟨rfl, rfl⟩ := Prod.mk.inj (Option.some.inj hrun)
          exact hto _ _ rfl .launching0 rfl
      | 1, hrun =>
          obtain ⟨rfl, rfl⟩ := Prod.mk.inj (Option.some.inj hrun)
          exact hto _ _ rfl .launching1 rfl
      | i + 2, hrun => exact nomatch hrun
  | started i =>
      match i, hrun with
      | 0, hrun =>
          obtain ⟨rfl, rfl⟩ := Prod.mk.inj (Option.some.inj hrun)
          exact hto _ _ rfl .started0 rfl
      | 1, hrun =>
          obtain ⟨rfl, rfl⟩ := Prod.mk.inj (Option.some.inj hrun)
          exact hto _ _ rfl .started1 rfl
      | i + 2, hrun => exact nomatch hrun
  | timing =>
      obtain ⟨rfl, rfl⟩ := Prod.mk.inj (Option.some.inj hrun)
      exact hto _ _ rfl .timing rfl
  | checking deadline =>
      simp only [Resources.runStep] at hrun
      split_ifs at hrun with hlate
      · obtain ⟨rfl, rfl⟩ := Prod.mk.inj (Option.some.inj hrun)
        exact hto _ _ rfl (.late deadline hlate) rfl
      · obtain ⟨rfl, rfl⟩ := Prod.mk.inj (Option.some.inj hrun)
        rw [not_or, Nat.not_le, Bool.not_eq_true] at hlate
        exact hto _ _ rfl (.checking deadline hlate.1 hlate.2) rfl
  | waiting deadline =>
      simp only [Resources.runStep, RunPc.effect, exited_view hres] at hrun
      split_ifs at hrun with hended hexited
      · obtain ⟨rfl, rfl⟩ := Prod.mk.inj (Option.some.inj hrun)
        exact hto _ _ rfl (.ended deadline hended) rfl
      · obtain ⟨rfl, rfl⟩ := Prod.mk.inj (Option.some.inj hrun)
        exact hto _ _ rfl (.expired deadline (by simpa using hended)) rfl

/-- A step of `reap` on a child that has ended. -/
theorem change_of_reapStep (hres : v.res = x.res) {completed : Bool} {deadline : Nat} {pc : ReapPc}
    (hpc : v.pc = .reaping completed deadline pc) (hended : x.exit.isSome = true)
    (hsane : pc ≠ .killing ∧ pc ≠ .waiting ∧ pc ≠ .confirming)
    (hheld : pc = .closingStdout → x.stdout = false → ∀ chunks, v.reader ≠ .reading chunks)
    (h : v.reapStep accepts completed deadline pc = some v') :
    ∃ x', v'.res = x'.res ∧ Change accepts v x .verifier v' x' := by
  obtain ⟨⟨res, out⟩, hreap, rfl⟩ := Option.map_eq_some_iff.mp h
  rw [hres, Resources.reapStep, if_neg (fun hf => by cases hf), if_neg (fun hf => by cases hf.2)] at hreap
  have hreached : x.res.reachable = some ⟨true, some x.stdin, some x.stdout, x.exit⟩ := rfl
  rw [hreached] at hreap
  -- the step leads to `x'` and `pc'`
  have hto : ∀ (x' : View) (pc' : VerifyPc), res = x'.res →
      Reaps accepts x completed v.now deadline pc x' pc' →
      out.afterReap completed deadline (Machine.judge accepts res completed) = pc' →
      ∃ x', res = x'.res ∧ Change accepts v x .verifier { v with
        res := res
        pc := out.afterReap completed deadline (Machine.judge accepts res completed) } x' := by
    rintro x' pc' rfl hreaps rfl
    exact ⟨x', rfl, .reap completed deadline pc x' _ hpc hheld hreaps⟩
  have hpoll : Process.ended ⟨true, some x.stdin, some x.stdout, x.exit⟩ ⟨v.exited, .returned⟩ =
      some true := by
    simp [Process.ended, Process.exited, exited_view hres, hended]
  cases pc with
  | checking =>
      obtain ⟨rfl, rfl⟩ := Prod.mk.inj (Option.some.inj hreap)
      exact hto _ _ rfl .checking rfl
  | polling =>
      simp only [Resources.reapReached, ReapPc.effect, hpoll] at hreap
      obtain ⟨rfl, rfl⟩ := Prod.mk.inj (Option.some.inj hreap)
      exact hto _ _ rfl .polling rfl
  | killing => exact absurd rfl hsane.1
  | waiting => exact absurd rfl hsane.2.1
  | confirming => exact absurd rfl hsane.2.2
  | closingStdin =>
      obtain ⟨rfl, rfl⟩ := Prod.mk.inj (Option.some.inj hreap)
      exact hto _ _ (by simp [Resources.closeStdin, View.res, Resources.withProcess, ReapPc.effect])
        .closingStdin rfl
  | closingStdout =>
      obtain ⟨rfl, rfl⟩ := Prod.mk.inj (Option.some.inj hreap)
      exact hto _ _ (by simp [Resources.closeStdout, View.res, Resources.withProcess, ReapPc.effect])
        .closingStdout rfl
  | joining i =>
      simp only [Resources.reapReached] at hreap
      split_ifs at hreap with hjoin
      · obtain ⟨rfl, rfl⟩ := Prod.mk.inj (Option.some.inj hreap)
        exact hto _ _ rfl (.joining i hjoin.1 hjoin.2) rfl
      · obtain ⟨rfl, rfl⟩ := Prod.mk.inj (Option.some.inj hreap)
        exact hto _ _ rfl (.joined i hjoin) rfl
  | settling i settled =>
      rcases i with - | - | i
      · obtain ⟨rfl, rfl⟩ := Prod.mk.inj (Option.some.inj hreap)
        exact hto _ _ rfl (.settling0 settled) rfl
      · obtain ⟨rfl, rfl⟩ := Prod.mk.inj (Option.some.inj hreap)
        exact hto _ _ rfl (.settling1 settled) rfl
      · obtain ⟨rfl, rfl⟩ := Prod.mk.inj (Option.some.inj hreap)
        exact hto _ _ rfl (.settled i settled) rfl
  | concluding settled =>
      simp only [Resources.reapReached, ReapPc.effect, hpoll] at hreap
      obtain ⟨rfl, rfl⟩ := Prod.mk.inj (Option.some.inj hreap)
      exact hto _ _ rfl (.concluding settled) (by cases settled <;> rfl)
  | sealing =>
      simp only [Resources.reapReached, true_and] at hreap
      split_ifs at hreap with hclosed
      · obtain ⟨rfl, rfl⟩ := Prod.mk.inj (Option.some.inj hreap)
        simp only [Process.knownClosed, Bool.and_eq_true, bne_iff_ne, ne_eq, Option.some.injEq,
          Bool.not_eq_false] at hclosed
        exact hto _ _ rfl (.sealing hclosed.1 hclosed.2) rfl
      · obtain ⟨rfl, rfl⟩ := Prod.mk.inj (Option.some.inj hreap)
        refine hto _ _ rfl (.unsealed fun hboth => hclosed ?_) rfl
        simp [Process.knownClosed, hboth]
  | looking =>
      simp only [Resources.reapReached] at hreap
      rw [if_neg (by simp [Process.pipeMissing])] at hreap
      split_ifs at hreap with hover
      · obtain ⟨rfl, rfl⟩ := Prod.mk.inj (Option.some.inj hreap)
        exact hto _ _ rfl (.gaveUp hover) rfl
      · obtain ⟨rfl, rfl⟩ := Prod.mk.inj (Option.some.inj hreap)
        exact hto _ _ rfl (.looking (Nat.lt_of_not_le hover)) rfl
  | pausing =>
      obtain ⟨rfl, rfl⟩ := Prod.mk.inj (Option.some.inj hreap)
      exact hto _ _ rfl .pausing rfl

end

end MaskGateway.Proofs.Datasource.Answer
