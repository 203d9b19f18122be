import MaskGateway.Datasource.Child

/-!
# `MaskGateway.Proofs.Datasource.Child`: when nothing is left of a child

`Gone` is what a slot is released for: nothing was spawned, or the process has ended, every pump is
settled and both pipes are closed. Nothing happens to such a child any more (`pumpMove_of_gone`,
`exits_of_gone`), and `reap` returns `True` only there: `Knows` is what it has found out so far,
which neither the threads nor the child take back (`reapStep_knows`).
-/

set_option autoImplicit false

namespace MaskGateway.Proofs.Datasource.Child

open MaskGateway.Datasource.Verify

/-! ### What holds of every child -/

/-- The states of a pump and of its thread belong together. -/
structure PumpOk (p : Pump) : Prop where
  unborn : p.state = .idle → p.thread = .unborn
  done : p.done = true → p.thread = .ending ∨ p.thread = .dead

/-- The parts of a child belong together. -/
structure Valid (res : Resources) : Prop where
  pumps : ∀ p ∈ res.pumps, PumpOk p
  idle : res.spawn = .idle → res.process = none ∧ res.pumps = []

/-- The exit of the child. -/
def exitOf (res : Resources) : Option (Int × Nat) := res.process.bind Process.exit

/-- Nothing is left of a child. -/
def Gone (res : Resources) : Prop :=
  res.spawn = .idle ∨ ∃ p, res.process = some p ∧ p.exited = true ∧ p.stdin = some true ∧
    p.stdout = some true ∧ ∀ q ∈ res.pumps, q.settled = true

/-- A pump whose thread is not there, or is gone, does not move. -/
theorem thread_of_settled {p : Pump} (hok : PumpOk p) (h : p.settled = true) :
    p.thread = .unborn ∨ p.thread = .dead := by
  simp only [Pump.settled, Bool.decide_or, Bool.or_eq_true, decide_eq_true_eq] at h
  rcases h with hidle | ⟨-, hdead⟩
  · exact .inl (hok.unborn hidle)
  · exact .inr hdead

/-- A pump that moves has a thread that runs. -/
theorem moving {res res' : Resources} {i : Nat} {move : PumpMove}
    (h : res.pumpMove i move = some res') :
    ∃ p, res.pumps[i]? = some p ∧ p.thread ≠ .unborn ∧ p.thread ≠ .dead := by
  cases hp : res.pumps[i]? with
  | none => simp [Resources.pumpMove, hp] at h
  | some p =>
      have hstill : p.thread = .unborn ∨ p.thread = .dead → False := by
        intro hthread
        cases move <;> rcases hthread with ht | ht <;> simp [Resources.pumpMove, hp, ht] at h
        all_goals split at h <;> exact nomatch h
      exact ⟨p, rfl, fun ht => hstill (.inl ht), fun ht => hstill (.inr ht)⟩

/-- A pump that is settled does not move. -/
theorem pumpMove_of_settled {res : Resources} (hvalid : Valid res) {i : Nat} {move : PumpMove}
    (h : ∀ p, res.pumps[i]? = some p → p.settled = true) : res.pumpMove i move = none := by
  cases hm : res.pumpMove i move with
  | none => rfl
  | some res' =>
      obtain ⟨p, hp, hborn, hlives⟩ := moving hm
      rcases thread_of_settled (hvalid.pumps p (List.mem_of_getElem? hp)) (h p hp) with ht | ht
      · exact absurd ht hborn
      · exact absurd ht hlives

/-- No thread touches a child that is gone. -/
theorem pumpMove_of_gone {res : Resources} (hvalid : Valid res) (h : Gone res) (i : Nat)
    (move : PumpMove) : res.pumpMove i move = none := by
  refine pumpMove_of_settled hvalid fun p hp => ?_
  rcases h with hidle | ⟨_, _, _, _, _, hsettled⟩
  · rw [(hvalid.idle hidle).2] at hp
    simp at hp
  · exact hsettled p (List.mem_of_getElem? hp)

/-- A child that is gone does not end again. -/
theorem exits_of_gone {res : Resources} (hvalid : Valid res) (h : Gone res) (code : Int)
    (now : Nat) : res.exits code now = none := by
  rcases h with hidle | ⟨p, hp, hexited, -⟩
  · simp [Resources.exits, (hvalid.idle hidle).1]
  · have hne : p.exit ≠ none := by
      intro hnone
      simp [Process.exited, hnone] at hexited
    simp [Resources.exits, hp, hne]

/-! ### What the threads and the child do -/

/-- What a move of a pump leaves alone: the pump moves on by itself, and pipes are only closed. -/
structure Moves (res res' : Resources) : Prop where
  spawn : res'.spawn = res.spawn
  deadline : res'.deadline = res.deadline
  exit : exitOf res' = exitOf res
  process : res.process = none → res'.process = none
  pipes : ∀ p, res.process = some p → ∃ p', res'.process = some p' ∧ p'.exit = p.exit ∧
    p'.pipeMissing = p.pipeMissing
  length : res'.pumps.length = res.pumps.length

/-- Nothing moves. -/
theorem Moves.refl (res : Resources) : Moves res res where
  spawn := rfl
  deadline := rfl
  exit := rfl
  process := id
  pipes p hp := ⟨p, hp, rfl, rfl⟩
  length := rfl

/-- The pump at a place is another one. -/
theorem moves_withPump (res : Resources) (i : Nat) (p : Pump) : Moves res (res.withPump i p) where
  spawn := rfl
  deadline := rfl
  exit := rfl
  process := id
  pipes p hp := ⟨p, hp, rfl, rfl⟩
  length := List.length_set

/-- The pipes of the process are in another state. -/
theorem moves_withProcess {res : Resources} {p p' : Process} (hp : res.process = some p)
    (hexit : p'.exit = p.exit) (hmissing : p'.pipeMissing = p.pipeMissing) :
    Moves res (res.withProcess p') where
  spawn := rfl
  deadline := rfl
  exit := by simp [exitOf, Resources.withProcess, hp, hexit]
  process hnone := by
    rw [hp] at hnone
    exact nomatch hnone
  pipes q hq := by
    obtain rfl : p = q := Option.some.inj (hp.symm.trans hq)
    exact ⟨p', rfl, hexit, hmissing⟩
  length := rfl

/-- A pump in a list in which one was replaced. -/
theorem mem_set_pump {pumps : List Pump} {i : Nat} {p q : Pump} (h : q ∈ pumps.set i p) :
    q ∈ pumps ∨ q = p := List.mem_or_eq_of_mem_set h

/-- A pump was replaced by one that is all right. -/
theorem Valid.withPump {res : Resources} (h : Valid res) {i : Nat} {p p' : Pump}
    (hp : res.pumps[i]? = some p) (hok : PumpOk p') : Valid (res.withPump i p') where
  pumps q hq := by
    rcases mem_set_pump hq with hq | rfl
    · exact h.pumps q hq
    · exact hok
  idle hidle := by
    rw [(h.idle hidle).2] at hp
    simp at hp

/-- The process of a child that was spawned is replaced. -/
theorem Valid.withProcess {res : Resources} (h : Valid res) {p p' : Process}
    (hp : res.process = some p) : Valid (res.withProcess p') where
  pumps := h.pumps
  idle hidle := by
    rw [(h.idle hidle).1] at hp
    exact nomatch hp

/-- A move of a pump: the child stays all right, and no other pump changes. -/
theorem pumpMove_spec {res res' : Resources} (hvalid : Valid res) {i : Nat} {move : PumpMove}
    (h : res.pumpMove i move = some res') :
    Valid res' ∧ Moves res res' ∧
      (∀ j q, j ≠ i → res.pumps[j]? = some q → res'.pumps[j]? = some q) := by
  obtain ⟨p, hp, hborn, hlives⟩ := moving h
  have hok := hvalid.pumps p (List.mem_of_getElem? hp)
  have hstate : p.state ≠ .idle := fun hidle => hborn (hok.unborn hidle)
  -- a thread that is before its end is not done
  have hrunning : p.thread ≠ .ending → p.done = false := by
    intro hne
    cases hdone : p.done with
    | false => rfl
    | true =>
        rcases hok.done hdone with ht | ht
        · exact absurd ht hne
        · exact absurd ht hlives
  -- the pump becomes `p'`
  have hpump : ∀ p' : Pump, some (res.withPump i p') = some res' → PumpOk p' →
      Valid res' ∧ Moves res res' ∧
        (∀ j q, j ≠ i → res.pumps[j]? = some q → res'.pumps[j]? = some q) := by
    intro p' heq hok'
    obtain rfl := Option.some.inj heq
    refine ⟨hvalid.withPump hp hok', moves_withPump res i p', ?_⟩
    intro j q hne hq
    show (res.pumps.set i p')[j]? = some q
    rw [List.getElem?_set_ne (Ne.symm hne)]
    exact hq
  have hother : ∀ j q, j ≠ i → res.pumps[j]? = some q → res.pumps[j]? = some q :=
    fun _ _ _ hq => hq
  cases move <;> simp only [Resources.pumpMove, hp] at h
  case enter =>
    split_ifs at h with hthread hcancelled
    · refine hpump _ h ⟨fun hidle => absurd hidle hstate, fun hdone => ?_⟩
      exact absurd (hdone.symm.trans (hrunning (by simp [hthread]))) (by decide)
    · refine hpump _ h ⟨fun hidle => absurd hidle hstate, fun hdone => ?_⟩
      exact absurd (hdone.symm.trans (hrunning (by simp [hthread]))) (by decide)
  case overflow =>
    split_ifs at h
    obtain rfl := Option.some.inj h
    exact ⟨⟨hvalid.pumps, hvalid.idle⟩, ⟨rfl, rfl, rfl, id, fun q hq => ⟨q, hq, rfl, rfl⟩, rfl⟩,
      hother⟩
  case error =>
    split_ifs at h
    obtain rfl := Option.some.inj h
    exact ⟨⟨hvalid.pumps, hvalid.idle⟩, ⟨rfl, rfl, rfl, id, fun q hq => ⟨q, hq, rfl, rfl⟩, rfl⟩,
      hother⟩
  case close =>
    cases hprocess : res.process with
    | none => simp [hprocess] at h
    | some process =>
        simp only [hprocess] at h
        split_ifs at h
        · obtain rfl := Option.some.inj h
          exact ⟨hvalid.withProcess hprocess, moves_withProcess hprocess rfl
            (by simp [Process.pipeMissing]), hother⟩
        · obtain rfl := Option.some.inj h
          exact ⟨hvalid.withProcess hprocess, moves_withProcess hprocess rfl
            (by simp [Process.pipeMissing]), hother⟩
  case output =>
    split_ifs at h
    obtain rfl := Option.some.inj h
    exact ⟨⟨hvalid.pumps, hvalid.idle⟩, ⟨rfl, rfl, rfl, id, fun q hq => ⟨q, hq, rfl, rfl⟩, rfl⟩,
      hother⟩
  case leave =>
    split_ifs at h with hthread
    refine hpump _ h ⟨fun hidle => absurd hidle hstate, fun hdone => ?_⟩
    exact absurd (hdone.symm.trans (hrunning (by simp [hthread]))) (by decide)
  case finish =>
    split_ifs at h
    refine hpump _ h ⟨fun hidle => absurd hidle hstate, fun _ => ?_⟩
    exact .inl rfl
  case die =>
    split_ifs at h
    refine hpump _ h ⟨fun hidle => absurd hidle hstate, fun _ => ?_⟩
    exact .inr rfl

/-- A thread does not touch the state of its pump. -/
theorem state_pumpMove {res res' : Resources} {i : Nat} {move : PumpMove}
    (h : res.pumpMove i move = some res') {p q : Pump} (hp : res.pumps[i]? = some p)
    (hq : res'.pumps[i]? = some q) : p.state = q.state := by
  have hlt : i < res.pumps.length := (List.getElem?_eq_some_iff.mp hp).1
  have hpump : ∀ p' : Pump, some (res.withPump i p') = some res' → p.state = p'.state →
      p.state = q.state := by
    intro p' heq hstate
    obtain rfl := Option.some.inj heq
    change (res.pumps.set i p')[i]? = some q at hq
    rw [List.getElem?_set_self hlt] at hq
    rw [hstate, Option.some.inj hq]
  have hsame : res'.pumps = res.pumps → p.state = q.state := by
    intro hpumps
    rw [hpumps, hp] at hq
    rw [Option.some.inj hq]
  cases move <;> simp only [Resources.pumpMove, hp] at h
  case enter =>
    split_ifs at h
    · exact hpump _ h rfl
    · exact hpump _ h rfl
  case close =>
    split at h
    · split_ifs at h
      · exact hsame (by rw [← Option.some.inj h]; rfl)
      · exact hsame (by rw [← Option.some.inj h]; rfl)
    · exact nomatch h
  case leave => split_ifs at h; exact hpump _ h rfl
  case finish => split_ifs at h; exact hpump _ h rfl
  case die => split_ifs at h; exact hpump _ h rfl
  all_goals split_ifs at h; exact hsame (by rw [← Option.some.inj h])

/-- The child ends, once. -/
theorem exits_eq_some {res res' : Resources} {code : Int} {now : Nat}
    (h : res.exits code now = some res') :
    ∃ p, res.process = some p ∧ p.exit = none ∧
      res' = res.withProcess { p with exit := some (code, now) } := by
  simp only [Resources.exits] at h
  split at h
  next p hp =>
    split_ifs at h with hnone
    exact ⟨p, hp, hnone, (Option.some.inj h).symm⟩
  next => exact nomatch h

/-! ### `reap` -/

/-- What `reap` has found out. -/
def Knows (res : Resources) : ReapPc → Prop
  | .settling i settled =>
      settled = true → ∀ j q, j < i → res.pumps[j]? = some q → q.settled = true
  | .concluding settled => settled = true → ∀ q ∈ res.pumps, q.settled = true
  | .sealing => (∀ q ∈ res.pumps, q.settled = true) ∧
      ∃ p, res.process = some p ∧ p.exited = true ∧ p.pipeMissing = false
  | _ => True

/-- A settled pump that could move would not be settled. -/
theorem settled_pumpMove {res res' : Resources} (hvalid : Valid res) {i : Nat} {move : PumpMove}
    (h : res.pumpMove i move = some res') {j : Nat} {q : Pump} (hq : res.pumps[j]? = some q)
    (hsettled : q.settled = true) : j ≠ i := by
  rintro rfl
  obtain ⟨p, hp, hborn, hlives⟩ := moving h
  obtain rfl : q = p := Option.some.inj (hq.symm.trans hp)
  rcases thread_of_settled (hvalid.pumps q (List.mem_of_getElem? hq)) hsettled with ht | ht
  · exact hborn ht
  · exact hlives ht

/-- A pump of the child is one that was there, unless it moved. -/
theorem getElem?_pumpMove {res res' : Resources} (hvalid : Valid res) {i : Nat} {move : PumpMove}
    (h : res.pumpMove i move = some res') {j : Nat} {q : Pump} (hq : res'.pumps[j]? = some q) :
    ∃ p, res.pumps[j]? = some p ∧ (p.settled = true → p = q) := by
  have hlength := (pumpMove_spec hvalid h).2.1.length
  have hj : j < res.pumps.length := by
    rw [← hlength]
    exact (List.getElem?_eq_some_iff.mp hq).1
  refine ⟨res.pumps[j], List.getElem?_eq_getElem hj, fun hsettled => ?_⟩
  have hne := settled_pumpMove hvalid h (List.getElem?_eq_getElem hj) hsettled
  have hsame := (pumpMove_spec hvalid h).2.2 j _ hne (List.getElem?_eq_getElem hj)
  exact Option.some.inj (hsame.symm.trans hq)

/-- The threads take nothing back of what `reap` knows. -/
theorem knows_pumpMove {res res' : Resources} (hvalid : Valid res) {i : Nat} {move : PumpMove}
    (h : res.pumpMove i move = some res') {pc : ReapPc} (hknows : Knows res pc) : Knows res' pc := by
  have hall : (∀ q ∈ res.pumps, q.settled = true) → ∀ q ∈ res'.pumps, q.settled = true := by
    intro hsettled q hq
    obtain ⟨j, hj⟩ := List.getElem?_of_mem hq
    obtain ⟨p, hp, hsame⟩ := getElem?_pumpMove hvalid h hj
    have hps := hsettled p (List.mem_of_getElem? hp)
    rw [← hsame hps]
    exact hps
  cases pc
  case settling i settled =>
    intro hs j q hji hq
    obtain ⟨p, hp, hsame⟩ := getElem?_pumpMove hvalid h hq
    have hps := hknows hs j p hji hp
    rw [← hsame hps]
    exact hps
  case concluding settled => exact fun hs => hall (hknows hs)
  case sealing =>
    obtain ⟨hsettled, p, hp, hexited, hpipes⟩ := hknows
    obtain ⟨p', hp', hexit, hmissing⟩ := (pumpMove_spec hvalid h).2.1.pipes p hp
    refine ⟨hall hsettled, p', hp', ?_, hmissing.trans hpipes⟩
    simpa [Process.exited, hexit] using hexited
  all_goals trivial

/-- Nor does the end of the child. -/
theorem knows_exits {res res' : Resources} {code : Int} {now : Nat}
    (h : res.exits code now = some res') {pc : ReapPc} (hknows : Knows res pc) : Knows res' pc := by
  obtain ⟨p, hp, hnone, rfl⟩ := exits_eq_some h
  cases pc
  case sealing =>
    obtain ⟨_, q, hq, hexited, _⟩ := hknows
    obtain rfl : p = q := Option.some.inj (hp.symm.trans hq)
    simp [Process.exited, hnone] at hexited
  all_goals exact hknows

/-- What a step of `reap` leads to is right. -/
def Reaps (res : Resources) : Out ReapPc → Prop
  | .next pc => Knows res pc
  | .done reaped => reaped = true → Gone res
  | .raised => True

/-- A poll that says so shows the end. -/
theorem exited_of_ended {p : Process} {answer : Answer} (h : p.ended answer = some true) :
    p.exited = true := by
  simp only [Process.ended] at h
  split at h
  · split_ifs at h with heffect hexited
    · exact hexited
    · simp at h
  · simp at h
  · exact nomatch h

/-- A process that is reached is the one of the record. -/
theorem process_of_reachable {res : Resources} {p : Process} (h : res.reachable = some p) :
    res.process = some p := by
  simp only [Resources.reachable] at h
  split at h
  next q hq =>
    split_ifs at h
    rw [hq, h]
  next => exact nomatch h

/-- A pump that is cancelled is as settled as before. -/
theorem settled_cancel (p : Pump) : p.cancel.settled = p.settled := by
  rw [Pump.cancel]
  split <;> rfl

/-- A pump that is cancelled is all right. -/
theorem PumpOk.cancel {p : Pump} (h : PumpOk p) : PumpOk p.cancel := by
  rw [Pump.cancel]
  split
  · exact h
  · exact ⟨h.unborn, h.done⟩

/-- A step closes at most pipes and cancels at most pumps. -/
structure Quiet (res res' : Resources) : Prop where
  valid : Valid res'
  moves : Moves res res'
  sink : res'.sink = res.sink

/-- Nothing is done. -/
theorem Quiet.refl {res : Resources} (h : Valid res) : Quiet res res := ⟨h, .refl _, rfl⟩

/-- `stdin.close()`, whatever comes of it. -/
theorem quiet_closeStdin {res : Resources} (h : Valid res) (effect : Bool) :
    Quiet res (res.closeStdin effect) := by
  rw [Resources.closeStdin]
  split
  next p hp =>
    refine ⟨h.withProcess hp, moves_withProcess hp rfl ?_, rfl⟩
    simp [Process.pipeMissing]
  next => exact .refl h

/-- `stdout.close()`, whatever comes of it. -/
theorem quiet_closeStdout {res : Resources} (h : Valid res) (effect : Bool) :
    Quiet res (res.closeStdout effect) := by
  rw [Resources.closeStdout]
  split
  next p hp =>
    refine ⟨h.withProcess hp, moves_withProcess hp rfl ?_, rfl⟩
    simp [Process.pipeMissing]
  next => exact .refl h

/-- A step that is interrupted concludes nothing. -/
theorem reapInterrupted_spec {res res' : Resources} (hvalid : Valid res) {now deadline : Nat}
    {pc : ReapPc} {effect : Bool} {out : Out ReapPc}
    (h : res.reapInterrupted now deadline pc effect = some (res', out)) :
    Quiet res res' ∧ out = .raised := by
  have hstay : some (res, Out.raised) = some (res', out) → Quiet res res' ∧ out = .raised := by
    intro heq
    obtain ⟨rfl, rfl⟩ := Prod.mk.inj (Option.some.inj heq)
    exact ⟨.refl hvalid, rfl⟩
  cases pc <;> simp only [Resources.reapInterrupted] at h
  case checking => exact nomatch h
  case settling => exact nomatch h
  case joining =>
    split_ifs at h
    exact hstay h
  case closingStdin =>
    obtain ⟨rfl, rfl⟩ := Prod.mk.inj (Option.some.inj h)
    exact ⟨quiet_closeStdin hvalid effect, rfl⟩
  case closingStdout =>
    obtain ⟨rfl, rfl⟩ := Prod.mk.inj (Option.some.inj h)
    exact ⟨quiet_closeStdout hvalid effect, rfl⟩
  all_goals exact hstay h

/-- The pump at a place is cancelled, and found settled or not. -/
theorem knows_cancel {res : Resources} {i : Nat} {settled : Bool} {q : Pump}
    (hknows : Knows res (.settling i settled)) (hq : res.pumps[i]? = some q) :
    Knows (res.withPump i q.cancel) (.settling (i + 1) (settled && q.settled)) := by
  intro hs j p hj hp
  rw [Bool.and_eq_true] at hs
  change (res.pumps.set i q.cancel)[j]? = some p at hp
  by_cases hji : j = i
  · subst hji
    have hlt : j < res.pumps.length := (List.getElem?_eq_some_iff.mp hq).1
    rw [List.getElem?_set_self hlt] at hp
    rw [← Option.some.inj hp, settled_cancel]
    exact hs.2
  · rw [List.getElem?_set_ne (Ne.symm hji)] at hp
    exact hknows hs.1 j p (by omega) hp

/-- All pumps were looked at. -/
theorem knows_all {res : Resources} {i : Nat} {settled : Bool}
    (hknows : Knows res (.settling i settled)) (hnone : res.pumps[i]? = none) :
    Knows res (.concluding settled) := by
  intro hs q hq
  obtain ⟨j, hj⟩ := List.getElem?_of_mem hq
  have hlt : j < res.pumps.length := (List.getElem?_eq_some_iff.mp hj).1
  have hle : res.pumps.length ≤ i := List.getElem?_eq_none_iff.mp hnone
  exact hknows hs j q (by omega) hj

/-- Both pipes are exposed and none of them is open. -/
theorem gone_of_sealed {res : Resources} {p : Process} (hp : res.process = some p)
    (hknows : Knows res .sealing) (hclosed : p.knownClosed = true) : Gone res := by
  obtain ⟨hsettled, q, hq, hexited, hpipes⟩ := hknows
  obtain rfl : p = q := Option.some.inj (hp.symm.trans hq)
  have hboth : p.stdin = some true ∧ p.stdout = some true := by
    revert hpipes hclosed
    rcases p with ⟨_, _ | (_ | _), _ | (_ | _), _⟩ <;>
      simp [Process.pipeMissing, Process.knownClosed]
  exact .inr ⟨p, hp, hexited, hboth.1, hboth.2, hsettled⟩

/-- A step on a process that is reached. -/
theorem reapReached_spec {res res' : Resources} (hvalid : Valid res) {p : Process}
    (hp : res.process = some p) {now deadline : Nat} {pc : ReapPc} {answer : Answer}
    {out : Out ReapPc} (hknows : Knows res pc)
    (h : res.reapReached p now deadline pc answer = some (res', out)) :
    Quiet res res' ∧ Reaps res' out := by
  have hstay : ∀ out' : Out ReapPc, some (res, out') = some (res', out) → Reaps res out' →
      Quiet res res' ∧ Reaps res' out := by
    intro out' heq hreaps
    obtain ⟨rfl, rfl⟩ := Prod.mk.inj (Option.some.inj heq)
    exact ⟨.refl hvalid, hreaps⟩
  cases pc <;> simp only [Resources.reapReached] at h
  case checking => exact hstay _ h trivial
  case polling =>
    obtain ⟨ended, _, heq⟩ := Option.map_eq_some_iff.mp h
    cases ended <;> exact hstay _ (congrArg some heq) trivial
  case killing =>
    refine hstay _ h ?_
    split <;> trivial
  case waiting => exact hstay _ h trivial
  case confirming =>
    obtain ⟨ended, _, heq⟩ := Option.map_eq_some_iff.mp h
    cases ended <;> exact hstay _ (congrArg some heq) trivial
  case closingStdin =>
    obtain ⟨rfl, rfl⟩ := Prod.mk.inj (Option.some.inj h)
    exact ⟨quiet_closeStdin hvalid _, trivial⟩
  case closingStdout =>
    obtain ⟨rfl, rfl⟩ := Prod.mk.inj (Option.some.inj h)
    exact ⟨quiet_closeStdout hvalid _, trivial⟩
  case joining i =>
    split_ifs at h
    · exact hstay _ h trivial
    · exact hstay _ h (fun _ j q hj => absurd hj (Nat.not_lt_zero j))
  case settling i settled =>
    split at h
    next q hq =>
      obtain ⟨rfl, rfl⟩ := Prod.mk.inj (Option.some.inj h)
      have hok := (hvalid.pumps q (List.mem_of_getElem? hq)).cancel
      exact ⟨⟨hvalid.withPump hq hok, moves_withPump res i _, rfl⟩, knows_cancel hknows hq⟩
    next hnone => exact hstay _ h (knows_all hknows hnone)
  case concluding settled =>
    split_ifs at h with hmissing
    · exact hstay _ h trivial
    · obtain ⟨ended, hended, heq⟩ := Option.map_eq_some_iff.mp h
      refine hstay _ (congrArg some heq) ?_
      split
      next hboth =>
        rw [Bool.and_eq_true] at hboth
        have htrue : p.ended answer = some true := by rw [hended, hboth.1]
        exact ⟨hknows hboth.2, p, hp, exited_of_ended htrue, by simpa using hmissing⟩
      next => trivial
  case sealing =>
    split_ifs at h with hsealed
    · exact hstay _ h (fun _ => gone_of_sealed hp hknows hsealed.2)
    · exact hstay _ h trivial
  case looking =>
    by_cases hmissing : p.pipeMissing = true
    · rw [if_pos hmissing] at h
      obtain ⟨ended, _, heq⟩ := Option.map_eq_some_iff.mp h
      split_ifs at heq
      · exact hstay _ (congrArg some heq) (fun hf => nomatch hf)
      · exact hstay _ (congrArg some heq) (fun hf => nomatch hf)
      · exact hstay _ (congrArg some heq) trivial
    · rw [if_neg hmissing] at h
      split_ifs at h
      · exact hstay _ h (fun hf => nomatch hf)
      · exact hstay _ h trivial
  case pausing => exact hstay _ h trivial

/-- One step of `reap`: it closes pipes and cancels pumps, and is right about what it says. -/
theorem reapStep_spec {res res' : Resources} (hvalid : Valid res) {now deadline : Nat}
    {pc : ReapPc} {answer : Answer} {out : Out ReapPc} (hknows : Knows res pc)
    (h : res.reapStep now deadline pc answer = some (res', out)) :
    Quiet res res' ∧ Reaps res' out := by
  rw [Resources.reapStep] at h
  by_cases hinterrupted : answer.ending = .interrupted
  · rw [if_pos hinterrupted] at h
    obtain ⟨hquiet, rfl⟩ := reapInterrupted_spec hvalid h
    exact ⟨hquiet, trivial⟩
  rw [if_neg hinterrupted] at h
  by_cases hidle : pc = .checking ∧ res.spawn = .idle
  · rw [if_pos hidle] at h
    obtain ⟨rfl, rfl⟩ := Prod.mk.inj (Option.some.inj h)
    exact ⟨.refl hvalid, fun _ => .inl hidle.2⟩
  rw [if_neg hidle] at h
  cases hr : res.reachable with
  | some p =>
      rw [hr] at h
      exact reapReached_spec hvalid (process_of_reachable hr) hknows h
  | none =>
      simp only [hr] at h
      split_ifs at h
      obtain ⟨rfl, rfl⟩ := Prod.mk.inj (Option.some.inj h)
      exact ⟨.refl hvalid, fun hf => nomatch hf⟩

/-! ### `run` -/

/-- What `run` knows of the pumps, and of its deadline. -/
def RunKnows (res : Resources) : RunPc → Prop
  | .spawning | .timing => True
  | .starting i => ∀ j p, i ≤ j → res.pumps[j]? = some p → p.state = .idle
  | .launching i =>
      (∀ p, res.pumps[i]? = some p → p.state = .starting ∧ p.thread = .unborn) ∧
        ∀ j p, i < j → res.pumps[j]? = some p → p.state = .idle
  | .started i =>
      (∀ p, res.pumps[i]? = some p → p.state = .starting) ∧
        ∀ j p, i < j → res.pumps[j]? = some p → p.state = .idle
  | .checking deadline | .waiting deadline => res.deadline = some deadline

/-- The child has ended, and there was a deadline. -/
def Completed (res : Resources) : Prop := res.deadline.isSome = true ∧ (exitOf res).isSome = true

/-- The child, if it has ended, has ended in time. -/
def Timely (res : Resources) : Prop :=
  ∀ deadline code time, res.deadline = some deadline → exitOf res = some (code, time) →
    time ≤ deadline

/-- What a step of `run` leads to is right. -/
def Runs (res : Resources) : Out RunPc → Prop
  | .next pc => RunKnows res pc
  | .done completed => completed = true → Completed res
  | .raised => True

/-- A pump whose thread is not there stays as it is when others move. -/
theorem unborn_pumpMove {res res' : Resources} (hvalid : Valid res) {i : Nat} {move : PumpMove}
    (h : res.pumpMove i move = some res') {j : Nat} {q : Pump} (hq : res'.pumps[j]? = some q) :
    ∃ p, res.pumps[j]? = some p ∧ (p.thread = .unborn → p = q) ∧ (p.state = q.state) := by
  obtain ⟨hvalid', hmoves, hothers⟩ := pumpMove_spec hvalid h
  have hj : j < res.pumps.length := by
    rw [← hmoves.length]
    exact (List.getElem?_eq_some_iff.mp hq).1
  have hp : res.pumps[j]? = some res.pumps[j] := List.getElem?_eq_getElem hj
  refine ⟨res.pumps[j], hp, ?_, ?_⟩
  · intro hborn
    have hne : j ≠ i := by
      rintro rfl
      obtain ⟨p, hp', hthread, -⟩ := moving h
      obtain rfl := Option.some.inj (hp.symm.trans hp')
      exact hthread hborn
    exact Option.some.inj ((hothers j _ hne hp).symm.trans hq)
  · by_cases hji : j = i
    · subst hji
      exact state_pumpMove h hp hq
    · rw [Option.some.inj ((hothers j _ hji hp).symm.trans hq)]

/-- The threads take nothing back of what `run` knows. -/
theorem runKnows_pumpMove {res res' : Resources} (hvalid : Valid res) {i : Nat} {move : PumpMove}
    (h : res.pumpMove i move = some res') {pc : RunPc} (hknows : RunKnows res pc) :
    RunKnows res' pc := by
  have hlater : ∀ k, (∀ (j : Nat) (p : Pump), k < j → res.pumps[j]? = some p → p.state = .idle) →
      ∀ (j : Nat) (p : Pump), k < j → res'.pumps[j]? = some p → p.state = .idle := by
    intro k hidle j p hj hp
    obtain ⟨q, hq, -, hstate⟩ := unborn_pumpMove hvalid h hp
    rw [← hstate]
    exact hidle j q hj hq
  cases pc
  case starting k =>
    intro j p hj hp
    obtain ⟨q, hq, -, hstate⟩ := unborn_pumpMove hvalid h hp
    rw [← hstate]
    exact hknows j q hj hq
  case launching k =>
    refine ⟨?_, hlater k hknows.2⟩
    intro p hp
    obtain ⟨q, hq, hsame, -⟩ := unborn_pumpMove hvalid h hp
    obtain ⟨hstate, hborn⟩ := hknows.1 q hq
    rw [← hsame hborn]
    exact ⟨hstate, hborn⟩
  case started k =>
    refine ⟨?_, hlater k hknows.2⟩
    intro p hp
    obtain ⟨q, hq, -, hstate⟩ := unborn_pumpMove hvalid h hp
    rw [← hstate]
    exact hknows.1 q hq
  case checking deadline => exact (pumpMove_spec hvalid h).2.1.deadline.trans hknows
  case waiting deadline => exact (pumpMove_spec hvalid h).2.1.deadline.trans hknows
  all_goals trivial

/-- Nor does the end of the child. -/
theorem runKnows_exits {res res' : Resources} {code : Int} {now : Nat}
    (h : res.exits code now = some res') {pc : RunPc} (hknows : RunKnows res pc) :
    RunKnows res' pc := by
  obtain ⟨p, _, _, rfl⟩ := exits_eq_some h
  cases pc <;> exact hknows

/-- The constructor leaves a child that has not ended. -/
theorem spawnStep_spec {res res' : Resources} (hvalid : Valid res)
    {adopted : Option (Option Process)} {ending : Ending} {out : Out RunPc}
    (hexit : exitOf res = none) (h : res.spawnStep adopted ending = some (res', out)) :
    Valid res' ∧ exitOf res' = none ∧ Runs res' out := by
  have hborn : ∀ p : Option Process, (p.map Process.born).bind Process.exit = none := by
    intro p
    cases p <;> rfl
  have hattempted : ∀ (p : Option Process) (out' : Out RunPc), (∀ r, Runs r out') →
      some ({ res with spawn := .attempted, process := p.map Process.born }, out') =
        some (res', out) → Valid res' ∧ exitOf res' = none ∧ Runs res' out := by
    intro p out' hruns heq
    obtain ⟨rfl, rfl⟩ := Prod.mk.inj (Option.some.inj heq)
    exact ⟨⟨hvalid.pumps, fun hidle => nomatch hidle⟩, hborn p, hruns _⟩
  have hnever : ∀ r : Resources, Runs r (.done false) := fun _ hf => nomatch hf
  cases adopted with
  | none =>
      cases ending <;> simp only [Resources.spawnStep] at h
      · exact nomatch h
      · obtain ⟨rfl, rfl⟩ := Prod.mk.inj (Option.some.inj h)
        exact ⟨hvalid, hexit, hnever _⟩
      · obtain ⟨rfl, rfl⟩ := Prod.mk.inj (Option.some.inj h)
        exact ⟨hvalid, hexit, trivial⟩
  | some p =>
      cases ending with
      | failed => exact hattempted p _ hnever h
      | interrupted => exact hattempted p .raised (fun _ => trivial) h
      | returned =>
          cases p with
          | none => exact nomatch h
          | some p =>
              simp only [Resources.spawnStep] at h
              split_ifs at h with hmissing
              · obtain ⟨rfl, rfl⟩ := Prod.mk.inj (Option.some.inj h)
                exact ⟨⟨hvalid.pumps, fun hidle => nomatch hidle⟩, rfl, hnever _⟩
              · obtain ⟨rfl, rfl⟩ := Prod.mk.inj (Option.some.inj h)
                refine ⟨⟨?_, fun hidle => nomatch hidle⟩, rfl, ?_⟩
                · intro q hq
                  obtain rfl : q = {} := by simpa using hq
                  exact ⟨fun _ => rfl, fun hdone => nomatch hdone⟩
                · intro j q _ hq
                  obtain rfl : q = {} := by simpa using List.mem_of_getElem? hq
                  rfl

/-- A pump changes in a way that leaves those after it alone. -/
theorem later_withPump {res : Resources} {i : Nat} {p : Pump}
    (h : ∀ j q, i < j → res.pumps[j]? = some q → q.state = .idle) :
    ∀ j q, i < j → (res.withPump i p).pumps[j]? = some q → q.state = .idle := by
  intro j q hj hq
  change (res.pumps.set i p)[j]? = some q at hq
  rw [List.getElem?_set_ne (by omega)] at hq
  exact h j q hj hq

/-- The pump at a place is the one that was put there. -/
theorem getElem?_withPump {res : Resources} {i : Nat} {p p' q : Pump}
    (hp : res.pumps[i]? = some p) (hq : (res.withPump i p').pumps[i]? = some q) : q = p' := by
  change (res.pumps.set i p')[i]? = some q at hq
  rw [List.getElem?_set_self (List.getElem?_eq_some_iff.mp hp).1] at hq
  exact (Option.some.inj hq).symm

/-- One step of `run` after the spawn. -/
theorem runStep_spec {res res' : Resources} (hvalid : Valid res) {now timeout : Nat} {pc : RunPc}
    {answer : Answer} {out : Out RunPc} (hknows : RunKnows res pc)
    (h : res.runStep now timeout pc answer = some (res', out)) :
    Valid res' ∧ exitOf res' = exitOf res ∧ Runs res' out := by
  cases pc <;> simp only [Resources.runStep] at h
  case spawning => exact nomatch h
  case starting i =>
    split at h
    next p hp =>
      obtain ⟨rfl, rfl⟩ := Prod.mk.inj (Option.some.inj h)
      have hok := hvalid.pumps p (List.mem_of_getElem? hp)
      have hidle := hknows i p (Nat.le_refl i) hp
      refine ⟨hvalid.withPump hp ⟨fun hf => (nomatch hf), hok.done⟩, rfl, ?_, ?_⟩
      · intro q hq
        rw [getElem?_withPump hp hq]
        exact ⟨rfl, hok.unborn hidle⟩
      · exact later_withPump fun j q hj hq => hknows j q (Nat.le_of_lt hj) hq
    next => exact nomatch h
  case launching i =>
    split at h
    next p hp =>
      have hok := hvalid.pumps p (List.mem_of_getElem? hp)
      obtain ⟨hstate, hborn⟩ := hknows.1 p hp
      have hdone : p.done = false := by
        cases hd : p.done with
        | false => rfl
        | true => rcases hok.done hd with ht | ht <;> simp [hborn] at ht
      have hbegun : PumpOk (if answer.effect then { p with thread := .entering } else p) := by
        split
        · exact ⟨fun hidle => absurd (hstate.symm.trans hidle) (by decide),
            fun hd => absurd (hdone.symm.trans hd) (by decide)⟩
        · exact hok
      split at h
      · split_ifs at h with heffect
        obtain ⟨rfl, rfl⟩ := Prod.mk.inj (Option.some.inj h)
        rw [if_pos heffect] at hbegun
        refine ⟨hvalid.withPump hp hbegun, rfl, ?_, later_withPump hknows.2⟩
        intro q hq
        rw [getElem?_withPump hp hq]
        exact hstate
      · obtain ⟨rfl, rfl⟩ := Prod.mk.inj (Option.some.inj h)
        exact ⟨hvalid.withPump hp hbegun, rfl, fun hf => nomatch hf⟩
      · obtain ⟨rfl, rfl⟩ := Prod.mk.inj (Option.some.inj h)
        exact ⟨hvalid.withPump hp hbegun, rfl, trivial⟩
    next => exact nomatch h
  case started i =>
    split at h
    next p hp =>
      obtain ⟨rfl, rfl⟩ := Prod.mk.inj (Option.some.inj h)
      have hok := hvalid.pumps p (List.mem_of_getElem? hp)
      refine ⟨hvalid.withPump hp ⟨fun hf => (nomatch hf), hok.done⟩, rfl, ?_⟩
      split_ifs with hi
      · subst hi
        exact fun j q hj hq => later_withPump hknows.2 j q (by omega) hq
      · trivial
    next => exact nomatch h
  case timing =>
    obtain ⟨rfl, rfl⟩ := Prod.mk.inj (Option.some.inj h)
    exact ⟨⟨hvalid.pumps, hvalid.idle⟩, rfl, rfl⟩
  case checking deadline =>
    split_ifs at h
    · obtain ⟨rfl, rfl⟩ := Prod.mk.inj (Option.some.inj h)
      exact ⟨hvalid, rfl, fun hf => nomatch hf⟩
    · obtain ⟨rfl, rfl⟩ := Prod.mk.inj (Option.some.inj h)
      exact ⟨hvalid, rfl, hknows⟩
  case waiting deadline =>
    split at h
    · split_ifs at h with heffect hexited
      · obtain ⟨rfl, rfl⟩ := Prod.mk.inj (Option.some.inj h)
        refine ⟨hvalid, rfl, fun _ => ⟨?_, ?_⟩⟩
        · rw [hknows]
          rfl
        · cases hp : res.process with
          | none => simp [hp] at hexited
          | some p => simpa [exitOf, hp, Process.exited] using hexited
      · obtain ⟨rfl, rfl⟩ := Prod.mk.inj (Option.some.inj h)
        exact ⟨hvalid, rfl, hknows⟩
    · obtain ⟨rfl, rfl⟩ := Prod.mk.inj (Option.some.inj h)
      exact ⟨hvalid, rfl, fun hf => nomatch hf⟩
    · obtain ⟨rfl, rfl⟩ := Prod.mk.inj (Option.some.inj h)
      exact ⟨hvalid, rfl, trivial⟩

end MaskGateway.Proofs.Datasource.Child
