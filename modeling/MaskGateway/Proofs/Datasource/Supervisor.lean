import MaskGateway.Proofs.Datasource.Ledger

/-!
# `MaskGateway.Proofs.Datasource.Supervisor`: every run of the ledger

`Change` is what one event can do, and `change_of_step` says that it does nothing else. Each
invariant takes it by cases: `Inv` (claims and slots), `Shut` (a supervisor that is being closed
refuses) and `OnTime` (a child that a verification goes by has ended in time). The last one needs
that no child ends late while its verification is in `process.wait`: `run` does not look at the clock
when `wait` returns.
-/

set_option autoImplicit false

namespace MaskGateway.Proofs.Datasource.Ledger

open Lib MaskGateway.Datasource.Verify
open MaskGateway.Proofs.Datasource.Child

/-! ### What one event does -/

/-- The supervisor that a collection belongs to, when it is that of `close`. -/
def closes : Next → Option SupervisorId
  | .closing supervisor => some supervisor
  | _ => none

/-- The supervisor that a call is closing. -/
def shuts : Pc → Option SupervisorId
  | .collecting frame | .pending frame => closes frame.next
  | .reaping (.scan frame) _ _ _ | .settling (.scan frame) _ _ _ => closes frame.next
  | .confirming supervisor => some supervisor
  | _ => none

/-- What one event can do. -/
inductive Change (accepts : List UInt8 → Bool) (m : Machine) :
    Datasource.Verify.Event → Machine → Prop where
  /-- a call that holds nothing goes on with nothing in its hands -/
  | goto (e : Datasource.Verify.Event) (c : CallId) (pc : Pc) (hfrom : holds (m.calls c) = none)
      (hto : mentions pc = none) (hshuts : ∀ s, shuts pc = some s → shuts (m.calls c) = some s) :
      Change accepts m e (m.goto c pc)
  | refuse (e : Datasource.Verify.Event) (c : CallId) (s : SupervisorId) (pc : Pc)
      (hfrom : holds (m.calls c) = none)
      (hto : mentions pc = none) (hshuts : ∀ s', shuts pc = some s' → s' = s) :
      Change accepts m e ((m.refuse s).goto c pc)
  | claim (c : CallId) (answer : Answer) (frame : Frame) (r : RecordId)
      (hfrom : m.calls c = .collecting frame) (hmem : r ∈ m.records)
      (hflight : (m.record r).inFlight = false) (hfree : (m.record r).claimer = none) :
      Change accepts m (.step c answer)
        ((m.setRecord r { m.record r with claimer := some ⟨c, false⟩ }).goto c
          (.reaping (.scan { frame with visited := r :: frame.visited }) r frame.deadline .checking))
  | spawn (c : CallId) (r : RecordId) (timeout : Nat) (adopted : Option (Option Process))
      (ending : Ending) (res : Resources) (out : Out RunPc)
      (hfrom : m.calls c = .running r timeout .spawning)
      (h : (m.resources r).spawnStep adopted ending = some (res, out)) :
      Change accepts m (.spawn c adopted ending)
        ((m.setResources r res).goto c (m.afterRun r timeout out))
  | run (c : CallId) (r : RecordId) (timeout : Nat) (pc : RunPc) (answer : Answer)
      (res : Resources) (out : Out RunPc) (hfrom : m.calls c = .running r timeout pc)
      (h : (m.resources r).runStep m.now timeout pc answer = some (res, out)) :
      Change accepts m (.step c answer)
        ((m.setResources r res).goto c (m.afterRun r timeout out))
  | reap (c : CallId) (holding : Holding) (r : RecordId) (deadline : Nat) (pc : ReapPc)
      (answer : Answer) (res : Resources) (out : Out ReapPc)
      (hfrom : m.calls c = .reaping holding r deadline pc)
      (h : (m.resources r).reapStep m.now deadline pc answer = some (res, out)) :
      Change accepts m (.step c answer)
        ((m.setResources r res).goto c (Machine.afterReap holding r deadline out))
  | settle (c : CallId) (answer : Answer) (holding : Holding) (r : RecordId)
      (reaped raised : Bool) (hfrom : m.calls c = .settling holding r reaped raised) :
      Change accepts m (.step c answer) ((m.settle r ⟨c, holding.isOwn⟩ reaped).goto c
        (Machine.afterSettle holding r reaped raised))
  | judge (c : CallId) (answer : Answer) (r : RecordId) (completed : Bool)
      (hfrom : m.calls c = .judging r completed) :
      Change accepts m (.step c answer) (m.goto c (.finished
        (if Machine.judge accepts (m.resources r) completed then .verified r else .raised)))
  | enter (c : CallId) (answer : Answer) (s : SupervisorId) (timeout : Nat)
      (hfrom : m.calls c = .entering s timeout) :
      Change accepts m (.step c answer) (m.enter c s timeout)
  | confirm (c : CallId) (answer : Answer) (s : SupervisorId) (remaining : Bool) (result : Result)
      (hfrom : m.calls c = .confirming s)
      (hremaining : (m.records.any fun r => decide ((m.record r).owner = s)) = remaining)
      (hresult : mentions (.finished result) = none) :
      Change accepts m (.step c answer)
        ({ m with closed := Function.update m.closed s (!remaining) }.goto c (.finished result))
  | pump (r : RecordId) (i : Nat) (move : PumpMove) (res : Resources)
      (h : (m.resources r).pumpMove i move = some res) :
      Change accepts m (.pump r i move) (m.setResources r res)
  | exits (r : RecordId) (code : Int) (res : Resources)
      (h : (m.resources r).exits code m.now = some res) :
      Change accepts m (.exits r code) (m.setResources r res)
  | tick : Change accepts m .tick { m with now := m.now + 1 }

section
variable {accepts : List UInt8 → Bool} {m m' : Machine} {e : Datasource.Verify.Event}

/-- A call begins. -/
theorem change_of_start {c : CallId} {job : Job} (h : m.start c job = some m') :
    Change accepts m (.start c job) m' := by
  cases hpc : m.calls c with
  | idle =>
      have hfrom : holds (m.calls c) = none := by rw [hpc]; rfl
      cases job with
      | verify s payload timeout =>
          simp only [Machine.start, hpc] at h
          obtain rfl := Option.some.inj h
          split
          · exact .goto _ c _ hfrom rfl (fun _ hs => nomatch hs)
          · exact .goto _ c _ hfrom rfl (fun _ hs => nomatch hs)
      | collect deadline =>
          simp only [Machine.start, hpc] at h
          obtain rfl := Option.some.inj h
          exact .goto _ c _ hfrom rfl (fun _ hs => nomatch hs)
      | collectUntil deadline =>
          simp only [Machine.start, hpc] at h
          obtain rfl := Option.some.inj h
          exact .goto _ c _ hfrom rfl (fun _ hs => nomatch hs)
      | beginShutdown s =>
          simp only [Machine.start, hpc] at h
          obtain rfl := Option.some.inj h
          exact .refuse _ c _ _ hfrom rfl (fun _ hs => nomatch hs)
      | close s =>
          simp only [Machine.start, hpc] at h
          obtain rfl := Option.some.inj h
          exact .goto _ c _ hfrom rfl (fun _ hs => nomatch hs)
  | _ => simp [Machine.start, hpc] at h

/-- A collection claims a record that is free, or is at its end. -/
theorem change_of_collectStep {c : CallId} {frame : Frame} {answer : Answer}
    (hfrom : m.calls c = .collecting frame) :
    Change accepts m (.step c answer) (m.collectStep c frame) := by
  have hend : Change accepts m (.step c answer) (m.goto c (.pending frame)) :=
    .goto _ c _ (by rw [hfrom]; rfl) rfl (fun s hs => by rw [hfrom]; exact hs)
  rw [Machine.collectStep]
  split
  · exact hend
  · split
    next => exact hend
    next r hfind =>
      have htakes := List.find?_some hfind
      simp only [Machine.takes, Bool.and_eq_true, Bool.not_eq_true', Option.isNone_iff_eq_none]
        at htakes
      exact .claim c answer frame r hfrom (List.mem_of_find?_eq_some hfind) htakes.1.1.1 htakes.1.1.2

/-- One step of a call. -/
theorem change_of_callStep {c : CallId} {answer : Answer}
    (h : m.callStep accepts c answer = some m') : Change accepts m (.step c answer) m' := by
  cases hpc : m.calls c with
  | idle => simp [Machine.callStep, hpc] at h
  | finished result => simp [Machine.callStep, hpc] at h
  | admitting s timeout =>
      simp only [Machine.callStep, hpc] at h
      obtain rfl := Option.some.inj h
      have hfrom : holds (m.calls c) = none := by rw [hpc]; rfl
      split
      · exact .goto _ c _ hfrom rfl (fun _ hs => nomatch hs)
      · exact .goto _ c _ hfrom rfl (fun _ hs => nomatch hs)
  | listing deadline =>
      simp only [Machine.callStep, hpc] at h
      obtain rfl := Option.some.inj h
      exact .goto _ c _ (by rw [hpc]; rfl) rfl (fun _ hs => nomatch hs)
  | collecting frame =>
      simp only [Machine.callStep, hpc] at h
      obtain rfl := Option.some.inj h
      exact change_of_collectStep hpc
  | reaping holding r deadline pc =>
      simp only [Machine.callStep, hpc] at h
      obtain ⟨⟨res, out⟩, hreap, rfl⟩ := Option.map_eq_some_iff.mp h
      exact .reap c holding r deadline pc answer res out hpc hreap
  | settling holding r reaped raised =>
      simp only [Machine.callStep, hpc] at h
      obtain rfl := Option.some.inj h
      exact .settle c answer holding r reaped raised hpc
  | pending frame =>
      simp only [Machine.callStep, hpc] at h
      have hfrom : holds (m.calls c) = none := by rw [hpc]; rfl
      split at h
      next =>
        obtain rfl := Option.some.inj h
        exact .goto _ c _ hfrom rfl (fun _ hs => nomatch hs)
      next =>
        obtain rfl := Option.some.inj h
        exact .goto _ c _ hfrom rfl (fun _ hs => nomatch hs)
      next s hnext =>
        obtain rfl := Option.some.inj h
        refine .goto _ c _ hfrom rfl fun s' hs => ?_
        rw [hpc]
        show closes frame.next = some s'
        rw [hnext]
        exact hs
  | entering s timeout =>
      simp only [Machine.callStep, hpc] at h
      obtain rfl := Option.some.inj h
      exact .enter c answer s timeout hpc
  | running r timeout pc =>
      simp only [Machine.callStep, hpc] at h
      obtain ⟨⟨res, out⟩, hrun, rfl⟩ := Option.map_eq_some_iff.mp h
      exact .run c r timeout pc answer res out hpc hrun
  | judging r completed =>
      simp only [Machine.callStep, hpc] at h
      obtain rfl := Option.some.inj h
      exact .judge c answer r completed hpc
  | closing s =>
      simp only [Machine.callStep, hpc] at h
      have hfrom : holds (m.calls c) = none := by rw [hpc]; rfl
      split_ifs at h
      · obtain rfl := Option.some.inj h
        exact .goto _ c _ hfrom rfl (fun _ hs => nomatch hs)
      · obtain rfl := Option.some.inj h
        exact .refuse _ c s _ hfrom rfl (fun s' hs => (Option.some.inj hs).symm)
  | confirming s =>
      simp only [Machine.callStep, hpc] at h
      obtain rfl := Option.some.inj h
      refine .confirm c answer s _ _ hpc rfl ?_
      split <;> rfl

/-- Every event is one of these changes. -/
theorem change_of_step {e : Datasource.Verify.Event} (h : Machine.step accepts m e = some m') :
    Change accepts m e m' := by
  cases e with
  | start c job => exact change_of_start h
  | step c answer => exact change_of_callStep h
  | spawn c adopted ending =>
      simp only [Machine.step, Machine.spawnStep] at h
      split at h
      next r timeout hpc =>
        obtain ⟨⟨res, out⟩, hspawn, rfl⟩ := Option.map_eq_some_iff.mp h
        exact .spawn c r timeout adopted ending res out hpc hspawn
      next => exact nomatch h
  | pump r i move =>
      obtain ⟨res, hmove, rfl⟩ := Option.map_eq_some_iff.mp h
      exact .pump r i move res hmove
  | exits r code =>
      obtain ⟨res, hexits, rfl⟩ := Option.map_eq_some_iff.mp h
      exact .exits r code res hexits
  | tick =>
      obtain rfl := Option.some.inj h
      exact .tick

end

/-! ### Claims and slots -/

/-- A call that mentions no record holds none. -/
theorem holds_of_mentions {pc : Pc} (h : mentions pc = none) : holds pc = none := by
  cases pc <;> first | rfl | exact nomatch h

/-- A call that mentions no record knows nothing. -/
theorem pcKnows_of_mentions {accepts : List UInt8 → Bool} {resources : RecordId → Resources}
    {released : List RecordId} {pc : Pc} (h : mentions pc = none) :
    PcKnows accepts resources released pc := by
  cases pc with
  | finished result => cases result <;> trivial
  | _ => trivial

/-- `run` spawns once. -/
theorem spawned {res res' : Resources} {now timeout : Nat} {pc pc' : RunPc} {answer : Answer}
    (h : res.runStep now timeout pc answer = some (res', .next pc')) : pc' ≠ .spawning := by
  rintro rfl
  have hother : ∀ {out : Out RunPc}, some (res, out) = some (res', .next .spawning) →
      out = .next .spawning := fun heq => (Prod.mk.inj (Option.some.inj heq)).2
  cases pc <;> simp only [Resources.runStep] at h
  case spawning => cases h
  case starting i =>
    split at h
    · cases (Prod.mk.inj (Option.some.inj h)).2
    · cases h
  case launching i =>
    split at h
    · split at h
      · split_ifs at h
        cases (Prod.mk.inj (Option.some.inj h)).2
      · cases (Prod.mk.inj (Option.some.inj h)).2
      · cases (Prod.mk.inj (Option.some.inj h)).2
    · cases h
  case started i =>
    split at h
    · split_ifs at h <;> cases (Prod.mk.inj (Option.some.inj h)).2
    · cases h
  case timing => cases (Prod.mk.inj (Option.some.inj h)).2
  case checking deadline => split_ifs at h <;> cases hother h
  case waiting deadline =>
    split at h
    · split_ifs at h <;> cases hother h
    · cases hother h
    · cases hother h

/-- The verification goes on with the record in its hands. -/
theorem holds_afterRun (m : Machine) (r : RecordId) (timeout : Nat) (out : Out RunPc) :
    holds (m.afterRun r timeout out) = some (r, true) := by
  cases out <;> rfl

/-- What reaps goes on with the record in its hands. -/
theorem holds_afterReap (holding : Holding) (r : RecordId) (deadline : Nat) (out : Out ReapPc) :
    holds (Machine.afterReap holding r deadline out) = some (r, holding.isOwn) := by
  cases out <;> rfl

/-- The constructor returns to the first pump. -/
theorem spawnStep_next {res res' : Resources} {adopted : Option (Option Process)} {ending : Ending}
    {pc : RunPc} (h : res.spawnStep adopted ending = some (res', .next pc)) : pc = .starting 0 := by
  rcases adopted with _ | (_ | p) <;> cases ending <;> simp only [Resources.spawnStep] at h
  case some.some.returned =>
    split_ifs at h
    · cases (Prod.mk.inj (Option.some.inj h)).2
    · exact (Out.next.inj (Prod.mk.inj (Option.some.inj h)).2).symm
  all_goals first | cases (Prod.mk.inj (Option.some.inj h)).2 | cases h

section
variable {accepts : List UInt8 → Bool} {capacity : Nat} {m m' : Machine}
  {e : Datasource.Verify.Event}

/-- What a step of `run` leads to is known. -/
theorem pcKnows_afterRun {r : RecordId} {timeout : Nat} {res : Resources} {out : Out RunPc}
    (hruns : Runs res out) (hspawned : ∀ pc, out = .next pc → pc ≠ .spawning)
    {resources : RecordId → Resources} (hres : resources r = res) :
    PcKnows accepts resources m.released (m.afterRun r timeout out) := by
  subst hres
  cases out with
  | next pc => exact ⟨hruns, fun hpc => absurd hpc (hspawned pc rfl)⟩
  | done completed => exact ⟨trivial, hruns⟩
  | raised => exact ⟨trivial, fun hf => nomatch hf⟩

/-- What a step of `reap` leads to is known. -/
theorem pcKnows_afterReap {holding : Holding} {r : RecordId} {deadline : Nat} {res : Resources}
    {out : Out ReapPc} (hreaps : Reaps res out) (hran : Ran res holding)
    {resources : RecordId → Resources} (hres : resources r = res) :
    PcKnows accepts resources m.released (Machine.afterReap holding r deadline out) := by
  subst hres
  cases out with
  | next pc => exact ⟨hreaps, hran⟩
  | done reaped => exact ⟨hreaps, hran⟩
  | raised => exact ⟨fun hf => (nomatch hf), hran⟩

/-- Where a call goes on after it has settled a record, it knows that it is released. -/
theorem pcKnows_afterSettle {holding : Holding} {r : RecordId} {reaped raised : Bool}
    (hran : Ran (m.resources r) holding) {released : List RecordId}
    (hreleased : reaped = true → r ∈ released) :
    PcKnows accepts m.resources released (Machine.afterSettle holding r reaped raised) := by
  cases holding with
  | scan frame => cases raised <;> trivial
  | own completed interrupted =>
      show PcKnows accepts m.resources released (if _ then _ else _)
      split_ifs with hfailed
      · trivial
      · rw [not_or, not_or, Bool.not_eq_false] at hfailed
        exact ⟨hreleased hfailed.2.2, hran⟩

/-- A call that has settled a record holds none. -/
theorem holds_afterSettle (holding : Holding) (r : RecordId) (reaped raised : Bool) :
    holds (Machine.afterSettle holding r reaped raised) = none := by
  cases holding with
  | scan frame => cases raised <;> rfl
  | own completed interrupted =>
      show holds (if _ then _ else _) = none
      split <;> rfl

/-- What `_run` and `verify` go by. -/
theorem approved_of_judge {res : Resources} {completed : Bool}
    (hcompleted : completed = true → Completed res)
    (h : Machine.judge accepts res completed = true) : Approved accepts res := by
  simp only [Machine.judge, Bool.and_eq_true, Bool.not_eq_true'] at h
  obtain ⟨⟨⟨⟨hdone, hbig⟩, herror⟩, hcode⟩, houtput⟩ := h
  refine ⟨hcompleted hdone, ?_, hbig, herror, ?_⟩
  · cases hp : res.process with
    | none => simp [hp] at hcode
    | some p =>
        cases hexit : p.exit with
        | none => simp [hp, hexit] at hcode
        | some exit =>
            simp only [hp, Option.any_some, hexit, Option.map_some, beq_iff_eq,
              Option.some.injEq] at hcode
            refine ⟨exit.2, ?_⟩
            simp [exitOf, hp, hexit, ← hcode]
  · cases hdata : res.sink.data with
    | none => simp [hdata] at houtput
    | some data => exact ⟨data, rfl, by simpa [hdata] using houtput⟩

/-- A supervisor that is being closed refuses. -/
def Shut (m : Machine) : Prop := ∀ c s, shuts (m.calls c) = some s → m.closing s = true

/-- Every change keeps the invariant. -/
theorem inv_of_change (hinv : Inv accepts capacity m) (hshut : Shut m)
    (h : Change accepts m e m') : Inv accepts capacity m' := by
  cases h with
  | goto e c pc hfrom hto _ =>
      exact hinv.goto hfrom (holds_of_mentions hto) (pcKnows_of_mentions hto)
  | refuse e c s pc hfrom hto _ =>
      exact (hinv.refuse s).goto hfrom (holds_of_mentions hto) (pcKnows_of_mentions hto)
  | claim c answer frame r hfrom hmem hflight hfree =>
      exact inv_claim hinv (by rw [hfrom]; rfl) hmem hflight hfree
  | spawn c r timeout adopted ending res out hfrom h =>
      have hknows := hinv.knows c
      rw [hfrom] at hknows
      have hexit : exitOf (m.resources r) = none := by rw [exitOf, hknows.2 rfl]; rfl
      obtain ⟨hvalid, -, hruns⟩ := spawnStep_spec (hinv.valid r) hexit h
      refine hinv.act (by rw [hfrom]; rfl) (holds_afterRun m r timeout out) hvalid
        fun resources hres => pcKnows_afterRun hruns ?_ hres
      rintro pc rfl rfl
      cases spawnStep_next h
  | run c r timeout pc answer res out hfrom h =>
      have hknows := hinv.knows c
      rw [hfrom] at hknows
      obtain ⟨hvalid, -, hruns⟩ := runStep_spec (hinv.valid r) hknows.1 h
      refine hinv.act (by rw [hfrom]; rfl) (holds_afterRun m r timeout out) hvalid
        fun resources hres => pcKnows_afterRun hruns ?_ hres
      rintro pc' rfl
      exact spawned h
  | reap c holding r deadline pc answer res out hfrom h =>
      have hknows := hinv.knows c
      rw [hfrom] at hknows
      obtain ⟨hquiet, hreaps⟩ := reapStep_spec (hinv.valid r) hknows.1 h
      refine hinv.act (by rw [hfrom]; rfl) (holds_afterReap holding r deadline out) hquiet.valid
        fun resources hres => pcKnows_afterReap hreaps ?_ hres
      cases holding with
      | scan frame => trivial
      | own completed interrupted =>
          intro hdone
          obtain ⟨hdeadline, hended⟩ := hknows.2 hdone
          exact ⟨hquiet.moves.deadline ▸ hdeadline, hquiet.moves.exit ▸ hended⟩
  | settle c answer holding r reaped raised hfrom =>
      have hknows := hinv.knows c
      rw [hfrom] at hknows
      exact inv_settle hinv (by rw [hfrom]; rfl) hknows.1 (holds_afterSettle ..)
        fun released _ hreleased => pcKnows_afterSettle hknows.2 hreleased
  | judge c answer r completed hfrom =>
      have hknows := hinv.knows c
      rw [hfrom] at hknows
      refine hinv.goto (by rw [hfrom]; rfl) rfl ?_
      split
      next hjudge => exact ⟨hknows.1, approved_of_judge hknows.2 hjudge⟩
      next => trivial
  | enter c answer s timeout hfrom => exact inv_enter hinv (by rw [hfrom]; rfl)
  | confirm c answer s remaining result hfrom hremaining hresult =>
      have hclosing : m.closing s = true := hshut c s (by rw [hfrom]; rfl)
      refine (inv_confirm hinv hremaining hclosing).goto ?_ rfl (pcKnows_of_mentions hresult)
      show holds (m.calls c) = none
      rw [hfrom]
      rfl
  | pump r i move res h => exact inv_pump hinv h
  | exits r code res h => exact inv_exits hinv h
  | tick => exact { hinv with }

/-! ### A supervisor that is being closed -/

/-- A call goes on, and a supervisor that it closes refuses. -/
theorem Shut.goto (h : Shut m) {c : CallId} {pc : Pc}
    (hshuts : ∀ s, shuts pc = some s → m.closing s = true) : Shut (m.goto c pc) := by
  intro c' s hs
  change shuts (Function.update m.calls c pc c') = some s at hs
  by_cases hc : c' = c
  · subst hc
    rw [Function.update_self] at hs
    exact hshuts s hs
  · rw [Function.update_of_ne hc] at hs
    exact h c' s hs

/-- A supervisor refuses from now on. -/
theorem Shut.refuse (h : Shut m) (s : SupervisorId) : Shut (m.refuse s) := by
  intro c s' hs
  show Function.update m.closing s true s' = true
  by_cases hs' : s' = s
  · subst hs'
    exact Function.update_self ..
  · rw [Function.update_of_ne hs']
    exact h c s' hs

/-- A settled record changes nothing about the supervisors and the calls. -/
theorem settle_same (m : Machine) (r : RecordId) (token : Token) (reaped : Bool) :
    (m.settle r token reaped).closing = m.closing ∧ (m.settle r token reaped).calls = m.calls ∧
      (m.settle r token reaped).closed = m.closed ∧
      (m.settle r token reaped).resources = m.resources ∧
      (m.settle r token reaped).now = m.now := by
  rw [Machine.settle]
  split
  · exact ⟨rfl, rfl, rfl, rfl, rfl⟩
  · dsimp only
    split <;> exact ⟨rfl, rfl, rfl, rfl, rfl⟩

/-- Every change keeps it. -/
theorem shut_of_change (hshut : Shut m) (h : Change accepts m e m') : Shut m' := by
  cases h with
  | goto e c pc _ _ hshuts => exact hshut.goto fun s hs => hshut c s (hshuts s hs)
  | refuse e c s pc _ _ hshuts =>
      refine (hshut.refuse s).goto fun s' hs => ?_
      rw [hshuts s' hs]
      exact Function.update_self ..
  | claim c answer frame r hfrom _ _ _ =>
      refine Shut.goto (m := m.setRecord r _) hshut fun s hs => hshut c s ?_
      rw [hfrom]
      exact hs
  | spawn c r timeout adopted ending res out hfrom _ =>
      refine Shut.goto (m := m.setResources r res) hshut fun s hs => ?_
      cases out <;> cases hs
  | run c r timeout pc answer res out hfrom _ =>
      refine Shut.goto (m := m.setResources r res) hshut fun s hs => ?_
      cases out <;> cases hs
  | reap c holding r deadline pc answer res out hfrom _ =>
      refine Shut.goto (m := m.setResources r res) hshut fun s hs => hshut c s ?_
      rw [hfrom]
      cases out <;> cases holding <;> exact hs
  | settle c answer holding r reaped raised hfrom =>
      obtain ⟨hclosing, hcalls, -⟩ := settle_same m r ⟨c, holding.isOwn⟩ reaped
      have hshut' : Shut (m.settle r ⟨c, holding.isOwn⟩ reaped) := by
        intro c' s hs
        rw [hcalls] at hs
        rw [hclosing]
        exact hshut c' s hs
      refine hshut'.goto fun s hs => ?_
      rw [hclosing]
      refine hshut c s ?_
      rw [hfrom]
      cases holding with
      | scan frame =>
          cases raised with
          | true => cases hs
          | false => exact hs
      | own completed interrupted =>
          change shuts (if _ then _ else _) = some s at hs
          split at hs <;> cases hs
  | judge c answer r completed hfrom =>
      exact hshut.goto fun s hs => by cases hs
  | enter c answer s timeout hfrom =>
      rw [Machine.enter]
      split
      · exact hshut.goto fun s' hs => by cases hs
      · intro c' s' hs
        change shuts (Function.update m.calls c _ c') = some s' at hs
        by_cases hc : c' = c
        · subst hc
          rw [Function.update_self] at hs
          cases hs
        · rw [Function.update_of_ne hc] at hs
          exact hshut c' s' hs
  | confirm c answer s remaining result hfrom _ _ =>
      exact Shut.goto (m := { m with closed := _ }) hshut fun s' hs => by cases hs
  | pump r i move res h => exact hshut
  | exits r code res h => exact hshut
  | tick => exact hshut

/-! ### Children that have ended in time -/

/-- The record whose child a call takes to have ended in time. -/
def trusts : Pc → Option RecordId
  | .reaping (.own completed _) r _ _ | .settling (.own completed _) r _ _ | .judging r completed =>
      if completed then some r else none
  | .running r _ pc => match pc with
    | .waiting _ => some r
    | _ => none
  | .finished (.verified r) => some r
  | _ => none

/-- What a call goes by is right, and no child has ended in the future. -/
structure OnTime (m : Machine) : Prop where
  past : ∀ r code time, exitOf (m.resources r) = some (code, time) → time ≤ m.now
  timely : ∀ c r, trusts (m.calls c) = some r → Timely (m.resources r)

/-- No child ends after its deadline while its verification is in `process.wait`. -/
def inTime (m : Machine) : Datasource.Verify.Event → Bool
  | .exits r _ => (m.record r).claimer.all fun token =>
      match m.calls token.call with
      | .running _ _ (.waiting deadline) => m.now ≤ deadline
      | _ => true
  | _ => true

/-- A call mentions the record whose child it goes by. -/
theorem mentions_of_trusts {pc : Pc} {r : RecordId} (h : trusts pc = some r) :
    mentions pc = some r := by
  cases pc with
  | reaping holding r' deadline pc =>
      cases holding with
      | scan frame => exact nomatch h
      | own completed interrupted =>
          cases completed with
          | true => exact h
          | false => exact nomatch h
  | settling holding r' reaped raised =>
      cases holding with
      | scan frame => exact nomatch h
      | own completed interrupted =>
          cases completed with
          | true => exact h
          | false => exact nomatch h
  | running r' timeout pc => cases pc <;> first | exact h | exact nomatch h
  | judging r' completed =>
      cases completed with
      | true => exact h
      | false => exact nomatch h
  | finished result => cases result <;> exact h
  | _ => exact nomatch h

/-- A call goes on, and goes by nothing new. -/
theorem OnTime.goto (h : OnTime m) {c : CallId} {pc : Pc}
    (htrusts : ∀ r, trusts pc = some r → Timely (m.resources r)) : OnTime (m.goto c pc) where
  past := h.past
  timely c' r hr := by
    change trusts (Function.update m.calls c pc c') = some r at hr
    by_cases hc : c' = c
    · subst hc
      rw [Function.update_self] at hr
      exact htrusts r hr
    · rw [Function.update_of_ne hc] at hr
      exact h.timely c' r hr

/-- A call does something to the child of the record that it holds. -/
theorem OnTime.act (h : OnTime m) (hinv : Inv accepts capacity m) {c : CallId} {r : RecordId}
    {own : Bool} {res : Resources} {pc : Pc} (hfrom : holds (m.calls c) = some (r, own))
    (hexit : exitOf res = exitOf (m.resources r)) (hto : ∀ r', trusts pc = some r' → r' = r)
    (htimely : trusts pc = some r → Timely res) :
    OnTime ((m.setResources r res).goto c pc) where
  past r' code time hexit' := by
    change exitOf (Function.update m.resources r res r') = _ at hexit'
    by_cases hr : r' = r
    · subst hr
      rw [Function.update_self, hexit] at hexit'
      exact h.past r' code time hexit'
    · rw [Function.update_of_ne hr] at hexit'
      exact h.past r' code time hexit'
  timely c' r' hr' := by
    change trusts (Function.update m.calls c pc c') = some r' at hr'
    show Timely (Function.update m.resources r res r')
    by_cases hc : c' = c
    · subst hc
      rw [Function.update_self] at hr'
      obtain rfl := hto r' hr'
      rw [Function.update_self]
      exact htimely hr'
    · rw [Function.update_of_ne hc] at hr'
      have hne : r' ≠ r := by
        rintro rfl
        exact hc (hinv.alone hfrom (mentions_of_trusts hr'))
      rw [Function.update_of_ne hne]
      exact h.timely c' r' hr'

/-- A child whose exit and deadline are the same ended in time, as before. -/
theorem timely_congr {res res' : Resources} (h : Timely res) (hexit : exitOf res' = exitOf res)
    (hdeadline : res'.deadline = res.deadline) : Timely res' := by
  intro deadline code time hd ht
  exact h deadline code time (hdeadline ▸ hd) (hexit ▸ ht)

/-- What a step of `run` leads to when the end of the child is gone by. -/
def Trusting (out : Out RunPc) : Prop := (∃ deadline, out = .next (.waiting deadline)) ∨ out = .done true

/-- A verification that goes by the end of its child. -/
theorem trusts_afterRun {r r' : RecordId} {timeout : Nat} {out : Out RunPc}
    (h : trusts (m.afterRun r timeout out) = some r') : r' = r ∧ Trusting out := by
  cases out with
  | next pc =>
      cases pc with
      | waiting deadline => exact ⟨(Option.some.inj h).symm, .inl ⟨deadline, rfl⟩⟩
      | _ => exact nomatch h
  | done completed =>
      cases completed with
      | true => exact ⟨(Option.some.inj h).symm, .inr rfl⟩
      | false => exact nomatch h
  | raised => exact nomatch h

/-- `run` enters `process.wait` before its deadline, so a child that has ended has ended in time. -/
theorem timely_runStep {res res' : Resources} {now timeout : Nat} {pc : RunPc} {answer : Answer}
    {out : Out RunPc} (hpast : ∀ code time, exitOf res = some (code, time) → time ≤ now)
    (hknows : RunKnows res pc) (htimely : ∀ deadline, pc = .waiting deadline → Timely res)
    (h : res.runStep now timeout pc answer = some (res', out)) (htrusting : Trusting out) :
    Timely res' := by
  have hnot : ∀ {res₁ : Resources} {out₁ : Out RunPc}, some (res₁, out₁) = some (res', out) →
      ¬ Trusting out₁ → Timely res' := by
    intro res₁ out₁ heq hno
    obtain ⟨-, rfl⟩ := Prod.mk.inj (Option.some.inj heq)
    exact absurd htrusting hno
  cases pc <;> simp only [Resources.runStep] at h
  case spawning => cases h
  case starting i =>
    split at h
    · exact hnot h (by simp [Trusting])
    · cases h
  case launching i =>
    split at h
    · split at h
      · split_ifs at h
        exact hnot h (by simp [Trusting])
      · exact hnot h (by simp [Trusting])
      · exact hnot h (by simp [Trusting])
    · cases h
  case started i =>
    split at h
    · exact hnot h (by split <;> simp [Trusting])
    · cases h
  case timing => exact hnot h (by simp [Trusting])
  case checking deadline =>
    split_ifs at h with hlate
    · exact hnot h (by simp [Trusting])
    · obtain ⟨rfl, -⟩ := Prod.mk.inj (Option.some.inj h)
      rw [not_or] at hlate
      intro deadline' code time hd ht
      obtain rfl := Option.some.inj (hknows.symm.trans hd)
      exact Nat.le_trans (hpast code time ht) (Nat.le_of_lt (Nat.lt_of_not_le hlate.1))
  case waiting deadline =>
    have hsame := htimely deadline rfl
    split at h
    · split_ifs at h
      · obtain ⟨rfl, -⟩ := Prod.mk.inj (Option.some.inj h)
        exact hsame
      · exact hnot h (by simp [Trusting])
    · exact hnot h (by simp [Trusting])
    · exact hnot h (by simp [Trusting])

/-- A child that ends while its verification waits for it ends in time. -/
theorem onTime_exits (htime : OnTime m) (hinv : Inv accepts capacity m) {r : RecordId} {code : Int}
    {res : Resources} (h : (m.resources r).exits code m.now = some res)
    (hintime : inTime m (.exits r code) = true) : OnTime (m.setResources r res) := by
  obtain ⟨p, hp, hnone, rfl⟩ := exits_eq_some h
  have hself : Function.update m.resources r
      ((m.resources r).withProcess { p with exit := some (code, m.now) }) r =
        (m.resources r).withProcess { p with exit := some (code, m.now) } := Function.update_self ..
  have hlives : ¬ Completed (m.resources r) := by
    intro hcompleted
    simpa [exitOf, hp, hnone] using hcompleted.2
  constructor
  · intro r' code' time ht
    change exitOf (Function.update m.resources r _ r') = _ at ht
    by_cases hr : r' = r
    · subst hr
      rw [hself] at ht
      obtain ⟨-, rfl⟩ := Prod.mk.inj (Option.some.inj ht)
      exact Nat.le_refl _
    · rw [Function.update_of_ne hr] at ht
      exact htime.past r' code' time ht
  · intro c r' hr'
    change trusts (m.calls c) = some r' at hr'
    show Timely (Function.update m.resources r _ r')
    by_cases hr : r' = r
    · subst hr
      rw [hself]
      have hknows := hinv.knows c
      cases hpc : m.calls c with
      | running r timeout pc =>
          rw [hpc] at hr' hknows
          cases pc with
          | waiting deadline =>
              obtain rfl := Option.some.inj hr'
              have hclaim := (hinv.hold c r true (by rw [hpc]; rfl)).2.1
              simp only [inTime, hclaim, Option.all_some, hpc, decide_eq_true_eq] at hintime
              intro deadline' code' time hd ht
              obtain rfl := Option.some.inj (hknows.1.symm.trans hd)
              obtain ⟨-, rfl⟩ := Prod.mk.inj (Option.some.inj ht)
              exact hintime
          | _ => cases hr'
      | reaping holding r deadline pc =>
          rw [hpc] at hr' hknows
          rcases holding with _ | ⟨_ | _, _⟩
          · cases hr'
          · cases hr'
          · obtain rfl := Option.some.inj hr'
            exact absurd (hknows.2 rfl) hlives
      | settling holding r reaped raised =>
          rw [hpc] at hr' hknows
          rcases holding with _ | ⟨_ | _, _⟩
          · cases hr'
          · cases hr'
          · obtain rfl := Option.some.inj hr'
            exact absurd (hknows.2 rfl) hlives
      | judging r completed =>
          rw [hpc] at hr' hknows
          cases completed with
          | false => cases hr'
          | true =>
              obtain rfl := Option.some.inj hr'
              exact absurd (hknows.2 rfl) hlives
      | finished result =>
          rw [hpc] at hr' hknows
          cases result with
          | verified r =>
              obtain rfl := Option.some.inj hr'
              exact absurd hknows.2.completed hlives
          | returned => cases hr'
          | raised => cases hr'
      | _ => rw [hpc] at hr'; cases hr'
    · rw [Function.update_of_ne hr]
      exact htime.timely c r' hr'

/-- Every change that meets the condition keeps it. -/
theorem onTime_of_change (htime : OnTime m) (hinv : Inv accepts capacity m)
    (hintime : inTime m e = true) (h : Change accepts m e m') : OnTime m' := by
  cases h with
  | goto e c pc _ hto _ =>
      refine htime.goto fun r hr => ?_
      rw [mentions_of_trusts hr] at hto
      cases hto
  | refuse e c s pc _ hto _ =>
      refine OnTime.goto (m := m.refuse s) ⟨htime.past, htime.timely⟩ fun r hr => ?_
      rw [mentions_of_trusts hr] at hto
      cases hto
  | claim c answer frame r _ _ _ _ =>
      exact OnTime.goto (m := m.setRecord r _) ⟨htime.past, htime.timely⟩ fun _ hr => by cases hr
  | spawn c r timeout adopted ending res out hfrom h =>
      have hknows := hinv.knows c
      rw [hfrom] at hknows
      have hexit : exitOf (m.resources r) = none := by rw [exitOf, hknows.2 rfl]; rfl
      obtain ⟨-, hexit', -⟩ := spawnStep_spec (hinv.valid r) hexit h
      refine htime.act hinv (by rw [hfrom]; rfl) (hexit'.trans hexit.symm)
        (fun r' hr' => (trusts_afterRun hr').1) fun _ => ?_
      intro deadline code time _ ht
      rw [hexit'] at ht
      cases ht
  | run c r timeout pc answer res out hfrom h =>
      have hknows := hinv.knows c
      rw [hfrom] at hknows
      obtain ⟨-, hexit, -⟩ := runStep_spec (hinv.valid r) hknows.1 h
      refine htime.act hinv (by rw [hfrom]; rfl) hexit (fun r' hr' => (trusts_afterRun hr').1)
        fun hr => timely_runStep (htime.past r) hknows.1 ?_ h (trusts_afterRun hr).2
      rintro deadline rfl
      exact htime.timely c r (by rw [hfrom]; rfl)
  | reap c holding r deadline pc answer res out hfrom h =>
      have hknows := hinv.knows c
      rw [hfrom] at hknows
      obtain ⟨hquiet, -⟩ := reapStep_spec (hinv.valid r) hknows.1 h
      have hsame : ∀ r', trusts (Machine.afterReap holding r deadline out) = some r' →
          r' = r ∧ trusts (m.calls c) = some r := by
        intro r' hr'
        rw [hfrom]
        cases holding with
        | scan frame => cases out <;> cases hr'
        | own completed interrupted =>
            cases completed with
            | true => cases out <;> exact ⟨(Option.some.inj hr').symm, rfl⟩
            | false => cases out <;> cases hr'
      refine htime.act hinv (by rw [hfrom]; rfl) hquiet.moves.exit (fun r' hr' => (hsame r' hr').1)
        fun hr => ?_
      exact timely_congr (htime.timely c r (hsame r hr).2) hquiet.moves.exit hquiet.moves.deadline
  | settle c answer holding r reaped raised hfrom =>
      obtain ⟨-, hcalls, -, hresources, hnow⟩ := settle_same m r ⟨c, holding.isOwn⟩ reaped
      refine OnTime.goto ⟨?_, ?_⟩ fun r' hr' => ?_
      · rw [hresources, hnow]
        exact htime.past
      · rw [hresources, hcalls]
        exact htime.timely
      · rw [hresources]
        refine htime.timely c r' ?_
        rw [hfrom]
        cases holding with
        | scan frame => cases raised <;> cases hr'
        | own completed interrupted =>
            change trusts (if _ then _ else _) = some r' at hr'
            split at hr'
            · cases hr'
            · exact hr'
  | judge c answer r completed hfrom =>
      refine htime.goto fun r' hr' => htime.timely c r' ?_
      rw [hfrom]
      split at hr'
      next hjudge =>
        have hcompleted : completed = true := by
          simp only [Machine.judge, Bool.and_eq_true] at hjudge
          exact hjudge.1.1.1.1
        rw [hcompleted]
        exact hr'
      next => cases hr'
  | enter c answer s timeout hfrom =>
      rw [Machine.enter]
      split
      · exact htime.goto fun _ hr => by cases hr
      · have hresources : Function.update m.resources m.count ({} : Resources) = m.resources := by
          rw [← (hinv.fresh m.count (Nat.le_refl _)).1]
          exact Function.update_eq_self ..
        constructor
        · intro r code time ht
          change exitOf (Function.update m.resources m.count {} r) = _ at ht
          rw [hresources] at ht
          exact htime.past r code time ht
        · intro c' r hr
          change trusts (Function.update m.calls c _ c') = some r at hr
          show Timely (Function.update m.resources m.count {} r)
          rw [hresources]
          by_cases hc : c' = c
          · subst hc
            rw [Function.update_self] at hr
            cases hr
          · rw [Function.update_of_ne hc] at hr
            exact htime.timely c' r hr
  | confirm c answer s remaining result _ _ hresult =>
      refine OnTime.goto (m := { m with closed := Function.update m.closed s (!remaining) })
        ⟨htime.past, htime.timely⟩ fun r hr => ?_
      rw [mentions_of_trusts hr] at hresult
      cases hresult
  | pump r i move res h =>
      obtain ⟨-, hmoves, -⟩ := pumpMove_spec (hinv.valid r) h
      constructor
      · intro r' code time ht
        change exitOf (Function.update m.resources r res r') = _ at ht
        by_cases hr : r' = r
        · subst hr
          rw [Function.update_self, hmoves.exit] at ht
          exact htime.past r' code time ht
        · rw [Function.update_of_ne hr] at ht
          exact htime.past r' code time ht
      · intro c r' hr'
        show Timely (Function.update m.resources r res r')
        by_cases hr : r' = r
        · subst hr
          rw [Function.update_self]
          exact timely_congr (htime.timely c r' hr') hmoves.exit hmoves.deadline
        · rw [Function.update_of_ne hr]
          exact htime.timely c r' hr'
  | exits r code res h => exact onTime_exits htime hinv h hintime
  | tick => exact ⟨fun r code time ht => Nat.le_succ_of_le (htime.past r code time ht), htime.timely⟩

end

end MaskGateway.Proofs.Datasource.Ledger
