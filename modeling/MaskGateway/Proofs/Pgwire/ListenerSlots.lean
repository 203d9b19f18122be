import MaskGateway.Lib.Count
import MaskGateway.Proofs.Pgwire.ListenerThreads

/-!
# `MaskGateway.Proofs.Pgwire.ListenerSlots`: records, counters and sockets

`Slots` is the invariant of the connections: the two counters count the records, whoever has a
running thread has a record, and every accepted socket is in the hand of the acceptor, in a record,
or done with. It holds in every run, whatever fails.
-/

set_option autoImplicit false

namespace MaskGateway.Proofs.Pgwire.Listener

open MaskGateway.Lib
open MaskGateway.Pgwire.Listener

variable {m m' : Machine} {e : Event}

/-- The record of a connection that was never registered. -/
structure Blank (c : Connection) : Prop where
  idle : c.owned.state = .idle
  unpromoted : c.authenticated = false

/-- A socket that the acceptor has in its hand, and nobody else. -/
structure InHand (m : Machine) (i : ConnId) : Prop where
  lt : i < m.accepted
  unregistered : i ∉ m.connections
  unclosed : i ∉ m.closes
  blank : Blank (m.record i)

/-- What the acceptor knows in each of its places. -/
def Placed (m : Machine) : AcceptPc → Prop
  | .admitting i | .refusing i | .raised i | .releasing i | .closing i => InHand m i
  | .starting i => i ∈ m.connections
  | .calling i | .confirming i => (m.record i).owned.state ≠ .idle
  | _ => True

/-- `settled` would say so: the start was never tried, or the thread has ended. -/
def Settled (o : Owned) : Prop := o.state = .idle ∨ o.life = .dead

/-- What `_reap` knows of the record that it looks at. -/
def ReapKnows (c : Connection) : ReapPc → Prop
  | .settling | .reading => True
  | .judging settled | .breaking settled | .dropping settled => settled = true → Settled c.owned
  | .closing settled =>
      (settled = true → Settled c.owned) ∧ c.closed = false ∧ c.closeFailed = false

/-- The invariant of `_reap`. -/
structure Reaps (m : Machine) (r : Reap) : Prop where
  registered : ∀ i ∈ r.todo, i ∈ m.connections
  nodup : r.todo.Nodup
  knows : ∀ i todo, r.todo = i :: todo → ReapKnows (m.record i) r.pc

/-- Records, counters and sockets. -/
structure Slots (m : Machine) : Prop where
  connections_lt : ∀ i ∈ m.connections, i < m.accepted
  closes_lt : ∀ i ∈ m.closes, i < m.accepted
  blank : ∀ i, m.accepted ≤ i → Blank (m.record i)
  nodup : m.connections.Nodup
  closes_nodup : m.closes.Nodup
  flags : ∀ i ∈ m.connections, i ∈ m.closes →
    (m.record i).closed = true ∨ (m.record i).closeFailed = true
  registered : ∀ i, (m.record i).owned.state ≠ .idle → (m.record i).owned.life ≠ .dead →
    i ∈ m.connections
  preAuth_eq : (m.preAuth : Int) = m.connections.countP fun i => !(m.record i).authenticated
  auth_eq : (m.auth : Int) = m.connections.countP fun i => (m.record i).authenticated
  preAuth_le : m.preAuth ≤ m.preAuthSlots
  auth_le : m.auth ≤ m.sessionSlots
  placed : Placed m m.accept
  reaps : ∀ r, m.reap = some r → Reaps m r

/-! ### What no step of somebody else touches -/

/-- While somebody is in `_reap`, the acceptor is in it too or outside of its body. -/
theorem reap_excludes (hcalls : Calls m) {r : Reap} (hr : m.reap = some r) :
    m.accept = .outside ∨ m.accept = .reaping true ∨ m.accept = .reaping false := by
  have hplace := hcalls.reaper r hr
  split at hplace
  · exact .inr hplace
  · rename_i k hk
    have hknows := hcalls.stops k
    rw [hplace] at hknows
    have hout : Quiet m.acceptor := hknows
    left
    by_contra hpc
    exact hout.not_inside hcalls.acceptor (hcalls.inside.mpr hpc)

/-- The acceptor walks with what it has in its hand. -/
theorem Walks.placed {pc pc' : AcceptPc} (h : Walks m pc pc') (hplaced : Placed m pc) :
    Placed m pc' := by
  cases h with
  | loops pc h => trivial
  | reaps last => trivial
  | looks => trivial
  | fails => trivial
  | refuses i => exact hplaced
  | raises i pc h => rcases h with rfl | rfl <;> exact hplaced
  | called i pc h =>
      rcases h with rfl | rfl
      · exact hplaced
      · trivial
  | releases i => exact hplaced
  | released i pc h =>
      rcases h with rfl | rfl
      · trivial
      · exact hplaced

/-- It knows nothing but the records and what was accepted and closed. -/
theorem Placed.congr {pc : AcceptPc} (h : Placed m pc) (haccepted : m'.accepted = m.accepted)
    (hconnections : m'.connections = m.connections) (hcloses : m'.closes = m.closes)
    (hrecord : m'.record = m.record) : Placed m' pc := by
  cases pc with
  | admitting i | refusing i | raised i | releasing i | closing i =>
      obtain ⟨hlt, hunregistered, hunclosed, hblank⟩ : InHand m i := h
      exact ⟨haccepted ▸ hlt, hconnections ▸ hunregistered, hcloses ▸ hunclosed,
        hrecord ▸ hblank⟩
  | starting i => exact (hconnections ▸ h : i ∈ m'.connections)
  | calling i | confirming i => exact (hrecord ▸ h : (m'.record i).owned.state ≠ .idle)
  | _ => trivial

/-- What a step does to the list of the records. -/
inductive ListStep (m m' : Machine) : List ConnId → Prop where
  | same : ListStep m m' m.connections
  | admits (i : ConnId) (hpc : m.accept = .admitting i) (hrunning : m.state = .running)
      (hpc' : m'.accept = .starting i) : ListStep m m' (m.connections ++ [i])
  | drops (i : ConnId) (r : Reap) (todo : List ConnId) (hreap : m.reap = some r)
      (htodo : r.todo = i :: todo) (hpc : r.pc = .dropping true)
      (hclosed : (m.record i).closed = true) (hrecord : m'.record = m.record) :
      ListStep m m' (m.connections.erase i)

theorem list_step (h : Moved m e m') : ListStep m m' m'.connections := by
  cases h with
  | admitted event i hpc hrunning => exact .admits i hpc hrunning rfl
  | dropped ok r i todo preAuth auth hreap htodo hpc hclosed =>
      exact .drops i r todo hreap htodo hpc hclosed rfl
  | _ => exact .same

/-- What a step does to the list of the closed sockets. -/
inductive CloseStep (m m' : Machine) : List ConnId → Prop where
  | same : CloseStep m m' m.closes
  | hand (i : ConnId) (hpc : Closes m.accept i m'.accept)
      (hconnections : m'.connections = m.connections) : CloseStep m m' (m.closes ++ [i])
  | reap (i : ConnId) (r : Reap) (todo : List ConnId) (settled : Bool) (hreap : m.reap = some r)
      (htodo : r.todo = i :: todo) (hpc : r.pc = .closing settled)
      (hconnections : m'.connections = m.connections)
      (hflag : (m'.record i).closed = true ∨ (m'.record i).closeFailed = true) :
      CloseStep m m' (m.closes ++ [i])

theorem close_step (h : Moved m e m') : CloseStep m m' m'.closes := by
  cases h with
  | closes event i pc hpc => exact .hand i hpc rfl
  | reapClosed ok r i todo settled c pc hreap htodo hpc hc =>
      refine .reap i r todo settled hreap htodo hpc rfl ?_
      show (Function.update m.record i c i).closed = true ∨
        (Function.update m.record i c i).closeFailed = true
      rw [Function.update_self]
      rcases hc with rfl | rfl
      · exact .inl rfl
      · exact .inr rfl
  | _ => exact .same

theorem accepted_le (h : Moved m e m') : m.accepted ≤ m'.accepted := by
  cases h with
  | accepted => exact Nat.le_succ _
  | _ => exact Nat.le_refl _

/-- An idle owner is not in its body. -/
theorem not_inside_of_idle {o : Owned} (hsound : Sound o) (hidle : o.state = .idle) :
    o.life ≠ .inside := by
  rw [hsound.unborn hidle]
  decide

/-- A blank record stays blank, unless the acceptor tries its thread. -/
theorem blank_step (hcalls : Calls m) {j : ConnId} {c : Connection} (h : RecordStep m j c)
    (hstarting : m.accept ≠ .starting j) (hconfirming : m.accept ≠ .confirming j)
    (hblank : Blank (m.record j)) : Blank c := by
  cases h with
  | same => exact hblank
  | tries hpc => exact absurd hpc hstarting
  | confirms hpc => exact absurd hpc hconfirming
  | owns o hchanged hstate => exact ⟨hstate.trans hblank.idle, hblank.unpromoted⟩
  | promotes hlife => exact absurd hlife (not_inside_of_idle (hcalls.record j) hblank.idle)
  | closes r todo settled c hreap htodo hpc hc =>
      rcases hc with rfl | rfl <;> exact ⟨hblank.idle, hblank.unpromoted⟩

/-- What was dropped was settled, and so is what is left of it. -/
theorem dropped_settled (hslots : Slots m) {i : ConnId} {r : Reap} {todo : List ConnId} (hreap : m.reap = some r)
    (htodo : r.todo = i :: todo) (hpc : r.pc = .dropping true) :
    i ∈ m.connections ∧ Settled (m.record i).owned := by
  have hreaps := hslots.reaps r hreap
  have hknows := hreaps.knows i todo htodo
  rw [hpc] at hknows
  refine ⟨hreaps.registered i ?_, hknows rfl⟩
  rw [htodo]
  exact List.mem_cons_self

/-- A record is there until it is dropped. -/
theorem mem_of_step (hslots : Slots m) (h : Moved m e m') {j : ConnId} (hj : j ∈ m.connections) :
    j ∈ m'.connections ∨ m'.record = m.record ∧ Settled (m.record j).owned ∧
      (m.record j).closed = true := by
  have hlist := list_step h
  generalize m'.connections = after at hlist ⊢
  cases hlist with
  | same => exact .inl hj
  | admits i => exact .inl (List.mem_append_left _ hj)
  | drops i r todo hreap htodo hpc hclosed hrecord =>
      by_cases hji : j = i
      · subst hji
        exact .inr ⟨hrecord, (dropped_settled hslots hreap htodo hpc).2, hclosed⟩
      · exact .inl ((List.mem_erase_of_ne hji).mpr hj)

theorem connections_lt_moved (hslots : Slots m) (h : Moved m e m') {j : ConnId} (hj : j ∈ m'.connections) :
    j < m'.accepted := by
  refine Nat.lt_of_lt_of_le ?_ (accepted_le h)
  have hlist := list_step h
  generalize m'.connections = after at hlist hj
  cases hlist with
  | same => exact hslots.connections_lt j hj
  | admits i hpc =>
      have hhand : InHand m i := by
        have := hslots.placed
        rwa [hpc] at this
      rcases List.mem_append.mp hj with hj | hj
      · exact hslots.connections_lt j hj
      · rw [List.mem_singleton.mp hj]
        exact hhand.lt
  | drops i => exact hslots.connections_lt j (List.mem_of_mem_erase hj)

theorem nodup_moved (hslots : Slots m) (h : Moved m e m') : m'.connections.Nodup := by
  have hlist := list_step h
  generalize m'.connections = after at hlist
  cases hlist with
  | same => exact hslots.nodup
  | admits i hpc =>
      have hhand : InHand m i := by
        have := hslots.placed
        rwa [hpc] at this
      exact List.nodup_append.mpr ⟨hslots.nodup, List.nodup_singleton i, by
        intro a ha b hb hab
        rw [List.mem_singleton.mp hb] at hab
        exact hhand.unregistered (hab ▸ ha)⟩
  | drops i => exact hslots.nodup.erase i

/-- A socket that is closed was not closed before. -/
theorem fresh_close (hslots : Slots m) (h : Moved m e m') :
    m'.closes = m.closes ∨ ∃ i, m'.closes = m.closes ++ [i] ∧ i ∉ m.closes ∧ i < m.accepted ∧
      (i ∈ m'.connections → (m'.record i).closed = true ∨ (m'.record i).closeFailed = true) := by
  have hclose := close_step h
  generalize m'.closes = after at hclose
  cases hclose with
  | same => exact .inl rfl
  | hand i hpc hconnections =>
      have hhand : InHand m i := by
        have hplaced := hslots.placed
        generalize m.accept = before at hpc hplaced
        cases hpc <;> exact hplaced
      exact .inr ⟨i, rfl, hhand.unclosed, hhand.lt, fun hi =>
        absurd (hconnections ▸ hi) hhand.unregistered⟩
  | reap i r todo settled hreap htodo hpc hconnections hflag =>
      have hreaps := hslots.reaps r hreap
      have hknows := hreaps.knows i todo htodo
      rw [hpc] at hknows
      have hmem : i ∈ m.connections := hreaps.registered i (by rw [htodo]; exact .head _)
      refine .inr ⟨i, rfl, fun hclosed => ?_, hslots.connections_lt i hmem, fun _ => hflag⟩
      rcases hslots.flags i hmem hclosed with hflag | hflag
      · rw [hknows.2.1] at hflag
        cases hflag
      · rw [hknows.2.2] at hflag
        cases hflag

/-! ### What a step keeps -/

/-- A thread that was tried stays tried. -/
theorem Changed.tried {o o' : Owned} (h : Changed o o') (hstate : o.state ≠ .idle) :
    o'.state ≠ .idle := by
  cases h with
  | same => exact hstate
  | step event o' h => rwa [state_of_step h]
  | attempt => exact Ownership.noConfusion
  | confirm => exact Ownership.noConfusion
  | abandon => simpa using hstate
  | cancel => simpa using hstate

theorem Changed.dead {o o' : Owned} (h : Changed o o') (hdead : o.life = .dead) :
    o'.life = .dead := by
  cases h with
  | same => exact hdead
  | step event o' h => cases event <;> simp [Owned.step, hdead] at h
  | attempt => exact hdead
  | confirm => exact hdead
  | abandon => simpa using hdead
  | cancel => simpa using hdead

theorem blank_moved (hcalls : Calls m) (hslots : Slots m) (h : Moved m e m') {j : ConnId}
    (hj : m'.accepted ≤ j) : Blank (m'.record j) := by
  have hle := Nat.le_trans (accepted_le h) hj
  have hblank := hslots.blank j hle
  refine blank_step hcalls (record_step h j) (fun hpc => ?_) (fun hpc => ?_) hblank
  · have hmem : j ∈ m.connections := by
      have := hslots.placed
      rwa [hpc] at this
    exact absurd (hslots.connections_lt j hmem) (Nat.not_lt.mpr hle)
  · have htried : (m.record j).owned.state ≠ .idle := by
      have := hslots.placed
      rwa [hpc] at this
    exact htried hblank.idle

theorem flags_moved (hslots : Slots m) (h : Moved m e m') {j : ConnId} (hj : j ∈ m'.connections)
    (hclosed : j ∈ m'.closes) :
    (m'.record j).closed = true ∨ (m'.record j).closeFailed = true := by
  have hkept : (m.record j).closed = true ∨ (m.record j).closeFailed = true →
      (m'.record j).closed = true ∨ (m'.record j).closeFailed = true := by
    intro hflag
    have hstep := record_step h j
    generalize m'.record j = c at hstep
    cases hstep with
    | closes r todo settled c hreap htodo hpc hc => rcases hc with rfl | rfl <;> simp
    | _ => exact hflag
  have hold : j ∈ m.closes → (m.record j).closed = true ∨ (m.record j).closeFailed = true := by
    intro hmem
    have hlist := list_step h
    generalize m'.connections = after at hlist hj
    cases hlist with
    | same => exact hslots.flags j hj hmem
    | admits i hpc =>
        have hhand : InHand m i := by
          have := hslots.placed
          rwa [hpc] at this
        rcases List.mem_append.mp hj with hj | hj
        · exact hslots.flags j hj hmem
        · exact absurd (List.mem_singleton.mp hj ▸ hmem) hhand.unclosed
    | drops i => exact hslots.flags j (List.mem_of_mem_erase hj) hmem
  rcases fresh_close hslots h with hsame | ⟨i, hcloses, -, -, hflag⟩
  · exact hkept (hold (hsame ▸ hclosed))
  · rw [hcloses] at hclosed
    rcases List.mem_append.mp hclosed with hmem | hmem
    · exact hkept (hold hmem)
    · obtain rfl := List.mem_singleton.mp hmem
      exact hflag hj

theorem registered_moved (hslots : Slots m) (h : Moved m e m') {j : ConnId}
    (hstate : (m'.record j).owned.state ≠ .idle) (hlife : (m'.record j).owned.life ≠ .dead) :
    j ∈ m'.connections := by
  have hstep := record_step h j
  have hlife' : (m.record j).owned.life ≠ .dead := fun hdead => hlife (hstep.changed.dead hdead)
  have hmem : j ∈ m.connections := by
    generalize m'.record j = c at hstep hstate
    cases hstep with
    | tries hpc =>
        have hplaced := hslots.placed
        rwa [hpc] at hplaced
    | confirms hpc =>
        have htried : (m.record j).owned.state ≠ .idle := by
          have := hslots.placed
          rwa [hpc] at this
        exact hslots.registered j htried hlife'
    | closes r todo settled c hreap htodo hpc hc =>
        exact hslots.registered j (by rcases hc with rfl | rfl <;> exact hstate) hlife'
    | owns o hchanged hsame => exact hslots.registered j (hsame ▸ hstate) hlife'
    | _ => exact hslots.registered j hstate hlife'
  rcases mem_of_step hslots h hmem with hin | ⟨hrecord, hsettled, -⟩
  · exact hin
  · rw [hrecord] at hstate
    rcases hsettled with hidle | hdead
    · exact absurd hidle hstate
    · exact absurd hdead hlife'

/-- A record that is as authenticated as before takes the slot that it took. -/
theorem put_authenticated {i : ConnId} {c : Connection}
    (hc : c.authenticated = (m.record i).authenticated) :
    (fun j => ((m.put i c).record j).authenticated) = fun j => (m.record j).authenticated := by
  funext j
  by_cases hj : j = i
  · subst hj
    simpa [Machine.put] using hc
  · simp [Machine.put, Function.update_of_ne hj]

/-- The two counters, as an equation for each of the two kinds of records. -/
def Counted (m : Machine) : Prop :=
  (m.preAuth : Int) = m.connections.countP (fun i => !(m.record i).authenticated) ∧
    (m.auth : Int) = m.connections.countP fun i => (m.record i).authenticated

/-- The counters depend on the records and on who is authenticated. -/
theorem Counted.congr (h : Counted m) (hconnections : m'.connections = m.connections)
    (hauthenticated : (fun i => (m'.record i).authenticated) =
      fun i => (m.record i).authenticated)
    (hpreAuth : m'.preAuth = m.preAuth) (hauth : m'.auth = m.auth) : Counted m' := by
  have hnot : (fun i => !(m'.record i).authenticated) =
      fun i => !(m.record i).authenticated := by
    funext i
    rw [show (m'.record i).authenticated = (m.record i).authenticated from
      congrFun hauthenticated i]
  unfold Counted
  rw [hconnections, hauthenticated, hnot, hpreAuth, hauth]
  exact h

theorem counted_admitted (hcounted : Counted m) {i : ConnId} (hblank : Blank (m.record i))
    (accept : AcceptPc) :
    Counted { m with
      connections := m.connections ++ [i], preAuth := m.preAuth + 1, accept := accept } := by
  obtain ⟨hpreAuth, hauth⟩ := hcounted
  constructor
  · show ((m.preAuth + 1 : Nat) : Int) = ((m.connections ++ [i]).countP _ : Nat)
    rw [countP_concat, ← hpreAuth, hblank.unpromoted]
    simp
  · show (m.auth : Int) = ((m.connections ++ [i]).countP _ : Nat)
    rw [countP_concat, ← hauth, hblank.unpromoted]
    simp

/-- A record goes from one counter to the other. -/
theorem counted_promoted (hcounted : Counted m) (hnodup : m.connections.Nodup) {i : ConnId}
    (hi : i ∈ m.connections) (hfirst : (m.record i).authenticated = false) :
    Counted { m.put i { m.record i with authenticated := true } with
      auth := m.auth + 1, preAuth := m.preAuth - 1 } := by
  obtain ⟨hpreAuth, hauth⟩ := hcounted
  have hafter : (fun j => ((Function.update m.record i
      { m.record i with authenticated := true }) j).authenticated) =
        Function.update (fun j => (m.record j).authenticated) i true := by
    funext j
    by_cases hj : j = i
    · subst hj
      simp
    · simp [Function.update_of_ne hj]
  have hafter' : (fun j => !((Function.update m.record i
      { m.record i with authenticated := true }) j).authenticated) =
        Function.update (fun j => !(m.record j).authenticated) i false := by
    funext j
    by_cases hj : j = i
    · subst hj
      simp
    · simp [Function.update_of_ne hj]
  -- The record is one of those that the first counter counts.
  have hpos : 0 < m.connections.countP fun j => !(m.record j).authenticated :=
    List.countP_pos_iff.mpr ⟨i, hi, by simp [hfirst]⟩
  constructor
  · show ((m.preAuth - 1 : Nat) : Int) = (m.connections.countP fun j =>
      !((Function.update m.record i { m.record i with authenticated := true }) j).authenticated :
        Nat)
    rw [hafter', countP_update _ hnodup hi, ← hpreAuth, hfirst]
    simp only [Bool.not_false, unit_true, unit_false]
    omega
  · show ((m.auth + 1 : Nat) : Int) = (m.connections.countP fun j =>
      ((Function.update m.record i { m.record i with authenticated := true }) j).authenticated :
        Nat)
    rw [hafter, countP_update _ hnodup hi, ← hauth, hfirst]
    simp

/-- A record that is removed gives back the slot that it took. -/
theorem counted_dropped (hcounted : Counted m) {i : ConnId} (hi : i ∈ m.connections)
    {preAuth auth : Nat}
    (hslot : (m.record i).authenticated = true ∧ auth = m.auth - 1 ∧ preAuth = m.preAuth ∨
      (m.record i).authenticated = false ∧ auth = m.auth ∧ preAuth = m.preAuth - 1)
    (reap : Option Reap) :
    Counted { m with
      connections := m.connections.erase i, auth := auth, preAuth := preAuth, reap := reap } := by
  obtain ⟨hpreAuth, hauth⟩ := hcounted
  have herase := countP_erase_of_mem (fun j => (m.record j).authenticated) hi
  have herase' := countP_erase_of_mem (fun j => !(m.record j).authenticated) hi
  unfold Counted
  rcases hslot with ⟨hauthenticated, rfl, rfl⟩ | ⟨hauthenticated, rfl, rfl⟩
  · have hpos : 0 < m.connections.countP fun j => (m.record j).authenticated :=
      List.countP_pos_iff.mpr ⟨i, hi, hauthenticated⟩
    rw [hauthenticated] at herase herase'
    simp only [Bool.not_true, unit_true, unit_false] at herase herase'
    dsimp only
    omega
  · have hpos : 0 < m.connections.countP fun j => !(m.record j).authenticated :=
      List.countP_pos_iff.mpr ⟨i, hi, by simp [hauthenticated]⟩
    rw [hauthenticated] at herase herase'
    simp only [Bool.not_false, unit_true, unit_false] at herase herase'
    dsimp only
    omega

theorem counted_moved (hcalls : Calls m) (hslots : Slots m) (h : Moved m e m') : Counted m' := by
  have hcounted : Counted m := ⟨hslots.preAuth_eq, hslots.auth_eq⟩
  cases h with
  | tries event i => exact hcounted.congr rfl (put_authenticated rfl) rfl rfl
  | tried event i o => exact hcounted.congr rfl (put_authenticated rfl) rfl rfl
  | connection i event o => exact hcounted.congr rfl (put_authenticated rfl) rfl rfl
  | reapSettled ok r i => exact hcounted.congr rfl (put_authenticated rfl) rfl rfl
  | stopCancels k ok i => exact hcounted.congr rfl (put_authenticated rfl) rfl rfl
  | reapClosed ok r i todo settled c pc hreap htodo hpc hc =>
      exact hcounted.congr rfl (put_authenticated (by rcases hc with rfl | rfl <;> rfl)) rfl rfl
  | admitted event i hpc =>
      have hhand : InHand m i := by
        have := hslots.placed
        rwa [hpc] at this
      exact counted_admitted hcounted hhand.blank _
  | promoted i hlife hfirst =>
      have htried : (m.record i).owned.state ≠ .idle := fun hidle =>
        not_inside_of_idle (hcalls.record i) hidle hlife
      have hi := hslots.registered i htried (by rw [hlife]; decide)
      exact counted_promoted hcounted hslots.nodup hi hfirst
  | dropped ok r i todo preAuth auth hreap htodo hpc hclosed hslot =>
      exact counted_dropped hcounted (dropped_settled hslots hreap htodo hpc).1 hslot _
  | _ => exact hcounted.congr rfl rfl rfl rfl

/-- Neither counter goes over its limit. -/
theorem limits_moved (hslots : Slots m) (h : Moved m e m') :
    m'.preAuth ≤ m'.preAuthSlots ∧ m'.auth ≤ m'.sessionSlots := by
  have hpreAuth := hslots.preAuth_le
  have hauth := hslots.auth_le
  cases h with
  | admitted event i hpc hrunning hroom => exact ⟨hroom, hauth⟩
  | promoted i hlife hfirst hroom => exact ⟨Nat.le_trans (Nat.sub_le _ _) hpreAuth, hroom⟩
  | dropped ok r i todo preAuth auth hreap htodo hpc hclosed hslot =>
      rcases hslot with ⟨-, rfl, rfl⟩ | ⟨-, rfl, rfl⟩
      · exact ⟨hpreAuth, Nat.le_trans (Nat.sub_le _ _) hauth⟩
      · exact ⟨Nat.le_trans (Nat.sub_le _ _) hpreAuth, hauth⟩
  | _ => exact ⟨hpreAuth, hauth⟩

/-! ### Places -/

/-- What is in the hand of the acceptor is left alone by everybody else. -/
theorem inHand_kept (hcalls : Calls m) (hslots : Slots m) (h : Moved m e m') {i : ConnId}
    (hhand : InHand m i) (hstarting : m'.accept ≠ .starting i)
    (hdone : ∀ pc, Closes m.accept i pc → m'.accept ≠ pc)
    (hplace : m.accept ≠ .starting i ∧ m.accept ≠ .confirming i) : InHand m' i where
  lt := Nat.lt_of_lt_of_le hhand.lt (accepted_le h)
  unregistered hi := by
    have hlist := list_step h
    generalize m'.connections = after at hlist hi
    cases hlist with
    | same => exact hhand.unregistered hi
    | admits j hpc hrunning hpc' =>
        rcases List.mem_append.mp hi with hi | hi
        · exact hhand.unregistered hi
        · exact hstarting (List.mem_singleton.mp hi ▸ hpc')
    | drops j => exact hhand.unregistered (List.mem_of_mem_erase hi)
  unclosed hi := by
    have hclose := close_step h
    generalize m'.closes = after at hclose hi
    cases hclose with
    | same => exact hhand.unclosed hi
    | hand j hpc =>
        rcases List.mem_append.mp hi with hi | hi
        · exact hhand.unclosed hi
        · obtain rfl := List.mem_singleton.mp hi
          exact hdone _ hpc rfl
    | reap j r todo settled hreap htodo =>
        rcases List.mem_append.mp hi with hi | hi
        · exact hhand.unclosed hi
        · obtain rfl := List.mem_singleton.mp hi
          exact hhand.unregistered ((hslots.reaps r hreap).registered i (by rw [htodo]; exact .head _))
  blank := blank_step hcalls (record_step h i) hplace.1 hplace.2 hhand.blank

/-- What the acceptor knows stays true while others go on. -/
theorem placed_kept (hcalls : Calls m) (hslots : Slots m) (h : Moved m e m')
    (hsame : m'.accept = m.accept) : Placed m' m.accept := by
  have hplaced := hslots.placed
  have hhand : ∀ {i}, InHand m i → m.accept ≠ .starting i → m.accept ≠ .confirming i →
      InHand m' i := by
    intro i hhand hstarting hconfirming
    refine inHand_kept hcalls hslots h hhand (hsame ▸ hstarting) (fun pc hcloses hpc => ?_)
      ⟨hstarting, hconfirming⟩
    rw [← hpc, hsame] at hcloses
    generalize m.accept = before at hcloses
    cases hcloses <;> rename_i hto <;> simp at hto
  cases hpc : m.accept with
  | admitting i | refusing i | raised i | releasing i | closing i =>
      rw [hpc] at hplaced
      exact hhand hplaced (by rw [hpc]; exact AcceptPc.noConfusion)
        (by rw [hpc]; exact AcceptPc.noConfusion)
  | starting i =>
      rw [hpc] at hplaced
      have hmem : i ∈ m.connections := hplaced
      show i ∈ m'.connections
      have hlist := list_step h
      generalize m'.connections = after at hlist ⊢
      cases hlist with
      | same => exact hmem
      | admits j => exact List.mem_append_left _ hmem
      | drops j r todo hreap =>
          have hout := reap_excludes hcalls hreap
          rw [hpc] at hout
          simp at hout
  | calling i | confirming i =>
      rw [hpc] at hplaced
      exact (record_step h i).changed.tried hplaced
  | _ => trivial

theorem placed_moved (hcalls : Calls m) (hslots : Slots m) (h : Moved m e m') :
    Placed m' m'.accept := by
  have hplaced := hslots.placed
  have hkept := placed_kept hcalls hslots h
  cases h with
  | enters o pc ho hlife hpc => rcases hpc with rfl | rfl <;> trivial
  | leaves => trivial
  | walks event state pc hpc =>
      exact (hpc.placed hplaced).congr rfl rfl rfl rfl
  | accepted event hpc =>
      exact ⟨Nat.lt_succ_self _, fun hi => Nat.lt_irrefl _ (hslots.connections_lt _ hi),
        fun hi => Nat.lt_irrefl _ (hslots.closes_lt _ hi), hslots.blank _ (Nat.le_refl _)⟩
  | admitted event i => exact List.mem_append_right _ (List.mem_singleton_self i)
  | tries event i =>
      show ((m.own i (m.record i).owned.attempt).record i).owned.state ≠ .idle
      simp [Machine.own, Machine.put, Owned.attempt]
  | tried event i o pc hpc hpc' => rcases hpc' with rfl | rfl <;> trivial
  | closes event i pc hpc =>
      generalize m.accept = before at hpc
      cases hpc <;> rename_i hto <;> rcases hto with rfl | rfl <;> trivial
  | retains event i refused pc hpc hpc' => rcases hpc' with rfl | rfl <;> trivial
  | reapReturned ok r pc hreap howner hpc => rcases hpc with rfl | rfl <;> trivial
  | _ => exact hkept rfl

/-! ### `_reap` -/

/-- What `_reap` knows of a record stays true while its owner changes. -/
theorem ReapKnows.owned {c : Connection} {o : Owned} {pc : ReapPc} (h : ReapKnows c pc)
    (hchanged : Changed c.owned o) (hstate : o.state = c.owned.state) :
    ReapKnows { c with owned := o } pc := by
  have hsettled : Settled c.owned → Settled o :=
    Or.imp (fun hidle => hstate.trans hidle) hchanged.dead
  cases pc with
  | settling | reading => trivial
  | judging settled | breaking settled | dropping settled => exact fun hs => hsettled (h hs)
  | closing settled => exact ⟨fun hs => hsettled (h.1 hs), h.2⟩

/-- `_reap` goes on with its records while others go on. -/
theorem Reaps.kept {r : Reap} (h : Reaps m r)
    (hconnections : ∀ i ∈ m.connections, i ∈ m'.connections)
    (hrecord : ∀ i, ReapKnows (m.record i) r.pc → ReapKnows (m'.record i) r.pc) :
    Reaps m' r where
  registered i hi := hconnections i (h.registered i hi)
  nodup := h.nodup
  knows i todo htodo := hrecord i (h.knows i todo htodo)

/-- `_reap` goes on with the record that it looks at. -/
theorem Reaps.at {r : Reap} (h : Reaps m r) {i : ConnId} {todo : List ConnId}
    (htodo : r.todo = i :: todo) {pc : ReapPc} (hconnections : m'.connections = m.connections)
    (hknows : ReapKnows (m'.record i) pc) : Reaps m' { r with pc := pc } where
  registered j hj := hconnections ▸ h.registered j hj
  nodup := h.nodup
  knows j rest heq := by
    obtain ⟨rfl, -⟩ := List.cons.inj (htodo.symm.trans heq)
    exact hknows

/-- `_reap` goes on with the next record. -/
theorem Reaps.next {r : Reap} (h : Reaps m r) {i : ConnId} {todo : List ConnId}
    (htodo : r.todo = i :: todo)
    (hconnections : ∀ j ∈ m.connections, j ≠ i → j ∈ m'.connections) :
    Reaps m' { r with todo := todo, pc := .settling } := by
  have hnodup := h.nodup
  rw [htodo, List.nodup_cons] at hnodup
  refine ⟨fun j hj => hconnections j (h.registered j ?_) ?_, hnodup.2, fun _ _ _ => trivial⟩
  · rw [htodo]
    exact List.mem_cons_of_mem i hj
  · rintro rfl
    exact hnodup.1 hj

/-- A change of one owner that keeps its state is nothing to `_reap`. -/
theorem reaps_own {r : Reap} (h : Reaps m r) {i : ConnId} {o : Owned}
    (hchanged : Changed (m.record i).owned o) (hstate : o.state = (m.record i).owned.state)
    (hconnections : m'.connections = m.connections)
    (hrecord : m'.record = (m.own i o).record) : Reaps m' r := by
  refine h.kept (fun j hj => hconnections ▸ hj) fun j hknows => ?_
  rw [hrecord]
  by_cases hj : j = i
  · subst hj
    simpa [Machine.own, Machine.put] using hknows.owned hchanged hstate
  · simpa [Machine.own, Machine.put, Function.update_of_ne hj] using hknows

theorem reaps_moved (hcalls : Calls m) (hslots : Slots m) (h : Moved m e m') {r : Reap}
    (hr : m'.reap = some r) : Reaps m' r := by
  -- The acceptor is not at a thread of a record while somebody is in `_reap`.
  have hbusy : ∀ {pc}, m.reap = some r → m.accept = pc → pc ≠ .outside →
      (∀ last, pc ≠ .reaping last) → False := by
    intro pc hr hpc hout hreaping
    rcases reap_excludes hcalls hr with heq | heq | heq
    · exact hout (hpc.symm.trans heq)
    · exact hreaping _ (hpc.symm.trans heq)
    · exact hreaping _ (hpc.symm.trans heq)
  cases h with
  | admitted event i =>
      exact (hslots.reaps r hr).kept (fun j hj => List.mem_append_left _ hj) fun _ => id
  | tries event i hpc =>
      exact (hbusy hr hpc AcceptPc.noConfusion fun _ => AcceptPc.noConfusion).elim
  | tried event i o pc hpc =>
      rcases hpc with ⟨hpc, -⟩ | ⟨hpc, -⟩
      · exact (hbusy hr hpc AcceptPc.noConfusion fun _ => AcceptPc.noConfusion).elim
      · exact (hbusy hr hpc AcceptPc.noConfusion fun _ => AcceptPc.noConfusion).elim
  | connection i event o ho =>
      exact reaps_own (hslots.reaps r hr) (.step event o ho) (state_of_step ho) rfl rfl
  | promoted i =>
      refine (hslots.reaps r hr).kept (fun j hj => hj) fun j hknows => ?_
      show ReapKnows (Function.update m.record i { m.record i with authenticated := true } j) r.pc
      by_cases hj : j = i
      · subst hj
        rw [Function.update_self]
        cases hpc : r.pc <;> rw [hpc] at hknows <;> exact hknows
      · rwa [Function.update_of_ne hj]
  | stopCancels k ok i =>
      exact reaps_own (hslots.reaps r hr) .cancel (state_cancel _) rfl rfl
  | reapBegun owner =>
      obtain rfl := Option.some.inj hr
      exact ⟨fun i hi => hi, hslots.nodup, fun _ _ _ => trivial⟩
  | reapReturned => cases hr
  | reapEnded => cases hr
  | reapSettled ok r₀ i todo hreap htodo =>
      obtain rfl := Option.some.inj hr
      refine (hslots.reaps r₀ hreap).at htodo rfl ?_
      show ReapKnows (Function.update m.record i _ i) _
      rw [Function.update_self]
      split
      · rename_i hidle
        exact fun _ => .inl ((state_cancel _).trans hidle)
      · trivial
  | reapRead ok r₀ i todo hreap htodo =>
      obtain rfl := Option.some.inj hr
      refine (hslots.reaps r₀ hreap).at htodo rfl fun hended => .inr ?_
      obtain ⟨hdone, halive⟩ := Bool.and_eq_true_iff.mp hended
      rcases (hcalls.record i).done hdone with hlife | hlife
      · simp [Owned.isAlive, hlife] at halive
      · exact hlife
  | reapJudged ok r₀ i todo settled pc hreap htodo hpc hpc' =>
      obtain rfl := Option.some.inj hr
      have hreaps := hslots.reaps r₀ hreap
      have hknows := hreaps.knows i todo htodo
      rw [hpc] at hknows
      refine hreaps.at htodo rfl ?_
      rcases hpc' with rfl | ⟨rfl, hclosed, hfailed⟩
      · exact hknows
      · exact ⟨hknows, hclosed, hfailed⟩
  | reapClosed ok r₀ i todo settled c pc hreap htodo hpc hc hpc' =>
      obtain rfl := Option.some.inj hr
      have hreaps := hslots.reaps r₀ hreap
      have hknows := hreaps.knows i todo htodo
      rw [hpc] at hknows
      refine hreaps.at htodo rfl ?_
      show ReapKnows (Function.update m.record i c i) pc
      rw [Function.update_self]
      rcases hc with rfl | rfl <;> rcases hpc' with rfl | rfl <;> exact hknows.1
  | reapBroke ok r₀ i todo settled state hreap htodo hpc =>
      obtain rfl := Option.some.inj hr
      have hreaps := hslots.reaps r₀ hreap
      have hknows := hreaps.knows i todo htodo
      rw [hpc] at hknows
      exact hreaps.at htodo rfl hknows
  | dropped ok r₀ i todo preAuth auth hreap htodo =>
      obtain rfl := Option.some.inj hr
      exact (hslots.reaps r₀ hreap).next htodo fun j hj hji => (List.mem_erase_of_ne hji).mpr hj
  | reapPassed ok r₀ i todo settled hreap htodo =>
      obtain rfl := Option.some.inj hr
      exact (hslots.reaps r₀ hreap).next htodo fun j hj _ => hj
  | _ => exact (hslots.reaps r hr).kept (fun _ => id) fun _ => id

/-! ### The invariant -/

/-- **Every step keeps records, counters and sockets together.** -/
theorem slots_moved (hcalls : Calls m) (hslots : Slots m) (h : Moved m e m') : Slots m' where
  connections_lt _ := connections_lt_moved hslots h
  closes_lt j hj := by
    refine Nat.lt_of_lt_of_le ?_ (accepted_le h)
    rcases fresh_close hslots h with hsame | ⟨i, hcloses, -, hlt, -⟩
    · exact hslots.closes_lt j (hsame ▸ hj)
    · rw [hcloses] at hj
      rcases List.mem_append.mp hj with hj | hj
      · exact hslots.closes_lt j hj
      · rwa [List.mem_singleton.mp hj]
  blank _ := blank_moved hcalls hslots h
  nodup := nodup_moved hslots h
  closes_nodup := by
    rcases fresh_close hslots h with hsame | ⟨i, hcloses, hfresh, -, -⟩
    · exact hsame ▸ hslots.closes_nodup
    · rw [hcloses]
      exact List.nodup_append.mpr ⟨hslots.closes_nodup, List.nodup_singleton i, by
        intro a ha b hb hab
        rw [List.mem_singleton.mp hb] at hab
        exact hfresh (hab ▸ ha)⟩
  flags _ := flags_moved hslots h
  registered _ := registered_moved hslots h
  preAuth_eq := (counted_moved hcalls hslots h).1
  auth_eq := (counted_moved hcalls hslots h).2
  preAuth_le := (limits_moved hslots h).1
  auth_le := (limits_moved hslots h).2
  placed := placed_moved hcalls hslots h
  reaps _ := reaps_moved hcalls hslots h

theorem slots_init (preAuthSlots sessionSlots : Nat) :
    Slots (Machine.init preAuthSlots sessionSlots) where
  connections_lt _ h := nomatch h
  closes_lt _ h := nomatch h
  blank _ _ := ⟨rfl, rfl⟩
  nodup := List.nodup_nil
  closes_nodup := List.nodup_nil
  flags _ h := nomatch h
  registered _ h := absurd rfl h
  preAuth_eq := rfl
  auth_eq := rfl
  preAuth_le := Nat.zero_le _
  auth_le := Nat.zero_le _
  placed := trivial
  reaps _ h := nomatch h

end MaskGateway.Proofs.Pgwire.Listener
