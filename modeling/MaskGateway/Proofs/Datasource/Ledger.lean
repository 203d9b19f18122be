import MaskGateway.Datasource.Ledger
import MaskGateway.Proofs.Datasource.Child

/-!
# `MaskGateway.Proofs.Datasource.Ledger`: claims and slots

`Inv` is the invariant of the ledger. It says that a claim and the call that took it belong together
(`claim` and `hold`), that a slot is either free or taken by one record, and what every call knows of
the child that it holds (`PcKnows`). A call that holds a record is alone with it: what other calls do
leaves its child as it is, and what the child does by itself takes back nothing of what is known.
-/

set_option autoImplicit false

namespace MaskGateway.Proofs.Datasource.Ledger

open Lib MaskGateway.Datasource.Verify
open MaskGateway.Proofs.Datasource.Child

/-! ### The invariant -/

/-- The record that a call holds, and whether with the token of its verification. -/
def holds : Pc → Option (RecordId × Bool)
  | .reaping holding r _ _ | .settling holding r _ _ => some (r, holding.isOwn)
  | .running r _ _ => some (r, true)
  | _ => none

/-- What `_run` goes by: the child has ended with code zero, nothing was noted by the pumps, and the
output is accepted. -/
structure Approved (accepts : List UInt8 → Bool) (res : Resources) : Prop where
  completed : Completed res
  code : ∃ time, exitOf res = some (0, time)
  tooBig : res.sink.tooBig = false
  ioError : res.sink.ioError = false
  output : ∃ data, res.sink.data = some data ∧ accepts data = true

/-- The verification that reaps knows whether its child has ended. -/
def Ran (res : Resources) : Holding → Prop
  | .scan _ => True
  | .own completed _ => completed = true → Completed res

/-- What a call knows of its child. -/
def PcKnows (accepts : List UInt8 → Bool) (resources : RecordId → Resources)
    (released : List RecordId) : Pc → Prop
  | .reaping holding r _ pc => Knows (resources r) pc ∧ Ran (resources r) holding
  | .settling holding r reaped _ =>
      (reaped = true → Gone (resources r)) ∧ Ran (resources r) holding
  | .running r _ pc => RunKnows (resources r) pc ∧ (pc = .spawning → (resources r).process = none)
  | .judging r completed => r ∈ released ∧ (completed = true → Completed (resources r))
  | .finished (.verified r) => r ∈ released ∧ Approved accepts (resources r)
  | _ => True

/-- The invariant of the ledger. -/
structure Inv (accepts : List UInt8 → Bool) (capacity : Nat) (m : Machine) : Prop where
  slots : m.slots + m.records.length = capacity
  nodup : m.records.Nodup
  count : ∀ r ∈ m.records, r < m.count
  claim : ∀ r t, (m.record r).claimer = some t → holds (m.calls t.call) = some (r, t.own)
  hold : ∀ c r own, holds (m.calls c) = some (r, own) →
    r ∈ m.records ∧ (m.record r).claimer = some ⟨c, own⟩ ∧ (m.record r).inFlight = own
  flight : ∀ r ∈ m.records, (m.record r).inFlight = true → (m.record r).claimer ≠ none
  closed : ∀ s, m.closed s = true →
    m.closing s = true ∧ ∀ r ∈ m.records, (m.record r).owner ≠ s
  once : m.released.Nodup
  released : ∀ r, r ∈ m.released ↔ r < m.count ∧ r ∉ m.records
  fresh : ∀ r, m.count ≤ r → m.resources r = {} ∧ (m.record r).claimer = none
  valid : ∀ r, Valid (m.resources r)
  gone : ∀ r ∈ m.released, Gone (m.resources r)
  knows : ∀ c, PcKnows accepts m.resources m.released (m.calls c)

/-- The record that a call holds or has held. -/
def mentions : Pc → Option RecordId
  | .reaping _ r _ _ | .settling _ r _ _ | .running r _ _ | .judging r _ | .finished (.verified r) =>
      some r
  | _ => none

/-- What a call knows is about the record that it mentions. -/
theorem pcKnows_congr {accepts : List UInt8 → Bool} {resources resources' : RecordId → Resources}
    {released released' : List RecordId} {pc : Pc}
    (hsame : ∀ r, mentions pc = some r → resources' r = resources r)
    (hmore : ∀ r ∈ released, r ∈ released') (h : PcKnows accepts resources released pc) :
    PcKnows accepts resources' released' pc := by
  cases pc with
  | reaping holding r deadline pc => simpa only [PcKnows, hsame r rfl] using h
  | settling holding r reaped raised => simpa only [PcKnows, hsame r rfl] using h
  | running r timeout pc => simpa only [PcKnows, hsame r rfl] using h
  | judging r completed =>
      simp only [PcKnows, hsame r rfl] at h ⊢
      exact ⟨hmore r h.1, h.2⟩
  | finished result =>
      cases result with
      | verified r =>
          simp only [PcKnows, hsame r rfl] at h ⊢
          exact ⟨hmore r h.1, h.2⟩
      | returned => trivial
      | raised => trivial
  | _ => trivial

section
variable {accepts : List UInt8 → Bool} {capacity : Nat} {m : Machine}

/-- A record that a call mentions without holding it was released. -/
theorem Inv.mentioned (h : Inv accepts capacity m) {c : CallId} {r : RecordId}
    (hmentions : mentions (m.calls c) = some r) :
    (∃ own, holds (m.calls c) = some (r, own)) ∨ r ∈ m.released := by
  have hknows := h.knows c
  cases hpc : m.calls c with
  | reaping holding r' deadline pc =>
      rw [hpc] at hmentions
      obtain rfl := Option.some.inj hmentions
      exact .inl ⟨_, rfl⟩
  | settling holding r' reaped raised =>
      rw [hpc] at hmentions
      obtain rfl := Option.some.inj hmentions
      exact .inl ⟨_, rfl⟩
  | running r' timeout pc =>
      rw [hpc] at hmentions
      obtain rfl := Option.some.inj hmentions
      exact .inl ⟨_, rfl⟩
  | judging r' completed =>
      rw [hpc] at hmentions hknows
      obtain rfl := Option.some.inj hmentions
      exact .inr hknows.1
  | finished result =>
      rw [hpc] at hmentions hknows
      cases result with
      | verified r' =>
          obtain rfl := Option.some.inj hmentions
          exact .inr hknows.1
      | returned => exact nomatch hmentions
      | raised => exact nomatch hmentions
  | _ => rw [hpc] at hmentions; exact nomatch hmentions

/-- A call is alone with the record that it holds. -/
theorem Inv.alone (h : Inv accepts capacity m) {c c' : CallId} {r : RecordId} {own : Bool}
    (hhold : holds (m.calls c) = some (r, own)) (hmentions : mentions (m.calls c') = some r) :
    c' = c := by
  obtain ⟨hmem, hclaim, -⟩ := h.hold c r own hhold
  rcases h.mentioned hmentions with ⟨own', hhold'⟩ | hreleased
  · obtain ⟨-, hclaim', -⟩ := h.hold c' r own' hhold'
    have heq := Option.some.inj (hclaim'.symm.trans hclaim)
    exact congrArg Token.call heq
  · exact absurd hmem ((h.released r).mp hreleased).2

/-! ### What calls do -/

/-- A call that holds nothing goes on, and holds nothing. -/
theorem Inv.goto (h : Inv accepts capacity m) {c : CallId} {pc : Pc}
    (hfrom : holds (m.calls c) = none) (hto : holds pc = none)
    (hknows : PcKnows accepts m.resources m.released pc) :
    Inv accepts capacity (m.goto c pc) := by
  have hcalls : ∀ c', holds ((m.goto c pc).calls c') = holds (m.calls c') := by
    intro c'
    show holds (Function.update m.calls c pc c') = _
    by_cases hc : c' = c
    · subst hc
      rw [Function.update_self, hto, hfrom]
    · rw [Function.update_of_ne hc]
  exact
    { h with
      claim := fun r t ht => (hcalls t.call).trans (h.claim r t ht)
      hold := fun c' r own hc => h.hold c' r own ((hcalls c').symm.trans hc)
      knows := fun c' => by
        show PcKnows accepts m.resources m.released (Function.update m.calls c pc c')
        by_cases hc : c' = c
        · subst hc
          rw [Function.update_self]
          exact hknows
        · rw [Function.update_of_ne hc]
          exact h.knows c' }

/-- A supervisor refuses from now on. -/
theorem Inv.refuse (h : Inv accepts capacity m) (s : SupervisorId) :
    Inv accepts capacity (m.refuse s) :=
  { h with
    closed := fun s' hs' => by
      obtain ⟨hclosing, howns⟩ := h.closed s' hs'
      refine ⟨?_, howns⟩
      show Function.update m.closing s true s' = true
      by_cases hs : s' = s
      · subst hs
        exact Function.update_self ..
      · rw [Function.update_of_ne hs]
        exact hclosing }

/-- A call does something to the child of the record that it holds. -/
theorem Inv.act (h : Inv accepts capacity m) {c : CallId} {r : RecordId} {own : Bool}
    {res : Resources} {pc : Pc} (hfrom : holds (m.calls c) = some (r, own))
    (hto : holds pc = some (r, own)) (hvalid : Valid res)
    (hknows : ∀ resources, resources r = res → PcKnows accepts resources m.released pc) :
    Inv accepts capacity ((m.setResources r res).goto c pc) := by
  have hmem := (h.hold c r own hfrom).1
  have hcalls : ∀ c', holds (((m.setResources r res).goto c pc).calls c') =
      holds (m.calls c') := by
    intro c'
    show holds (Function.update m.calls c pc c') = _
    by_cases hc : c' = c
    · subst hc
      rw [Function.update_self, hto, hfrom]
    · rw [Function.update_of_ne hc]
  have hother : ∀ r', r' ≠ r → Function.update m.resources r res r' = m.resources r' :=
    fun r' hr' => Function.update_of_ne hr' ..
  exact
    { h with
      claim := fun r' t ht => (hcalls t.call).trans (h.claim r' t ht)
      hold := fun c' r' own' hc => h.hold c' r' own' ((hcalls c').symm.trans hc)
      fresh := fun r' hr' => by
        have hne : r' ≠ r := by
          rintro rfl
          have hlt : r' < m.count := h.count r' hmem
          have hle : m.count ≤ r' := hr'
          omega
        exact ⟨(hother r' hne).trans (h.fresh r' hr').1, (h.fresh r' hr').2⟩
      valid := fun r' => by
        show Valid (Function.update m.resources r res r')
        by_cases hr' : r' = r
        · subst hr'
          rw [Function.update_self]
          exact hvalid
        · rw [hother r' hr']
          exact h.valid r'
      gone := fun r' hr' => by
        have hne : r' ≠ r := by
          rintro rfl
          exact ((h.released r').mp hr').2 hmem
        show Gone (Function.update m.resources r res r')
        rw [hother r' hne]
        exact h.gone r' hr'
      knows := fun c' => by
        show PcKnows accepts (Function.update m.resources r res) m.released
          (Function.update m.calls c pc c')
        by_cases hc : c' = c
        · subst hc
          rw [Function.update_self]
          exact hknows _ (Function.update_self ..)
        · rw [Function.update_of_ne hc]
          refine pcKnows_congr ?_ (fun _ hr' => hr') (h.knows c')
          intro r' hmentions
          refine hother r' ?_
          rintro rfl
          exact hc (h.alone hfrom hmentions) }

/-- A child does something by itself. -/
theorem Inv.environment (h : Inv accepts capacity m) {r : RecordId} {res : Resources}
    (hvalid : Valid res) (hmoves : ¬ Gone (m.resources r)) (hborn : m.resources r ≠ {})
    (hreap : ∀ pc, Knows (m.resources r) pc → Knows res pc)
    (hrun : ∀ pc, RunKnows (m.resources r) pc → RunKnows res pc)
    (hcompleted : Completed (m.resources r) → Completed res)
    (hspawning : (m.resources r).process = none → res.process = none) :
    Inv accepts capacity (m.setResources r res) := by
  have hother : ∀ r', r' ≠ r → Function.update m.resources r res r' = m.resources r' :=
    fun r' hr' => Function.update_of_ne hr' ..
  have hkept : r ∉ m.released := fun hr => hmoves (h.gone r hr)
  have hran : ∀ holding, Ran (m.resources r) holding → Ran res holding := by
    intro holding hran
    cases holding with
    | scan frame => trivial
    | own completed interrupted => exact fun hc => hcompleted (hran hc)
  exact
    { h with
      fresh := fun r' hr' => by
        have hne : r' ≠ r := by
          rintro rfl
          exact hborn (h.fresh r' hr').1
        exact ⟨(hother r' hne).trans (h.fresh r' hr').1, (h.fresh r' hr').2⟩
      valid := fun r' => by
        show Valid (Function.update m.resources r res r')
        by_cases hr' : r' = r
        · subst hr'
          rw [Function.update_self]
          exact hvalid
        · rw [hother r' hr']
          exact h.valid r'
      gone := fun r' hr' => by
        have hne : r' ≠ r := by
          rintro rfl
          exact hkept hr'
        show Gone (Function.update m.resources r res r')
        rw [hother r' hne]
        exact h.gone r' hr'
      knows := fun c => by
        show PcKnows accepts (Function.update m.resources r res) m.released (m.calls c)
        have hknows := h.knows c
        by_cases hmentions : mentions (m.calls c) = some r
        · -- the call holds the record, since it was not released
          have hself : Function.update m.resources r res r = res := Function.update_self ..
          cases hpc : m.calls c with
          | reaping holding r' deadline pc =>
              rw [hpc] at hmentions hknows
              obtain rfl := Option.some.inj hmentions
              simp only [PcKnows, hself]
              exact ⟨hreap pc hknows.1, hran holding hknows.2⟩
          | settling holding r' reaped raised =>
              rw [hpc] at hmentions hknows
              obtain rfl := Option.some.inj hmentions
              simp only [PcKnows, hself]
              exact ⟨fun hr => absurd (hknows.1 hr) hmoves, hran holding hknows.2⟩
          | running r' timeout pc =>
              rw [hpc] at hmentions hknows
              obtain rfl := Option.some.inj hmentions
              simp only [PcKnows, hself]
              exact ⟨hrun pc hknows.1, fun hpc => hspawning (hknows.2 hpc)⟩
          | judging r' completed =>
              rw [hpc] at hmentions hknows
              obtain rfl := Option.some.inj hmentions
              exact absurd hknows.1 hkept
          | finished result =>
              rw [hpc] at hmentions hknows
              cases result with
              | verified r' =>
                  obtain rfl := Option.some.inj hmentions
                  exact absurd hknows.1 hkept
              | returned => exact nomatch hmentions
              | raised => exact nomatch hmentions
          | _ => rw [hpc] at hmentions; exact nomatch hmentions
        · refine pcKnows_congr ?_ (fun _ hr => hr) hknows
          intro r' hr'
          refine hother r' ?_
          rintro rfl
          exact hmentions hr' }

/-- The thread of a pump moves. -/
theorem inv_pump (h : Inv accepts capacity m) {r : RecordId} {i : Nat} {move : PumpMove}
    {res : Resources} (hmove : (m.resources r).pumpMove i move = some res) :
    Inv accepts capacity (m.setResources r res) := by
  have hvalid := h.valid r
  obtain ⟨hvalid', hmoves, -⟩ := pumpMove_spec hvalid hmove
  refine h.environment hvalid' ?_ ?_ (fun _ hk => knows_pumpMove hvalid hmove hk)
    (fun _ hk => runKnows_pumpMove hvalid hmove hk) ?_ hmoves.process
  · intro hgone
    rw [pumpMove_of_gone hvalid hgone] at hmove
    exact nomatch hmove
  · intro hfresh
    obtain ⟨p, hp, -⟩ := moving hmove
    rw [hfresh] at hp
    exact nomatch hp
  · exact fun hc => ⟨hmoves.deadline ▸ hc.1, hmoves.exit ▸ hc.2⟩

/-- The child ends. -/
theorem inv_exits (h : Inv accepts capacity m) {r : RecordId} {code : Int} {res : Resources}
    (hexits : (m.resources r).exits code m.now = some res) :
    Inv accepts capacity (m.setResources r res) := by
  obtain ⟨p, hp, hnone, rfl⟩ := exits_eq_some hexits
  refine h.environment ((h.valid r).withProcess hp) ?_ ?_ (fun _ hk => knows_exits hexits hk)
    (fun _ hk => runKnows_exits hexits hk) ?_ ?_
  · intro hgone
    rw [exits_of_gone (h.valid r) hgone] at hexits
    exact nomatch hexits
  · intro hfresh
    rw [hfresh] at hp
    exact nomatch hp
  · exact fun hc => ⟨hc.1, rfl⟩
  · intro hprocess
    rw [hp] at hprocess
    exact nomatch hprocess

/-! ### Claims and slots -/

/-- A collection claims a record that is free. -/
theorem inv_claim (h : Inv accepts capacity m) {c : CallId} {frame : Frame} {r : RecordId}
    {deadline : Nat} (hfrom : holds (m.calls c) = none) (hmem : r ∈ m.records)
    (hflight : (m.record r).inFlight = false) (hfree : (m.record r).claimer = none) :
    Inv accepts capacity ((m.setRecord r { m.record r with claimer := some ⟨c, false⟩ }).goto c
      (.reaping (.scan frame) r deadline .checking)) := by
  have hrecord : ∀ r', r' ≠ r → Function.update m.record r
      { m.record r with claimer := some ⟨c, false⟩ } r' = m.record r' :=
    fun r' hr' => Function.update_of_ne hr' ..
  have hself : Function.update m.record r { m.record r with claimer := some ⟨c, false⟩ } r =
      { m.record r with claimer := some ⟨c, false⟩ } := Function.update_self ..
  have howner : ∀ r', (Function.update m.record r
      { m.record r with claimer := some ⟨c, false⟩ } r').owner = (m.record r').owner := by
    intro r'
    by_cases hr' : r' = r
    · subst hr'
      rw [hself]
    · rw [hrecord r' hr']
  exact
    { h with
      claim := fun r' t ht => by
        change (Function.update m.record r _ r').claimer = some t at ht
        show holds (Function.update m.calls c _ t.call) = some (r', t.own)
        by_cases hr' : r' = r
        · subst hr'
          rw [hself] at ht
          obtain rfl := Option.some.inj ht
          rw [Function.update_self]
          rfl
        · rw [hrecord r' hr'] at ht
          have hheld := h.claim r' t ht
          -- the call that claims held nothing before
          have hne : t.call ≠ c := by
            rintro rfl
            rw [hfrom] at hheld
            exact nomatch hheld
          rw [Function.update_of_ne hne]
          exact hheld
      hold := fun c' r' own hhold => by
        change holds (Function.update m.calls c _ c') = some (r', own) at hhold
        show r' ∈ m.records ∧ (Function.update m.record r _ r').claimer = some ⟨c', own⟩ ∧
          (Function.update m.record r _ r').inFlight = own
        by_cases hc : c' = c
        · subst hc
          rw [Function.update_self] at hhold
          obtain ⟨rfl, rfl⟩ := Prod.mk.inj (Option.some.inj hhold)
          rw [hself]
          exact ⟨hmem, rfl, hflight⟩
        · rw [Function.update_of_ne hc] at hhold
          obtain ⟨hmem', hclaim, hin⟩ := h.hold c' r' own hhold
          have hne : r' ≠ r := by
            rintro rfl
            rw [hfree] at hclaim
            exact nomatch hclaim
          rw [hrecord r' hne]
          exact ⟨hmem', hclaim, hin⟩
      flight := fun r' hr' hin => by
        change (Function.update m.record r _ r').inFlight = true at hin
        show (Function.update m.record r _ r').claimer ≠ none
        by_cases hne : r' = r
        · subst hne
          rw [hself]
          exact Option.some_ne_none _
        · rw [hrecord r' hne] at hin ⊢
          exact h.flight r' hr' hin
      closed := fun s hs => by
        obtain ⟨hclosing, howns⟩ := h.closed s hs
        refine ⟨hclosing, fun r' hr' => ?_⟩
        show (Function.update m.record r _ r').owner ≠ s
        rw [howner]
        exact howns r' hr'
      fresh := fun r' hr' => by
        have hne : r' ≠ r := by
          rintro rfl
          have hlt : r' < m.count := h.count r' hmem
          have hle : m.count ≤ r' := hr'
          omega
        refine ⟨(h.fresh r' hr').1, ?_⟩
        show (Function.update m.record r _ r').claimer = none
        rw [hrecord r' hne]
        exact (h.fresh r' hr').2
      knows := fun c' => by
        show PcKnows accepts m.resources m.released (Function.update m.calls c _ c')
        by_cases hc : c' = c
        · subst hc
          rw [Function.update_self]
          exact ⟨trivial, trivial⟩
        · rw [Function.update_of_ne hc]
          exact h.knows c' }

/-- The holder of a claim settles its record, and goes on without it. -/
theorem inv_settle (h : Inv accepts capacity m) {c : CallId} {r : RecordId} {own : Bool}
    {reaped : Bool} {pc : Pc} (hfrom : holds (m.calls c) = some (r, own))
    (hgone : reaped = true → Gone (m.resources r)) (hto : holds pc = none)
    (hknows : ∀ released, (∀ r' ∈ m.released, r' ∈ released) → (reaped = true → r ∈ released) →
      PcKnows accepts m.resources released pc) :
    Inv accepts capacity ((m.settle r ⟨c, own⟩ reaped).goto c pc) := by
  obtain ⟨hmem, hclaim, hin⟩ := h.hold c r own hfrom
  have hself : Function.update m.record r
      { m.record r with inFlight := false, claimer := none } r =
        { m.record r with inFlight := false, claimer := none } := Function.update_self ..
  have hrecord : ∀ r', r' ≠ r → Function.update m.record r
      { m.record r with inFlight := false, claimer := none } r' = m.record r' :=
    fun r' hr' => Function.update_of_ne hr' ..
  -- the claim is gone whether or not the record is
  have hclaims : ∀ r' t, (Function.update m.record r
      { m.record r with inFlight := false, claimer := none } r').claimer = some t →
        holds (Function.update m.calls c pc t.call) = some (r', t.own) := by
    intro r' t ht
    by_cases hr' : r' = r
    · subst hr'
      rw [hself] at ht
      exact nomatch ht
    · rw [hrecord r' hr'] at ht
      have hheld := h.claim r' t ht
      have hne : t.call ≠ c := by
        intro hc
        rw [hc, hfrom] at hheld
        exact hr' (Prod.mk.inj (Option.some.inj hheld)).1.symm
      rw [Function.update_of_ne hne]
      exact hheld
  have hholds : ∀ c' r' own', holds (Function.update m.calls c pc c') = some (r', own') →
      r' ≠ r ∧ r' ∈ m.records ∧ (m.record r').claimer = some ⟨c', own'⟩ ∧
        (m.record r').inFlight = own' := by
    intro c' r' own' hhold
    by_cases hc : c' = c
    · subst hc
      rw [Function.update_self, hto] at hhold
      exact nomatch hhold
    · rw [Function.update_of_ne hc] at hhold
      obtain ⟨hmem', hclaim', hin'⟩ := h.hold c' r' own' hhold
      refine ⟨?_, hmem', hclaim', hin'⟩
      rintro rfl
      exact hc (congrArg Token.call (Option.some.inj (hclaim'.symm.trans hclaim)))
  have hflights : ∀ r' ∈ m.records, (Function.update m.record r
      { m.record r with inFlight := false, claimer := none } r').inFlight = true →
        (Function.update m.record r
          { m.record r with inFlight := false, claimer := none } r').claimer ≠ none := by
    intro r' hr' hf
    by_cases hne : r' = r
    · subst hne
      rw [hself] at hf
      exact nomatch hf
    · rw [hrecord r' hne] at hf ⊢
      exact h.flight r' hr' hf
  have howner : ∀ r', (Function.update m.record r
      { m.record r with inFlight := false, claimer := none } r').owner = (m.record r').owner := by
    intro r'
    by_cases hr' : r' = r
    · subst hr'
      rw [hself]
    · rw [hrecord r' hr']
  have hfresh : ∀ r', m.count ≤ r' → (Function.update m.record r
      { m.record r with inFlight := false, claimer := none } r').claimer = none := by
    intro r' hr'
    have hlt := h.count r hmem
    have hne : r' ≠ r := by
      rintro rfl
      exact absurd hlt (Nat.not_lt.mpr hr')
    rw [hrecord r' hne]
    exact (h.fresh r' hr').2
  have hcalls : ∀ released, (∀ r' ∈ m.released, r' ∈ released) → (reaped = true → r ∈ released) →
      ∀ c', PcKnows accepts m.resources released (Function.update m.calls c pc c') := by
    intro released hmore hr c'
    by_cases hc : c' = c
    · subst hc
      rw [Function.update_self]
      exact hknows released hmore hr
    · rw [Function.update_of_ne hc]
      exact pcKnows_congr (fun _ _ => rfl) hmore (h.knows c')
  rw [Machine.settle, if_neg (not_not.mpr hclaim)]
  simp only []
  cases reaped with
  | false =>
      rw [if_pos (.inl rfl)]
      exact
        { h with
          claim := hclaims
          hold := fun c' r' own' hhold => by
            obtain ⟨hne, hmem', hclaim', hin'⟩ := hholds c' r' own' hhold
            refine ⟨hmem', ?_, ?_⟩
            · exact (congrArg ChildRecord.claimer (hrecord r' hne)).trans hclaim'
            · exact (congrArg ChildRecord.inFlight (hrecord r' hne)).trans hin'
          flight := hflights
          closed := fun s hs => by
            obtain ⟨hclosing, howns⟩ := h.closed s hs
            exact ⟨hclosing, fun r' hr' => (howner r').symm ▸ howns r' hr'⟩
          fresh := fun r' hr' => ⟨(h.fresh r' hr').1, hfresh r' hr'⟩
          knows := hcalls m.released (fun _ hr' => hr') (fun hf => nomatch hf) }
  | true =>
      rw [if_neg (by
        rw [not_or]
        exact ⟨by decide, not_not.mpr hmem⟩)]
      have hleft : ∀ r', r' ∈ m.records.erase r ↔ r' ≠ r ∧ r' ∈ m.records := by
        intro r'
        rw [h.nodup.mem_erase_iff]
      exact
        { slots := by
            have hlength := List.length_erase_of_mem hmem
            have hpos : 0 < m.records.length := List.length_pos_of_mem hmem
            have hslots := h.slots
            show m.slots + 1 + (m.records.erase r).length = capacity
            omega
          nodup := h.nodup.erase r
          count := fun r' hr' => h.count r' ((hleft r').mp hr').2
          claim := hclaims
          hold := fun c' r' own' hhold => by
            obtain ⟨hne, hmem', hclaim', hin'⟩ := hholds c' r' own' hhold
            refine ⟨(hleft r').mpr ⟨hne, hmem'⟩, ?_, ?_⟩
            · exact (congrArg ChildRecord.claimer (hrecord r' hne)).trans hclaim'
            · exact (congrArg ChildRecord.inFlight (hrecord r' hne)).trans hin'
          flight := fun r' hr' => hflights r' ((hleft r').mp hr').2
          closed := fun s hs => by
            obtain ⟨hclosing, howns⟩ := h.closed s hs
            refine ⟨hclosing, fun r' hr' => ?_⟩
            exact (howner r').symm ▸ howns r' ((hleft r').mp hr').2
          once := by
            refine List.nodup_cons.mpr ⟨?_, h.once⟩
            exact fun hr => ((h.released r).mp hr).2 hmem
          released := fun r' => by
            show r' ∈ r :: m.released ↔ r' < m.count ∧ r' ∉ m.records.erase r
            rw [List.mem_cons, h.released r', hleft]
            constructor
            · rintro (rfl | ⟨hlt, hnot⟩)
              · exact ⟨h.count r' hmem, fun hf => hf.1 rfl⟩
              · exact ⟨hlt, fun hf => hnot hf.2⟩
            · rintro ⟨hlt, hnot⟩
              by_cases hr' : r' = r
              · exact .inl hr'
              · exact .inr ⟨hlt, fun hf => hnot ⟨hr', hf⟩⟩
          fresh := fun r' hr' => ⟨(h.fresh r' hr').1, hfresh r' hr'⟩
          valid := h.valid
          gone := fun r' hr' => by
            rcases List.mem_cons.mp hr' with rfl | hr'
            · exact hgone rfl
            · exact h.gone r' hr'
          knows := hcalls (r :: m.released) (fun _ hr' => .tail _ hr') (fun _ => .head _) }

/-- A verification takes a slot and adopts its record. -/
theorem inv_enter (h : Inv accepts capacity m) {c : CallId} {s : SupervisorId} {timeout : Nat}
    (hfrom : holds (m.calls c) = none) : Inv accepts capacity (m.enter c s timeout) := by
  rw [Machine.enter]
  split_ifs with hrefused
  · exact h.goto hfrom rfl trivial
  rw [not_or, Bool.not_eq_true] at hrefused
  obtain ⟨hopen, hslots⟩ := hrefused
  have hnew : m.count ∉ m.records := fun hmem => absurd (h.count _ hmem) (Nat.lt_irrefl _)
  have hself : ∀ record : ChildRecord, Function.update m.record m.count record m.count = record :=
    fun _ => Function.update_self ..
  have hrecord : ∀ (record : ChildRecord) r', r' ≠ m.count →
      Function.update m.record m.count record r' = m.record r' :=
    fun _ r' hr' => Function.update_of_ne hr' ..
  have hresources : Function.update m.resources m.count ({} : Resources) = m.resources := by
    rw [← (h.fresh m.count (Nat.le_refl _)).1]
    exact Function.update_eq_self ..
  have hmem : ∀ r', r' ∈ m.records ++ [m.count] ↔ r' ∈ m.records ∨ r' = m.count := by
    intro r'
    rw [List.mem_append, List.mem_singleton]
  have hold : ∀ r' ∈ m.records, r' ≠ m.count := by
    rintro r' hr' rfl
    exact hnew hr'
  exact
    { slots := by
        have := h.slots
        show m.slots - 1 + (m.records ++ [m.count]).length = capacity
        rw [List.length_append, List.length_singleton]
        omega
      nodup := List.nodup_append.mpr ⟨h.nodup, List.nodup_singleton _, by
        intro r' hr' r'' hr''
        rw [List.mem_singleton.mp hr'']
        exact hold r' hr'⟩
      count := fun r' hr' => by
        rcases (hmem r').mp hr' with hr' | rfl
        · exact Nat.lt_succ_of_lt (h.count r' hr')
        · exact Nat.lt_succ_self _
      claim := fun r' t ht => by
        change (Function.update m.record m.count _ r').claimer = some t at ht
        show holds (Function.update m.calls c _ t.call) = some (r', t.own)
        by_cases hr' : r' = m.count
        · subst hr'
          rw [hself] at ht
          obtain rfl := Option.some.inj ht
          rw [Function.update_self]
          rfl
        · rw [hrecord _ r' hr'] at ht
          have hheld := h.claim r' t ht
          have hne : t.call ≠ c := by
            rintro rfl
            rw [hfrom] at hheld
            exact nomatch hheld
          rw [Function.update_of_ne hne]
          exact hheld
      hold := fun c' r' own hhold => by
        change holds (Function.update m.calls c _ c') = some (r', own) at hhold
        show r' ∈ m.records ++ [m.count] ∧
          (Function.update m.record m.count _ r').claimer = some ⟨c', own⟩ ∧
          (Function.update m.record m.count _ r').inFlight = own
        by_cases hc : c' = c
        · subst hc
          rw [Function.update_self] at hhold
          obtain ⟨rfl, rfl⟩ := Prod.mk.inj (Option.some.inj hhold)
          rw [hself]
          exact ⟨(hmem _).mpr (.inr rfl), rfl, rfl⟩
        · rw [Function.update_of_ne hc] at hhold
          obtain ⟨hmem', hclaim, hin⟩ := h.hold c' r' own hhold
          rw [hrecord _ r' (hold r' hmem')]
          exact ⟨(hmem r').mpr (.inl hmem'), hclaim, hin⟩
      flight := fun r' hr' hin => by
        change (Function.update m.record m.count _ r').inFlight = true at hin
        show (Function.update m.record m.count _ r').claimer ≠ none
        rcases (hmem r').mp hr' with hr' | rfl
        · rw [hrecord _ r' (hold r' hr')] at hin ⊢
          exact h.flight r' hr' hin
        · rw [hself]
          exact Option.some_ne_none _
      closed := fun s' hs' => by
        obtain ⟨hclosing, howns⟩ := h.closed s' hs'
        refine ⟨hclosing, fun r' hr' => ?_⟩
        show (Function.update m.record m.count _ r').owner ≠ s'
        rcases (hmem r').mp hr' with hr' | rfl
        · rw [hrecord _ r' (hold r' hr')]
          exact howns r' hr'
        · rw [hself]
          rintro rfl
          rw [hopen] at hclosing
          exact nomatch hclosing
      once := h.once
      released := fun r' => by
        show r' ∈ m.released ↔ r' < m.count + 1 ∧ r' ∉ m.records ++ [m.count]
        rw [h.released r', hmem]
        constructor
        · rintro ⟨hlt, hnot⟩
          refine ⟨Nat.lt_succ_of_lt hlt, fun hf => hf.elim hnot ?_⟩
          rintro rfl
          exact Nat.lt_irrefl _ hlt
        · rintro ⟨hlt, hnot⟩
          refine ⟨Nat.lt_of_le_of_ne (Nat.le_of_lt_succ hlt) fun hf => hnot (.inr hf), ?_⟩
          exact fun hf => hnot (.inl hf)
      fresh := fun r' hr' => by
        have hle : m.count + 1 ≤ r' := hr'
        show Function.update m.resources m.count {} r' = {} ∧
          (Function.update m.record m.count _ r').claimer = none
        rw [hresources, hrecord _ r' (by omega)]
        exact h.fresh r' (by omega)
      valid := fun r' => by
        show Valid (Function.update m.resources m.count {} r')
        rw [hresources]
        exact h.valid r'
      gone := fun r' hr' => by
        show Gone (Function.update m.resources m.count {} r')
        rw [hresources]
        exact h.gone r' hr'
      knows := fun c' => by
        show PcKnows accepts (Function.update m.resources m.count {}) m.released
          (Function.update m.calls c _ c')
        rw [hresources]
        by_cases hc : c' = c
        · subst hc
          rw [Function.update_self]
          refine ⟨trivial, fun _ => ?_⟩
          rw [(h.fresh m.count (Nat.le_refl _)).1]
        · rw [Function.update_of_ne hc]
          exact h.knows c' }

/-- `close` looks whether a record is left. -/
theorem inv_confirm (h : Inv accepts capacity m) {s : SupervisorId} {remaining : Bool}
    (hremaining : (m.records.any fun r => decide ((m.record r).owner = s)) = remaining)
    (hclosing : m.closing s = true) :
    Inv accepts capacity { m with closed := Function.update m.closed s (!remaining) } :=
  { h with
    closed := fun s' hs' => by
      change Function.update m.closed s _ s' = true at hs'
      by_cases hs : s' = s
      · subst hs
        rw [Function.update_self] at hs'
        refine ⟨hclosing, fun r hr howner => ?_⟩
        have hany : (m.records.any fun r => decide ((m.record r).owner = s')) = true :=
          List.any_eq_true.mpr ⟨r, hr, by simpa using howner⟩
        rw [← hremaining, hany] at hs'
        exact nomatch hs'
      · rw [Function.update_of_ne hs] at hs'
        exact h.closed s' hs' }

end

end MaskGateway.Proofs.Datasource.Ledger
