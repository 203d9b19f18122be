import MaskGateway.Proofs.Runtime.BudgetInvariant
import MaskGateway.Proofs.Runtime.BudgetTokens

/-!
# `MaskGateway.Proofs.Runtime.BudgetCharges`: a ledger whose callers charge fixed costs

The callers of the ledger charge one cost for each kind of reservation (`Charges`). Then every
reservation in the image carries the charge of its kind (`Charged`), a generation that of the
candidate it was, because `publish` moves the credits and asks for none. The bytes in use are
therefore a function of the counts of the four kinds (`used_eq`), and a call that would put the
ledger over its total while the counts are within their limits (`Short`) shows a mix of
reservations that is too dear (`mix_of_short`).
-/

set_option autoImplicit false

namespace MaskGateway.Proofs.Budget

open MaskGateway.Lib
open MaskGateway.Runtime.Budget

/-- What the callers charge: for a session the bytes of its worker and of its parent, and for a
candidate and an auxiliary their shared bytes. -/
structure Charge where
  worker : Int
  parent : Int
  candidate : Int
  auxiliary : Int
  deriving DecidableEq

/-- The call charges these costs, if it charges any. -/
def Charges (charge : Charge) : Op → Prop
  | .reserveCandidate _ shared => shared = .int charge.candidate
  | .reserveAuxiliary shared => shared = .int charge.auxiliary
  | .reserveSession _ worker parent => worker = .int charge.worker ∧ parent = .int charge.parent
  | _ => True

/-- What a reservation of a kind is charged. A generation was a candidate. -/
def Charge.of (charge : Charge) : ReservationKind → Int
  | .session => charge.worker + charge.parent
  | .candidate | .generation => charge.candidate
  | .auxiliary => charge.auxiliary

/-- The reservation carries the charge of its kind. -/
structure Charged (charge : Charge) (row : ReservationView) : Prop where
  bytes : (row.bytes : Int) = charge.of row.kind
  parent : row.kind = .session → (row.parentBytes : Int) = charge.parent

/-- Every reservation of the image carries the charge of its kind. -/
def AllCharged (charge : Charge) (image : Image) : Prop :=
  ∀ i e row, Holds image i e row → Charged charge row

/-! ### One call -/

section OneCall

variable {charge : Charge} {l : Ledger}

/-- A slot that is overwritten. -/
theorem AllCharged.set {image : Image} (h : AllCharged charge image) {index : Nat} {slot : Slot}
    (hnew : ∀ row, slot.entry = some row → Charged charge row) :
    AllCharged charge (image.set index slot) := by
  intro i e row hrow
  rcases holds_set hrow with ⟨-, hslot⟩ | ⟨-, hold⟩
  · exact hnew row (by rw [hslot])
  · exact h i e row hold

/-- A reservation rewritten with the kind and the charges it had. -/
theorem AllCharged.rewrite {image : Image} (h : AllCharged charge image) {index epoch : Nat}
    {row row' : ReservationView} (hrow : Holds image index epoch row) (hkind : row'.kind = row.kind)
    (hworker : row'.workerBytes = row.workerBytes) (hparent : row'.parentBytes = row.parentBytes)
    (hshared : row'.sharedBytes = row.sharedBytes) :
    AllCharged charge (image.replace index epoch (some row')) := by
  refine h.set fun found hfound => ?_
  rw [← Option.some.inj hfound]
  have hold := h index epoch row hrow
  refine ⟨?_, fun hk => ?_⟩
  · show ((row'.workerBytes + row'.parentBytes + row'.sharedBytes : Nat) : Int) = _
    rw [hworker, hparent, hshared, hkind]
    exact hold.bytes
  · rw [hparent]
    exact hold.parent (hkind ▸ hk)

/-- A slot that is cleared. -/
theorem AllCharged.clear {image : Image} (h : AllCharged charge image) {index epoch : Nat} :
    AllCharged charge (image.replace index epoch none) :=
  h.set fun _ hr => by cases hr

/-- A successful `_reserve` enters its reservation. -/
theorem AllCharged.reserve (h : AllCharged charge l.image) {row : ReservationView}
    (hrow : Charged charge row) {token : BudgetToken} {image : Option Image}
    (hplan : l.reserve row = .ok (token, image)) : ∀ new ∈ image, AllCharged charge new := by
  unfold Ledger.reserve at hplan
  split at hplan
  · cases hplan
  · split at hplan
    · cases hplan
    · simp only [Except.ok.injEq, Prod.mk.injEq] at hplan
      obtain ⟨-, rfl⟩ := hplan
      intro new hnew
      rw [← Option.some.inj hnew]
      refine h.set fun found hfound => ?_
      rw [← Option.some.inj hfound]
      exact hrow

/-- An argument that passes `_number` has its own value. -/
theorem number_value {value : Int} {minimum maximum n : Nat}
    (h : number (.int value) minimum maximum = .ok n) : (n : Int) = value :=
  (Arg.int.inj (number_ok h)).symm

/-- `publish` moves the credits of the candidate. -/
theorem AllCharged.publish (h : AllCharged charge l.image) {candidate : Option BudgetToken}
    {replacing : Option (Option BudgetToken)} {answer : Unit} {image : Option Image}
    (hplan : l.publish candidate replacing = .ok (answer, image)) :
    ∀ new ∈ image, AllCharged charge new := by
  simp only [Ledger.publish, bind_eq_ok, refuseIf_eq_ok, pure_eq_ok, Prod.mk.injEq] at hplan
  obtain ⟨-, -, ⟨index, epoch, row⟩, hrow, -, hkind, mid, hmid, -, -, -, rfl⟩ := hplan
  simp only [not_or, not_not] at hkind
  have hcandidate := h index epoch row (entry_ok hrow).2
  have hmidCharged : AllCharged charge mid := by
    have hretires : Retires l (tokensOf (.publish candidate replacing)) mid := retired_ok hmid
    rcases hretires with rfl | ⟨i, e, gen, -, hgen, -, rfl⟩
    · exact h
    · exact h.rewrite hgen rfl rfl rfl rfl
  intro new hnew
  rw [← Option.some.inj hnew]
  refine hmidCharged.set fun found hfound => ?_
  rw [← Option.some.inj hfound]
  refine ⟨?_, (by intros; contradiction)⟩
  show (row.bytes : Int) = charge.of .candidate
  rw [← hkind.1]
  exact hcandidate.bytes

/-- **Every call keeps the charges.** -/
theorem AllCharged.plan (h : AllCharged charge l.image) {op : Op} (hop : Charges charge op)
    {answer : Answer} {image : Option Image} (hplan : l.plan op = .ok (answer, image)) :
    ∀ new ∈ image, AllCharged charge new := by
  have hnone : image = none → ∀ new ∈ image, AllCharged charge new := by
    rintro rfl new hnew
    cases hnew
  have hsome : ∀ {index epoch row row'}, Holds l.image index epoch row →
      image = some (l.image.replace index epoch (some row')) →
      row'.kind = row.kind → row'.workerBytes = row.workerBytes →
      row'.parentBytes = row.parentBytes → row'.sharedBytes = row.sharedBytes →
      ∀ new ∈ image, AllCharged charge new := by
    intro index epoch row row' hrow himage hk hw hp hs new hnew
    rw [himage] at hnew
    rw [← Option.some.inj hnew]
    exact h.rewrite hrow hk hw hp hs
  cases op <;> simp only [Ledger.plan, map_eq_ok, Prod.exists, Prod.map_apply, id_eq,
    Prod.mk.injEq, Except.ok.injEq] at hplan
  case status => exact hnone hplan.2.symm
  all_goals
    obtain ⟨a, image', hplan, -, himage⟩ := hplan
    subst himage
  case reserveCandidate =>
    simp only [Ledger.reserveCandidate, bind_eq_ok] at hplan
    obtain ⟨_, -, d, -, s, hs, hplan⟩ := hplan
    rw [show _ = Arg.int charge.candidate from hop] at hs
    refine h.reserve ?_ hplan
    refine ⟨?_, (by intros; contradiction)⟩
    show ((0 + 0 + s : Nat) : Int) = charge.candidate
    rw [← number_value hs]
    omega
  case reserveAuxiliary =>
    simp only [Ledger.reserveAuxiliary, bind_eq_ok] at hplan
    obtain ⟨_, -, s, hs, hplan⟩ := hplan
    rw [show _ = Arg.int charge.auxiliary from hop] at hs
    refine h.reserve ?_ hplan
    refine ⟨?_, (by intros; contradiction)⟩
    show ((0 + 0 + s : Nat) : Int) = charge.auxiliary
    rw [← number_value hs]
    omega
  case publish => exact h.publish hplan
  case reserveSession =>
    simp only [Ledger.reserveSession, bind_eq_ok, refuseIf_eq_ok] at hplan
    obtain ⟨_, -, ⟨index, epoch, row⟩, -, -, -, w, hw, p, hp, hplan⟩ := hplan
    rw [show _ = Arg.int charge.worker from hop.1] at hw
    rw [show _ = Arg.int charge.parent from hop.2] at hp
    refine h.reserve ?_ hplan
    refine ⟨?_, fun _ => number_value hp⟩
    show ((w + p + 0 : Nat) : Int) = charge.worker + charge.parent
    rw [← number_value hw, ← number_value hp]
    omega
  case markLive =>
    simp only [Ledger.markLive, bind_eq_ok, pure_eq_ok, Prod.mk.injEq] at hplan
    obtain ⟨-, -, ⟨index, epoch, row⟩, hrow, -, -, -, himage⟩ := hplan
    exact hsome (entry_ok hrow).2 himage.symm rfl rfl rfl rfl
  case adoptSession =>
    simp only [Ledger.adoptSession, bind_eq_ok, pure_eq_ok, Prod.mk.injEq] at hplan
    obtain ⟨-, -, ⟨index, epoch, row⟩, hrow, -, -, -, himage⟩ := hplan
    exact hsome (entry_ok hrow).2 himage.symm rfl rfl rfl rfl
  case beginDrain =>
    simp only [Ledger.beginDrain, bind_eq_ok] at hplan
    obtain ⟨-, -, ⟨index, epoch, row⟩, hrow, hplan⟩ := hplan
    split at hplan <;> simp only [pure_eq_ok, Prod.mk.injEq] at hplan
    · exact hsome (entry_ok hrow).2 hplan.2.symm rfl rfl rfl rfl
    · exact hnone hplan.2.symm
  case beginOutput =>
    simp only [Ledger.beginOutput, bind_eq_ok, pure_eq_ok, Prod.mk.injEq] at hplan
    obtain ⟨-, -, f, -, o, -, -, -, ⟨index, epoch, row⟩, hrow, -, -, -, -, -, himage⟩ := hplan
    exact hsome (entry_ok hrow).2 himage.symm rfl rfl rfl rfl
  case endOutput =>
    unfold Ledger.endOutput at hplan
    simp only [bind_eq_ok] at hplan
    obtain ⟨-, -, hplan⟩ := hplan
    split at hplan
    · simp only [bind_eq_ok, refuseIf_eq_ok] at hplan
      obtain ⟨_, -, _, -, _, -, ⟨index, epoch, row⟩, hrow, -, -, hplan⟩ := hplan
      split at hplan
      · simp only [pure_eq_ok, Prod.mk.injEq] at hplan
        exact hnone hplan.2.symm
      · simp only [bind_eq_ok] at hplan
        obtain ⟨-, -, hplan⟩ := hplan
        split at hplan
        · simp only [pure_eq_ok, Prod.mk.injEq] at hplan
          exact hsome (entry_ok hrow).2 hplan.2.symm rfl rfl rfl rfl
        · split at hplan <;> simp only [pure_eq_ok, Prod.mk.injEq] at hplan
          · exact hsome (entry_ok hrow).2 hplan.2.symm rfl rfl rfl rfl
          · exact hnone hplan.2.symm
    · simp at hplan
  case retain =>
    simp only [Ledger.retain, bind_eq_ok] at hplan
    obtain ⟨-, -, ⟨index, epoch, row⟩, hrow, hplan⟩ := hplan
    split at hplan <;> simp only [pure_eq_ok, Prod.mk.injEq] at hplan
    · exact hsome (entry_ok hrow).2 hplan.2.symm rfl rfl rfl rfl
    · exact hnone hplan.2.symm
  case release =>
    simp only [Ledger.release, bind_eq_ok] at hplan
    obtain ⟨-, -, hplan⟩ := hplan
    split at hplan
    · simp at hplan
    · simp only [bind_eq_ok] at hplan
      obtain ⟨⟨index, slot⟩, hloc, hplan⟩ := hplan
      split at hplan
      · simp only [pure_eq_ok, Prod.mk.injEq] at hplan
        exact hnone hplan.2.symm
      · rename_i row hentry
        have hholds : Holds l.image index slot.epoch row := by
          unfold Holds
          rw [(locate_ok hloc).2, ← hentry]
        simp only [bind_eq_ok] at hplan
        obtain ⟨-, -, hplan⟩ := hplan
        split at hplan
        · split at hplan <;> simp only [pure_eq_ok, Prod.mk.injEq] at hplan
          · exact hsome hholds hplan.2.symm rfl rfl rfl rfl
          · exact hnone hplan.2.symm
        · simp only [pure_eq_ok, Prod.mk.injEq] at hplan
          obtain ⟨-, rfl⟩ := hplan
          intro new hnew
          rw [← Option.some.inj hnew]
          exact h.clear
  case beginShutdown =>
    simp only [Ledger.beginShutdown, bind_eq_ok] at hplan
    obtain ⟨-, -, hplan⟩ := hplan
    split at hplan <;> simp only [pure_eq_ok, Prod.mk.injEq] at hplan
    · obtain ⟨-, rfl⟩ := hplan
      intro new hnew
      rw [← Option.some.inj hnew]
      exact h
    · exact hnone hplan.2.symm
  case finishShutdown =>
    simp only [Ledger.finishShutdown, bind_eq_ok] at hplan
    obtain ⟨-, -, -, -, -, -, hplan⟩ := hplan
    split at hplan <;> simp only [pure_eq_ok, Prod.mk.injEq] at hplan
    · obtain ⟨-, rfl⟩ := hplan
      intro new hnew
      rw [← Option.some.inj hnew]
      exact h
    · exact hnone hplan.2.symm

end OneCall

/-! ### The bytes in use -/

/-- The reservations of an image are those its slots hold. -/
theorem mem_entries {image : Image} {row : ReservationView} :
    row ∈ image.entries ↔ ∃ i e, Holds image i e row := by
  simp only [Image.entries, List.mem_filterMap, Holds]
  constructor
  · rintro ⟨⟨e, entry⟩, hslot, rfl⟩
    obtain ⟨i, hi⟩ := List.mem_iff_getElem?.mp hslot
    exact ⟨i, e, hi⟩
  · rintro ⟨i, e, hi⟩
    exact ⟨_, List.mem_of_getElem? hi, rfl⟩

/-- The charges of a list of reservations, by kind. -/
theorem sum_charged {charge : Charge} {rows : List ReservationView}
    (h : ∀ row ∈ rows, Charged charge row) :
    (((rows.map (·.bytes)).sum : Nat) : Int) =
      rows.countP (·.kind = .session) * (charge.worker + charge.parent)
      + (rows.countP (·.kind = .candidate) + rows.countP (·.kind = .generation)) * charge.candidate
      + rows.countP (·.kind = .auxiliary) * charge.auxiliary := by
  induction rows with
  | nil => simp
  | cons row rows ih =>
      have hrow := (h row (List.mem_cons_self ..)).bytes
      have hrest := ih fun r hr => h r (List.mem_cons_of_mem _ hr)
      rw [List.map_cons, List.sum_cons, Nat.cast_add, hrow, hrest]
      simp only [List.countP_cons]
      cases row.kind <;> simp [Charge.of] <;> ring

/-- Every reservation is of one of the four kinds. -/
theorem length_eq_counts (rows : List ReservationView) :
    rows.length = rows.countP (·.kind = .session) + rows.countP (·.kind = .candidate)
      + rows.countP (·.kind = .generation) + rows.countP (·.kind = .auxiliary) := by
  induction rows with
  | nil => rfl
  | cons row rows ih =>
      simp only [List.length_cons, List.countP_cons]
      cases row.kind <;> simp <;> omega

/-- The image is within the limits on the counts of the four kinds. -/
structure WithinCounts (limits : BudgetLimits) (image : Image) : Prop where
  sessions : image.count .session ≤ min limits.sessions limits.workers
  candidates : image.count .candidate ≤ limits.candidates
  generations : image.count .generation ≤ limits.generations
  auxiliaries : image.count .auxiliary ≤ limits.auxiliaries

/-- The call is refused for lack of total bytes: what it wants to publish is within every count
and over the total. -/
def Short (l : Ledger) (op : Op) : Prop :=
  ∃ answer new, l.plan op = .ok (answer, some new) ∧ WithinCounts l.limits new ∧
    l.limits.totalBytes < l.used new

/-- A mix within the limits of `s` sessions, `n` credits of candidates (published or not) and `a`
auxiliaries. There is no session without a generation. -/
structure Mix (limits : BudgetLimits) (s n a : Nat) : Prop where
  sessions : s ≤ min limits.sessions limits.workers
  credits : n ≤ limits.candidates + limits.generations
  auxiliaries : a ≤ limits.auxiliaries
  entries : s + n + a ≤ limits.entries
  served : 0 < s → 0 < n

/-- The bytes in use under a mix. -/
def mixBytes (charge : Charge) (limits : BudgetLimits) (s n a : Nat) : Int :=
  limits.baseBytes + limits.headroomBytes + s * (charge.worker + charge.parent)
    + n * charge.candidate + a * charge.auxiliary

/-- No mix within the limits costs more than the total. -/
def MixesFit (charge : Charge) (limits : BudgetLimits) : Prop :=
  ∀ s n a, Mix limits s n a → mixBytes charge limits s n a ≤ limits.totalBytes

/-- The bytes in use are those of the mix in the image. -/
theorem used_eq {charge : Charge} {l : Ledger} {image : Image} (h : AllCharged charge image) :
    (l.used image : Int) = mixBytes charge l.limits (image.count .session)
      (image.count .candidate + image.count .generation) (image.count .auxiliary) := by
  have hsum : (((image.entries.map (·.bytes)).sum : Nat) : Int) = _ :=
    sum_charged fun row hrow => by
      obtain ⟨i, e, hheld⟩ := mem_entries.mp hrow
      exact h i e row hheld
  rw [Ledger.used, mixBytes, Nat.cast_add, Nat.cast_add, hsum]
  simp only [Image.count]
  push_cast
  ring

/-- What an image holds is a mix: a session's generation is in the image. -/
theorem mix_of_within {limits : BudgetLimits} {image : Image} (hcoherent : Coherent image)
    (hslots : image.slots.length = limits.entries) (h : WithinCounts limits image) :
    Mix limits (image.count .session) (image.count .candidate + image.count .generation)
      (image.count .auxiliary) where
  sessions := h.sessions
  credits := Nat.add_le_add h.candidates h.generations
  auxiliaries := h.auxiliaries
  entries := by
    have hlength := length_eq_counts image.entries
    have hle : image.entries.length ≤ image.slots.length := List.length_filterMap_le ..
    simp only [Image.count]
    omega
  served := by
    intro hpos
    obtain ⟨row, hrow, hkind⟩ := List.countP_pos_iff.mp hpos
    obtain ⟨i, e, hheld⟩ := mem_entries.mp hrow
    obtain ⟨g, gen, -, hgen, hgk, -⟩ := hcoherent.refers i e row hheld (of_decide_eq_true hkind)
    have : 0 < image.count .generation :=
      List.countP_pos_iff.mpr ⟨gen, mem_entries.mpr ⟨g, _, hgen⟩, decide_eq_true hgk⟩
    omega

/-! ### Runs -/

/-- What a run of callers with fixed charges keeps. -/
structure Charging (charge : Charge) (limits : BudgetLimits) (l : Ledger) : Prop where
  own : l.limits = limits
  charged : AllCharged charge l.image
  slots : l.image.slots.length = limits.entries
  sound : Sound l

/-- No call changes the limits. -/
theorem limits_step (faults : Faults) (l : Ledger) (op : Op) :
    (l.step faults op).2.limits = l.limits := by
  have hstep := stepped faults l op
  generalize l.step faults op = result at hstep
  cases hstep <;> rfl

/-- A new ledger has no reservations. -/
theorem charging_init {charge : Charge} {owner : Nat} {limits : BudgetLimits}
    {datasources : List DatasourceCapacity} {l₀ : Ledger}
    (h₀ : Ledger.init owner limits datasources = .ok l₀) : Charging charge limits l₀ := by
  have hsound := sound_init h₀
  have hnot := not_holds_init h₀
  simp only [Ledger.init, ite_else_error_eq_ok, Except.ok.injEq] at h₀
  obtain ⟨-, rfl⟩ := h₀
  exact ⟨rfl, fun i e row hrow => absurd hrow (hnot i e row), List.length_replicate, hsound⟩

/-- The image after a call is the old one or the planned one. -/
theorem image_step (faults : Faults) (l : Ledger) (op : Op) :
    (l.step faults op).2.image = l.image ∨
    ∃ answer new, l.plan op = .ok (answer, some new) ∧ (l.step faults op).2.image = new := by
  unfold Ledger.step Ledger.perform
  split
  · exact Or.inl rfl
  · exact Or.inl rfl
  · rename_i answer new hplan
    have hcommit : (l.commit faults new).2.image = l.image ∨ (l.commit faults new).2.image = new := by
      unfold Ledger.commit
      split
      · exact Or.inl rfl
      · cases faults.write <;> cases faults.restore <;> simp [Fault.apply]
    generalize l.commit faults new = committed at hcommit
    obtain ⟨result, l'⟩ := committed
    cases result <;> exact hcommit.imp id fun himage => ⟨answer, new, hplan, himage⟩

/-- One call of a caller with fixed charges. -/
theorem Charging.step {charge : Charge} {limits : BudgetLimits} {l : Ledger}
    (h : Charging charge limits l) (faults : Faults) {op : Op} (hop : Charges charge op) :
    Charging charge limits (l.step faults op).2 where
  own := (limits_step ..).trans h.own
  charged := by
    rcases image_step faults l op with hsame | ⟨answer, new, hplan, himage⟩
    · rw [hsame]
      exact h.charged
    · rw [himage]
      exact h.charged.plan hop hplan new rfl
  slots := (aged_step ..).length.trans h.slots
  sound := h.sound.step faults op

/-- A run of callers with fixed charges. -/
theorem Charging.run {charge : Charge} {limits : BudgetLimits} {l : Ledger}
    (h : Charging charge limits l) {calls : List (Faults × Op)}
    (hcalls : ∀ call ∈ calls, Charges charge call.2) : Charging charge limits (l.run calls) := by
  induction calls generalizing l with
  | nil => exact h
  | cons call calls ih =>
      refine ih (h.step call.1 (hcalls call (List.mem_cons_self ..))) fun c hc => ?_
      exact hcalls c (List.mem_cons_of_mem _ hc)

/-- **A call that is short of bytes shows a mix that is too dear.** -/
theorem Charging.mix_of_short {charge : Charge} {limits : BudgetLimits} {l : Ledger}
    (h : Charging charge limits l) {op : Op} (hop : Charges charge op) (hshort : Short l op) :
    ∃ s n a, Mix limits s n a ∧ limits.totalBytes < mixBytes charge limits s n a := by
  obtain ⟨answer, new, hplan, hwithin, hover⟩ := hshort
  -- a failed ledger plans nothing
  have hopen : l.failure = none := by
    by_contra hfailed
    rw [plan_failed hfailed (by rintro rfl; cases hplan)] at hplan
    cases hplan
  have hnew : Coherent new := (h.sound hopen).2.change (change_of_plan hplan)
  have hslots : new.slots.length = limits.entries :=
    ((Written.aged (planned_of_plan hplan)).length).trans h.slots
  rw [h.own] at hwithin hover
  refine ⟨_, _, _, mix_of_within hnew hslots hwithin, ?_⟩
  rw [← h.own, ← used_eq (h.charged.plan hop hplan new rfl), h.own]
  exact_mod_cast hover

end MaskGateway.Proofs.Budget
