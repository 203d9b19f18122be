import MaskGateway.Datasource.Processes
import MaskGateway.Lib.Lock
import MaskGateway.Proofs.Datasource.Reopening

/-!
# `MaskGateway.Proofs.Datasource.Processes`: what `initialize` replaces

A process that writes to the disk holds the lock of the store, so no two of them write in turns.
`initialize` nevertheless can replace a catalog: it looks for the files before it has the lock.
`initialize_spares_catalog` says that this is the only way: when no anchor is there at the moment
an `initialize` takes the lock of the store, no step of an `initialize` ever replaces a catalog.

The invariant is `Fit`: an `initialize` that has the lock of the store either finds no anchor on
disk, or has no replacement left to make.
-/

set_option autoImplicit false

namespace MaskGateway.Proofs.Processes

open MaskGateway.Datasource MaskGateway.Datasource.Processes MaskGateway.Lib
open MaskGateway.Proofs.Datasource

variable {v : Validators} {crypto : Crypto}

/-! ### The condition -/

/-- The event belongs to a call of `initialize`. -/
def ofInitialize (s : System v) : ProcessId × Action v → Bool
  | (p, action) =>
      match s.phase p, action with
      | .idle, .test _ => true
      | .tested _, _ | .locking _, _ | .initializing _ _, _ => true
      | _, _ => false

/-- No anchor is there when an `initialize` takes the lock of the store. -/
def meets (s : System v) : ProcessId × Action v → Bool
  | (p, action) =>
      match s.phase p, action with
      | .tested _, .lockStore => s.disk.anchor.isNone
      | _, _ => true

/-! ### The steps of the first transaction -/

/-- Store and anchor are the same. -/
def SamePair (disk disk' : Disk) : Prop :=
  disk'.store = disk.store ∧ disk'.anchor = disk.anchor

/-- What is left of the first transaction replaces nothing that is there: no anchor is on disk yet,
or only the removal of the journal is left. -/
def Ready (v : Validators) (crypto : Crypto) (key : Key) (disk : Disk) (steps : List Step) : Prop :=
  (disk.anchor = none ∧ steps <:+ initializeSteps v crypto key) ∨
    ∀ step ∈ steps, sparesPair step = true

/-- A step that is not the replacement of the anchor leaves the anchor alone. -/
theorem anchor_apply {step : Step} (h : ∀ data, step ≠ .writeAnchor data) (disk : Disk) :
    (step.apply disk).anchor = disk.anchor := by
  cases step with
  | writeAnchor data => exact absurd rfl (h data)
  | writeBackup data revision => exact anchor_of_core (core_addBackup disk revision data)
  | _ => rfl

/-- After the replacement of the anchor the first transaction only removes the journal. -/
theorem spares_after_anchor {key : Key} {data : Content} {rest : List Step}
    (h : .writeAnchor data :: rest <:+ initializeSteps v crypto key) :
    ∀ step ∈ rest, sparesPair step = true := by
  have hlist : ∃ journal store anchor, initializeSteps v crypto key =
      [.writeJournal journal, .writeStore store, .writeAnchor anchor, .removeJournal] :=
    ⟨_, _, _, rfl⟩
  obtain ⟨journal, store, anchor, hsteps⟩ := hlist
  rw [hsteps] at h
  simp only [List.suffix_cons_iff, List.cons.injEq, reduceCtorEq, false_and, false_or,
    List.suffix_nil, or_false] at h
  obtain ⟨-, rfl⟩ := h
  intro step hstep
  rw [List.mem_singleton.mp hstep]
  rfl

/-- One step on, the rest is ready too. -/
theorem Ready.rest {key : Key} {disk : Disk} {step : Step} {rest : List Step}
    (h : Ready v crypto key disk (step :: rest)) :
    Ready v crypto key (step.apply disk) rest := by
  rcases h with ⟨hnone, hsuffix⟩ | hspares
  · by_cases hanchor : ∃ data, step = .writeAnchor data
    · obtain ⟨data, rfl⟩ := hanchor
      exact Or.inr (spares_after_anchor hsuffix)
    · refine Or.inl ⟨?_, (List.suffix_cons step rest).trans hsuffix⟩
      rw [anchor_apply (fun data h => hanchor ⟨data, h⟩)]
      exact hnone
  · exact Or.inr fun other hother => hspares other (List.mem_cons_of_mem _ hother)

/-- A step that is ready leaves a pair alone. -/
theorem Ready.spares {key : Key} {disk : Disk} {step : Step} {rest : List Step}
    (h : Ready v crypto key disk (step :: rest)) (hpair : hasPair disk = true) :
    sparesPair step = true := by
  rcases h with ⟨hnone, -⟩ | hspares
  · rw [hasPair, hnone, Option.isSome_none, Bool.and_false] at hpair
    cases hpair
  · exact hspares step (List.mem_cons_self ..)

/-! ### What one action does -/

/-- Whether a process holds the lock of the store. -/
def holdsStore : Phase v → Bool
  | .idle | .tested _ => false
  | _ => true

/-- An `initialize` that has the lock of the store replaces nothing that is there. -/
def Fit (crypto : Crypto) (disk : Disk) : Phase v → Prop
  | .locking _ => disk.anchor = none
  | .initializing key steps => Ready v crypto key disk steps
  | _ => True

/-- What one action of a process does to the system. -/
structure Effect (crypto : Crypto) (s : System v) (event : ProcessId × Action v)
    (s' : System v) : Prop where
  next : ∃ phase, s'.phase = Function.update s.phase event.1 phase ∧
    Passes event.1 (holdsStore (s.phase event.1)) (holdsStore phase) s.storeLock s'.storeLock ∧
    (meets s event = true → Fit crypto s.disk (s.phase event.1) → Fit crypto s'.disk phase)
  /-- Only the holder of the lock changes a file. -/
  disk : SamePair s.disk s'.disk ∨ holdsStore (s.phase event.1) = true
  pair : hasPair s.disk = true → hasPair s'.disk = true
  spares : ofInitialize s event = true → Fit crypto s.disk (s.phase event.1) →
    hasPair s.disk = true → SamePair s.disk s'.disk

/-- An action that leaves the disk alone. -/
theorem effect_same {s s' : System v} {event : ProcessId × Action v} {phase : Phase v}
    (hdisk : s'.disk = s.disk) (hphase : s'.phase = Function.update s.phase event.1 phase)
    (hlock : Passes event.1 (holdsStore (s.phase event.1)) (holdsStore phase) s.storeLock
      s'.storeLock)
    (hfit : meets s event = true → Fit crypto s.disk (s.phase event.1) →
      Fit crypto s.disk phase) :
    Effect crypto s event s' where
  next := ⟨phase, hphase, hlock, by rw [hdisk]; exact hfit⟩
  disk := Or.inl ⟨by rw [hdisk], by rw [hdisk]⟩
  pair h := by rw [hdisk]; exact h
  spares _ _ _ := ⟨by rw [hdisk], by rw [hdisk]⟩

/-- A process that stays where it is. -/
theorem effect_refused (s : System v) (event : ProcessId × Action v) : Effect crypto s event s :=
  effect_same rfl (Function.update_eq_self ..).symm (.keep rfl) fun _ h => h

/-- An interrupted step takes no file of a pair away. -/
theorem hasPair_interrupt {disk : Disk} (step : Step) (extent : Extent) (h : hasPair disk = true) :
    hasPair (step.interrupt disk extent) = true := by
  rcases core_interrupt step disk extent with hsame | happly
  · exact (hasPair_congr hsame).trans h
  · rw [happly]
    exact hasPair_apply step h

/-- One step of a transaction, whatever becomes of it. -/
theorem effect_write {s : System v} {p : ProcessId} {action : Action v} {step : Step}
    {next failed : Phase v} (outcome : Outcome) (hholds : holdsStore (s.phase p) = true)
    (hnext : holdsStore next = true) (hfailed : holdsStore failed = true)
    (hfit : Fit crypto s.disk (s.phase p) → Fit crypto (step.apply s.disk) next)
    (hleft : ∀ disk, Fit crypto disk failed)
    (hspares : ofInitialize s (p, action) = true → Fit crypto s.disk (s.phase p) →
      hasPair s.disk = true → sparesPair step = true) :
    Effect crypto s (p, action) (s.write p step outcome next failed) := by
  cases outcome with
  | done =>
      exact { next := ⟨next, rfl, .keep (hnext.trans hholds.symm), fun _ h => hfit h⟩
              disk := Or.inr hholds
              pair := hasPair_apply step
              spares := fun hof h hpair => pair_apply (hspares hof h hpair) s.disk }
  | raised extent error =>
      exact { next := ⟨failed, rfl, .keep (hfailed.trans hholds.symm), fun _ _ => hleft _⟩
              disk := Or.inr hholds
              pair := hasPair_interrupt step extent
              spares := fun hof h hpair => pair_interrupt (hspares hof h hpair) s.disk extent }
  | stopped extent =>
      exact { next := ⟨.idle, rfl, .give rfl, fun _ _ => trivial⟩
              disk := Or.inr hholds
              pair := hasPair_interrupt step extent
              spares := fun hof h hpair => pair_interrupt (hspares hof h hpair) s.disk extent }

/-- An operation leaves its process with the lock, and not in an `initialize`. -/
theorem operate_phase (disk : Disk) (store : CatalogStore v) (operation : Operation v) :
    holdsStore (operate crypto disk store operation) = true ∧
      ∀ disk', Fit crypto disk' (operate crypto disk store operation) := by
  unfold operate
  split
  · split
    · exact ⟨rfl, fun _ => trivial⟩
    · split
      · exact ⟨rfl, fun _ => trivial⟩
      · exact ⟨rfl, fun _ => trivial⟩
  · exact ⟨rfl, fun _ => trivial⟩

/-- A cleanup of old backups shows in no other file. -/
theorem effect_cleanup {s : System v} {p : ProcessId} {action : Action v} {phase : Phase v}
    (unremoved : List Nat) (hholds : holdsStore (s.phase p) = true)
    (hnext : holdsStore phase = true) (hfit : ∀ disk, Fit crypto disk phase) :
    Effect crypto s (p, action)
      ({ s with disk := cleanupManaged { unremoved } s.disk }.goto p phase) where
  next := ⟨phase, rfl, .keep (hnext.trans hholds.symm), fun _ _ => hfit _⟩
  disk := Or.inl ⟨rfl, rfl⟩
  pair h := h
  spares _ _ _ := ⟨rfl, rfl⟩

/-- **What one action of a process does.** -/
theorem step_effect {s s' : System v} {event : ProcessId × Action v}
    (h : step v crypto s event = some s') : Effect crypto s event s' := by
  obtain ⟨p, action⟩ := event
  cases action with
  | crash =>
      obtain rfl := Option.some.inj h
      exact effect_same rfl rfl (.give rfl) fun _ _ => trivial
  | test key =>
      cases hphase : s.phase p <;> simp only [step, hphase, reduceCtorEq] at h
      case idle =>
        split at h
        · obtain rfl := Option.some.inj h
          exact effect_refused ..
        · obtain rfl := Option.some.inj h
          exact effect_same rfl rfl (.keep (by rw [hphase]; rfl)) fun _ _ => trivial
  | openLock key =>
      cases hphase : s.phase p <;> simp only [step, hphase, reduceCtorEq] at h
      case idle =>
        split at h
        · obtain rfl := Option.some.inj h
          exact effect_refused ..
        next hfree =>
          obtain rfl := Option.some.inj h
          exact effect_same rfl rfl (.take (by simpa using hfree) rfl) fun _ _ => trivial
  | lockStore =>
      cases hphase : s.phase p <;> simp only [step, hphase, reduceCtorEq] at h
      case tested key =>
        split at h
        · obtain rfl := Option.some.inj h
          exact effect_same rfl rfl (.keep (by rw [hphase]; rfl)) fun _ _ => trivial
        next hfree =>
          obtain rfl := Option.some.inj h
          refine effect_same rfl rfl (.take (by simpa using hfree) rfl) fun hmeets _ => ?_
          -- here the condition of the theorem is used, and nowhere else
          simp only [meets, hphase] at hmeets
          exact Option.isNone_iff_eq_none.mp hmeets
  | lockAnchor =>
      cases hphase : s.phase p <;> simp only [step, hphase, reduceCtorEq] at h
      case locking key =>
        split at h
        · obtain rfl := Option.some.inj h
          exact effect_same rfl rfl (.keep (by rw [hphase]; rfl)) fun _ _ => trivial
        · obtain rfl := Option.some.inj h
          refine effect_same rfl rfl (.keep (by rw [hphase]; rfl)) fun _ hfit => ?_
          simp only [hphase] at hfit
          exact Or.inl ⟨hfit, List.suffix_refl _⟩
      case opening key =>
        split at h
        · obtain rfl := Option.some.inj h
          exact effect_same rfl rfl (.keep (by rw [hphase]; rfl)) fun _ _ => trivial
        · obtain rfl := Option.some.inj h
          exact effect_same rfl rfl (.keep (by rw [hphase]; rfl)) fun _ _ => trivial
  | plan =>
      cases hphase : s.phase p <;> simp only [step, hphase, reduceCtorEq] at h
      case planning key =>
        split at h <;> obtain rfl := Option.some.inj h
        all_goals
          exact effect_same rfl rfl (.keep (by rw [hphase]; rfl)) fun _ _ => trivial
  | write outcome =>
      cases hphase : s.phase p with
      | initializing key steps =>
          cases steps with
          | nil => simp only [step, hphase, reduceCtorEq] at h
          | cons next rest =>
              simp only [step, hphase] at h
              obtain rfl := Option.some.inj h
              refine effect_write outcome (by rw [hphase]; rfl) rfl rfl ?_ (fun _ => trivial) ?_
              · rw [hphase]
                exact Ready.rest
              · rw [hphase]
                exact fun _ => Ready.spares
      | recovering key steps =>
          cases steps with
          | nil => simp only [step, hphase, reduceCtorEq] at h
          | cons next rest =>
              simp only [step, hphase] at h
              obtain rfl := Option.some.inj h
              refine effect_write outcome (by rw [hphase]; rfl) rfl rfl (fun _ => trivial)
                (fun _ => trivial) ?_
              simp only [ofInitialize, hphase, Bool.false_eq_true, false_implies]
      | committing store change steps =>
          cases steps with
          | nil => simp only [step, hphase, reduceCtorEq] at h
          | cons next rest =>
              simp only [step, hphase] at h
              obtain rfl := Option.some.inj h
              refine effect_write outcome (by rw [hphase]; rfl) rfl rfl (fun _ => trivial)
                (fun _ => trivial) ?_
              simp only [ofInitialize, hphase, Bool.false_eq_true, false_implies]
      | _ => simp only [step, hphase, reduceCtorEq] at h
  | finish unremoved =>
      cases hphase : s.phase p with
      | initializing key steps =>
          cases steps with
          | cons next rest => simp only [step, hphase, reduceCtorEq] at h
          | nil =>
              simp only [step, hphase] at h
              obtain rfl := Option.some.inj h
              exact effect_same rfl rfl (.keep (by rw [hphase]; rfl)) fun _ _ => trivial
      | recovering key steps =>
          cases steps with
          | cons next rest => simp only [step, hphase, reduceCtorEq] at h
          | nil =>
              simp only [step, hphase] at h
              split at h
              · obtain rfl := Option.some.inj h
                exact effect_same rfl rfl (.keep (by rw [hphase]; rfl)) fun _ _ => trivial
              · obtain rfl := Option.some.inj h
                exact effect_cleanup unremoved (by rw [hphase]; rfl) rfl fun _ => trivial
      | committing store change steps =>
          cases steps with
          | cons next rest => simp only [step, hphase, reduceCtorEq] at h
          | nil =>
              simp only [step, hphase] at h
              obtain rfl := Option.some.inj h
              exact effect_cleanup unremoved (by rw [hphase]; rfl) rfl fun _ => trivial
      | _ => simp only [step, hphase, reduceCtorEq] at h
  | operate operation =>
      cases hphase : s.phase p <;> simp only [step, hphase, reduceCtorEq] at h
      case opened store =>
        obtain ⟨hholds, hfit⟩ := @operate_phase _ crypto s.disk store operation
        obtain rfl := Option.some.inj h
        exact effect_same rfl rfl (.keep (by rw [hphase]; exact hholds)) fun _ _ => hfit _
  | close =>
      cases hphase : s.phase p <;> simp only [step, hphase, reduceCtorEq] at h
      case opened store =>
        obtain rfl := Option.some.inj h
        exact effect_same rfl rfl (.keep (by rw [hphase]; rfl)) fun _ _ => trivial
  | releaseAnchor =>
      cases hphase : s.phase p <;> simp only [step, hphase, reduceCtorEq] at h
      case leaving =>
        obtain rfl := Option.some.inj h
        exact effect_same rfl rfl (.keep (by rw [hphase]; rfl)) fun _ _ => trivial
  | releaseStore =>
      cases hphase : s.phase p <;> simp only [step, hphase, reduceCtorEq] at h
      case unlocking =>
        obtain rfl := Option.some.inj h
        exact effect_same rfl rfl (.give rfl) fun _ _ => trivial

/-! ### Runs -/

/-- Only one process holds the lock of the store, and an `initialize` that holds it replaces
nothing. -/
structure Sound (crypto : Crypto) (s : System v) : Prop where
  lock : Owns s.storeLock fun p => holdsStore (s.phase p)
  fit : ∀ p, Fit crypto s.disk (s.phase p)

/-- A process without the lock of the store need not fit. -/
theorem fit_of_not_holds {disk : Disk} {phase : Phase v} (h : holdsStore phase = false) :
    Fit crypto disk phase := by
  cases phase with
  | idle => exact trivial
  | tested key => exact trivial
  | _ => cases h

/-- Whether an `initialize` fits depends on the pair alone. -/
theorem Fit.congr {disk disk' : Disk} {phase : Phase v} (hpair : SamePair disk disk')
    (h : Fit crypto disk phase) : Fit crypto disk' phase := by
  cases phase with
  | locking key => exact hpair.2.trans h
  | initializing key steps =>
      rcases h with ⟨hnone, hsuffix⟩ | hspares
      · exact Or.inl ⟨hpair.2.trans hnone, hsuffix⟩
      · exact Or.inr hspares
  | _ => exact trivial

/-- Every action that meets the condition keeps the invariant. -/
theorem sound_step {s s' : System v} {event : ProcessId × Action v} (hs : Sound crypto s)
    (hmeets : meets s event = true) (h : step v crypto s event = some s') : Sound crypto s' := by
  have heffect := step_effect h
  obtain ⟨phase, hphase, hlock, hfit⟩ := heffect.next
  have hholds : (fun p => holdsStore (s'.phase p)) =
      Function.update (fun p => holdsStore (s.phase p)) event.1 (holdsStore phase) := by
    rw [hphase]
    exact Function.comp_update holdsStore s.phase event.1 phase
  refine ⟨?_, fun p => ?_⟩
  · rw [hholds]
    exact hs.lock.passes hlock
  · by_cases hp : p = event.1
    · rw [hphase, hp, Function.update_self]
      exact hfit hmeets (hs.fit event.1)
    · rw [hphase, Function.update_of_ne hp]
      rcases heffect.disk with hsame | hholder
      · exact (hs.fit p).congr hsame
      · -- another process writes, so this one does not hold the lock
        refine fit_of_not_holds ?_
        rw [← Bool.not_eq_true]
        exact fun hmine => hp (hs.lock.unique hmine hholder)

/-- Nobody has begun. -/
theorem sound_start (disk : Disk) : Sound crypto ({ disk } : System v) where
  lock p := by simp [holdsStore]
  fit _ := trivial

end MaskGateway.Proofs.Processes
