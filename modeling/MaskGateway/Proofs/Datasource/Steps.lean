import MaskGateway.Datasource.Operations

/-!
# `MaskGateway.Proofs.Datasource.Steps`: what a run of steps leaves on disk

`Leaves steps disk disk'` says that a run of the steps that starts on `disk` can end on `disk'`:
after all of them, or interrupted in one of them. Whatever the outcomes, `runSteps` ends on such
a disk (`runSteps_leaves`), and when it finishes, all steps took effect (`runSteps_finished`).

For the two lists that the store runs this is a finite table: `persist_leaves` for a transaction,
`recovery_leaves` for a recovery. Backups and the purge do not show in the three files that the
recovery reads (`Disk.core`), so a torn backup needs no case of its own.
-/

set_option autoImplicit false

namespace MaskGateway.Proofs.Datasource

open MaskGateway.Datasource

/-- The disk after all of the steps. -/
def applyAll (steps : List Step) (disk : Disk) : Disk :=
  steps.foldl (fun disk step => step.apply disk) disk

/-- The disks that a run of the steps can end on. -/
def Leaves : List Step → Disk → Disk → Prop
  | [], disk, disk' => disk' = disk
  | step :: rest, disk, disk' =>
      (∃ extent, disk' = step.interrupt disk extent) ∨ Leaves rest (step.apply disk) disk'

theorem runSteps_leaves (steps : List Step) :
    ∀ (outcomes : List Outcome) (attempted : Bool) (disk : Disk),
      Leaves steps disk (runSteps steps outcomes attempted disk).1 := by
  induction steps with
  | nil =>
      intro outcomes attempted disk
      rfl
  | cons step rest ih =>
      intro outcomes attempted disk
      rw [runSteps]
      cases outcomes.headD .done with
      | done => exact Or.inr (ih _ _ _)
      | raised extent error => exact Or.inl ⟨extent, rfl⟩
      | stopped extent => exact Or.inl ⟨extent, rfl⟩

theorem runSteps_finished (steps : List Step) :
    ∀ {outcomes : List Outcome} {attempted : Bool} {disk disk' : Disk},
      runSteps steps outcomes attempted disk = (disk', .finished) →
      disk' = applyAll steps disk := by
  induction steps with
  | nil =>
      intro outcomes attempted disk disk' h
      cases h
      rfl
  | cons step rest ih =>
      intro outcomes attempted disk disk' h
      rw [runSteps] at h
      cases hout : outcomes.headD .done with
      | done =>
          rw [hout] at h
          exact ih h
      | raised extent error =>
          rw [hout] at h
          cases h
      | stopped extent =>
          rw [hout] at h
          cases h

/-- A run may end after all of the steps. -/
theorem leaves_applyAll (steps : List Step) :
    ∀ disk : Disk, Leaves steps disk (applyAll steps disk) := by
  induction steps with
  | nil => exact fun _ => rfl
  | cons step rest ih => exact fun disk => Or.inr (ih (step.apply disk))

/-- Without faults every step is done. -/
theorem runSteps_no_faults (steps : List Step) :
    ∀ (attempted : Bool) (disk : Disk),
      runSteps steps [] attempted disk = (applyAll steps disk, .finished) := by
  induction steps with
  | nil =>
      intro attempted disk
      rfl
  | cons step rest ih =>
      intro attempted disk
      exact ih _ _

/-! ### The files that a recovery reads -/

/-- Journal, store and anchor. -/
def core (disk : Disk) : Option Content × Option Content × Option Content :=
  (disk.journal, disk.store, disk.anchor)

theorem journal_of_core {disk : Disk} {journal store anchor : Option Content}
    (h : core disk = (journal, store, anchor)) : disk.journal = journal :=
  congrArg Prod.fst h

theorem store_of_core {disk : Disk} {journal store anchor : Option Content}
    (h : core disk = (journal, store, anchor)) : disk.store = store :=
  congrArg (fun files => files.2.1) h

theorem anchor_of_core {disk : Disk} {journal store anchor : Option Content}
    (h : core disk = (journal, store, anchor)) : disk.anchor = anchor :=
  congrArg (fun files => files.2.2) h

theorem core_addBackup (disk : Disk) (revision : Nat) (data : Content) :
    core (disk.addBackup revision data) = core disk := by
  rw [Disk.addBackup]
  split <;> rfl

theorem core_cleanupManaged (faults : Faults) (disk : Disk) :
    core (cleanupManaged faults disk) = core disk :=
  rfl

/-- A step that did not return left the files as they were, or as the step makes them. -/
theorem core_interrupt (step : Step) (disk : Disk) (extent : Extent) :
    core (step.interrupt disk extent) = core disk ∨
      step.interrupt disk extent = step.apply disk := by
  cases extent with
  | before => exact Or.inl rfl
  | attempted => exact Or.inl rfl
  | after => exact Or.inr rfl
  | torn data =>
      cases step with
      | writeBackup old revision => exact Or.inl (core_addBackup disk revision data)
      | _ => exact Or.inl rfl
  | kept revisions => cases step <;> exact Or.inl rfl

/-- A run that starts with a step leaves the files as they were, or goes on after it. -/
theorem leaves_cons {step : Step} {rest : List Step} {disk disk' : Disk}
    (h : Leaves (step :: rest) disk disk') :
    core disk' = core disk ∨ disk' = step.apply disk ∨ Leaves rest (step.apply disk) disk' := by
  rcases h with ⟨extent, rfl⟩ | h
  · rcases core_interrupt step disk extent with hsame | happly
    · exact Or.inl hsame
    · exact Or.inr (Or.inl happly)
  · exact Or.inr (Or.inr h)

/-- A step that does not touch the three files can be passed over. -/
theorem leaves_quiet {step : Step} {rest : List Step} {disk disk' : Disk}
    (hquiet : core (step.apply disk) = core disk) (h : Leaves (step :: rest) disk disk') :
    core disk' = core disk ∨ Leaves rest (step.apply disk) disk' := by
  rcases leaves_cons h with hsame | rfl | h
  · exact Or.inl hsame
  · exact Or.inl hquiet
  · exact Or.inr h

/-- The end of both lists: a purge or none, then the journal goes. -/
theorem leaves_end {purge : Bool} {disk disk' : Disk}
    (h : Leaves ((if purge then [Step.purgeBackups] else []) ++ [Step.removeJournal]) disk disk') :
    core disk' = core disk ∨
      disk' = applyAll ((if purge then [Step.purgeBackups] else []) ++ [Step.removeJournal]) disk := by
  have hremove : ∀ {d}, Leaves [.removeJournal] d disk' →
      core disk' = core d ∨ disk' = applyAll [.removeJournal] d := by
    intro d h
    rcases leaves_cons h with hsame | rfl | h
    · exact Or.inl hsame
    · exact Or.inr rfl
    · exact Or.inr h
  cases purge with
  | false => exact hremove h
  | true =>
      rcases leaves_quiet rfl h with hsame | h
      · exact Or.inl hsame
      · exact hremove h

/-- **What a transaction can leave**: nothing new, the journal alone, the journal and the store,
all three files, or everything done. -/
theorem persist_leaves {journal : Journal} {data : Content} {anchor : Anchor}
    {backup : Option (Content × Nat)} {purge : Bool} {disk disk' : Disk}
    (h : Leaves (persistSteps journal data anchor backup purge) disk disk') :
    core disk' = core disk ∨
    core disk' = (some (journalContent journal), disk.store, disk.anchor) ∨
    core disk' = (some (journalContent journal), some data, disk.anchor) ∨
    core disk' = (some (journalContent journal), some data, some (anchorContent anchor)) ∨
    disk' = applyAll (persistSteps journal data anchor backup purge) disk := by
  -- the tail from the store on, on a disk that already has the journal
  have htail : ∀ d : Disk, core d = (some (journalContent journal), disk.store, disk.anchor) →
      Leaves ([Step.writeStore data, Step.writeAnchor (anchorContent anchor)] ++
        ((if purge then [Step.purgeBackups] else []) ++ [Step.removeJournal])) d disk' →
      core disk' = (some (journalContent journal), disk.store, disk.anchor) ∨
      core disk' = (some (journalContent journal), some data, disk.anchor) ∨
      core disk' = (some (journalContent journal), some data, some (anchorContent anchor)) ∨
      disk' = applyAll ([Step.writeStore data, Step.writeAnchor (anchorContent anchor)] ++
        ((if purge then [Step.purgeBackups] else []) ++ [Step.removeJournal])) d := by
    intro d hd h
    have hj : d.journal = some (journalContent journal) := journal_of_core hd
    have ha : d.anchor = disk.anchor := anchor_of_core hd
    have hstore : core ((Step.writeStore data).apply d) =
        (some (journalContent journal), some data, disk.anchor) := by
      rw [core, Step.apply, ← hj, ← ha]
    have hanchor : core ((Step.writeAnchor (anchorContent anchor)).apply
        ((Step.writeStore data).apply d)) =
        (some (journalContent journal), some data, some (anchorContent anchor)) := by
      rw [core, Step.apply, Step.apply, ← hj]
    rcases leaves_cons h with hsame | rfl | h
    · exact Or.inl (hsame.trans hd)
    · exact Or.inr (Or.inl hstore)
    rcases leaves_cons h with hsame | rfl | h
    · exact Or.inr (Or.inl (hsame.trans hstore))
    · exact Or.inr (Or.inr (Or.inl hanchor))
    rcases leaves_end h with hsame | hend
    · exact Or.inr (Or.inr (Or.inl (hsame.trans hanchor)))
    · exact Or.inr (Or.inr (Or.inr hend))
  rw [persistSteps, List.cons_append, List.cons_append, List.cons_append, List.append_assoc,
    List.append_assoc] at h ⊢
  rcases leaves_cons h with hsame | rfl | h
  · exact Or.inl hsame
  · exact Or.inr (Or.inl rfl)
  cases backup with
  | none => exact Or.inr (htail _ rfl h)
  | some backup =>
      have hquiet : core ((Step.writeBackup backup.1 backup.2).apply
          ((Step.writeJournal (journalContent journal)).apply disk)) =
          core ((Step.writeJournal (journalContent journal)).apply disk) :=
        core_addBackup _ backup.2 backup.1
      rcases leaves_quiet hquiet h with hsame | h
      · exact Or.inr (Or.inl hsame)
      · exact Or.inr (htail _ hquiet h)

/-- **What a recovery can leave**: nothing new, the anchor written, or everything done. -/
theorem recovery_leaves {plan : RecoveryPlan} {disk disk' : Disk}
    (h : Leaves plan.steps disk disk') :
    core disk' = core disk ∨
    (∃ anchor ∈ plan.advanceAnchor,
      core disk' = (disk.journal, disk.store, some (anchorContent anchor))) ∨
    disk' = applyAll plan.steps disk := by
  rw [RecoveryPlan.steps, List.append_assoc] at h ⊢
  cases hadvance : plan.advanceAnchor with
  | none =>
      rw [hadvance] at h
      rcases leaves_end h with hsame | hend
      · exact Or.inl hsame
      · exact Or.inr (Or.inr hend)
  | some anchor =>
      rw [hadvance] at h
      rcases leaves_cons h with hsame | rfl | h
      · exact Or.inl hsame
      · exact Or.inr (Or.inl ⟨anchor, rfl, rfl⟩)
      rcases leaves_end h with hsame | hend
      · exact Or.inr (Or.inl ⟨anchor, rfl, hsame⟩)
      · exact Or.inr (Or.inr hend)

/-- The three files after a whole transaction. -/
theorem core_applyAll_persist {journal : Journal} {data : Content} {anchor : Anchor}
    {backup : Option (Content × Nat)} {purge : Bool} (disk : Disk) :
    core (applyAll (persistSteps journal data anchor backup purge) disk) =
      (none, some data, some (anchorContent anchor)) := by
  cases backup <;> cases purge <;> rfl

/-- The three files after a whole recovery. -/
theorem core_applyAll_recovery (plan : RecoveryPlan) (disk : Disk) :
    core (applyAll plan.steps disk) =
      (none, disk.store, (plan.advanceAnchor.map anchorContent).or disk.anchor) := by
  obtain ⟨advance, purge⟩ := plan
  cases advance <;> cases purge <;> rfl

/-- A purge that came to its end left no backup. -/
theorem backups_applyAll_recovery {plan : RecoveryPlan} (h : plan.purgeBackups = true)
    (disk : Disk) : (applyAll plan.steps disk).backups = [] := by
  obtain ⟨advance, purge⟩ := plan
  cases h
  cases advance <;> rfl

/-- A transaction that purges leaves no backup. -/
theorem backups_applyAll_persist {journal : Journal} {data : Content} {anchor : Anchor}
    {backup : Option (Content × Nat)} (disk : Disk) :
    (applyAll (persistSteps journal data anchor backup true) disk).backups = [] := by
  cases backup <;> rfl

/-! ### Failures before the store is replaced -/

/-- Steps that replace neither the store nor the anchor. -/
def sparesPair : Step → Bool
  | .writeStore _ | .writeAnchor _ => false
  | _ => true

theorem pair_apply {step : Step} (h : sparesPair step = true) (disk : Disk) :
    (step.apply disk).store = disk.store ∧ (step.apply disk).anchor = disk.anchor := by
  cases step with
  | writeStore data => cases h
  | writeAnchor data => cases h
  | writeBackup data revision =>
      have := core_addBackup disk revision data
      exact ⟨store_of_core this, anchor_of_core this⟩
  | _ => exact ⟨rfl, rfl⟩

theorem pair_interrupt {step : Step} (h : sparesPair step = true) (disk : Disk)
    (extent : Extent) :
    (step.interrupt disk extent).store = disk.store ∧
      (step.interrupt disk extent).anchor = disk.anchor := by
  rcases core_interrupt step disk extent with hsame | happly
  · exact ⟨store_of_core hsame, anchor_of_core hsame⟩
  · rw [happly]
    exact pair_apply h disk

/-- **A failure with `replace_attempted` false left store and anchor alone**, when nothing before
the store replacement touches them. -/
theorem pair_of_not_attempted {data : Content} {post : List Step} (pre : List Step) :
    ∀ {outcomes : List Outcome} {disk disk' : Disk} {error : StoreError},
      (∀ step ∈ pre, sparesPair step = true) →
      runSteps (pre ++ .writeStore data :: post) outcomes false disk =
        (disk', .raised false error) →
      disk'.store = disk.store ∧ disk'.anchor = disk.anchor := by
  -- once the flag is set it stays set
  have hset : ∀ (steps : List Step) {outcomes : List Outcome} {disk disk' : Disk}
      {error : StoreError},
      runSteps steps outcomes true disk ≠ (disk', .raised false error) := by
    intro steps
    induction steps with
    | nil =>
        intro outcomes disk disk' error h
        cases h
    | cons step rest ih =>
        intro outcomes disk disk' error h
        rw [runSteps] at h
        cases hout : outcomes.headD .done with
        | done =>
            rw [hout] at h
            exact ih h
        | raised extent error =>
            rw [hout] at h
            cases h
        | stopped extent =>
            rw [hout] at h
            cases h
  induction pre with
  | nil =>
      intro outcomes disk disk' error _ h
      rw [List.nil_append, runSteps] at h
      cases hout : outcomes.headD .done with
      | done =>
          rw [hout] at h
          exact absurd h (hset _)
      | raised extent error =>
          rw [hout] at h
          cases extent <;> cases h <;> exact ⟨rfl, rfl⟩
      | stopped extent =>
          rw [hout] at h
          cases h
  | cons step rest ih =>
      intro outcomes disk disk' error hspares h
      have hstep := hspares step (List.mem_cons_self ..)
      have hrest : ∀ s ∈ rest, sparesPair s = true := fun s hs =>
        hspares s (List.mem_cons_of_mem _ hs)
      have hwrite : step.isStoreWrite = false := by
        cases step with
        | writeStore data => cases hstep
        | _ => rfl
      rw [List.cons_append, runSteps] at h
      cases hout : outcomes.headD .done with
      | done =>
          rw [hout] at h
          simp only [hwrite, Bool.or_false] at h
          obtain ⟨hs, ha⟩ := ih hrest h
          obtain ⟨hs', ha'⟩ := pair_apply hstep disk
          exact ⟨hs.trans hs', ha.trans ha'⟩
      | raised extent error =>
          rw [hout] at h
          rw [← (Prod.mk.inj h).1]
          exact pair_interrupt hstep disk extent
      | stopped extent =>
          rw [hout] at h
          cases h

end MaskGateway.Proofs.Datasource
