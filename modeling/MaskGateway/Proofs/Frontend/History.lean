import MaskGateway.Frontend.Coordinator

/-!
# `MaskGateway.Proofs.Frontend.History`: what may follow what

The log of a `World` lists what has happened to the commands, the newest first. The functions read
off it what the claims about sending are about: the edit accepted last, how the last command ended
when nothing but reads came after (`standing`), the base read last, and the versions that outcomes
reported. `Follows` says when a note may be added to a log.
-/

set_option autoImplicit false

namespace MaskGateway.Proofs.Frontend

open Lib MaskGateway.Frontend

/-- The edit that `begin`, `change` or `review` accepted last. -/
def lastAccepted : List Note → Option Editing
  | [] => none
  | .begun edit :: _ | .changed edit :: _ | .reviewed edit :: _ => some edit
  | .sent _ :: past | .ended _ _ _ :: past | .reread _ :: past => lastAccepted past

/-- How the last command ended, when only reads came after it. -/
def standing : List Note → Option Ending
  | .reread _ :: past => standing past
  | .ended how _ _ :: _ => some how
  | _ => none

/-- The new base, when it was read last. -/
def rebased : List Note → Option Snapshot
  | .reread base :: _ => some base
  | _ => none

/-- The version of the last outcome, if it reported one. -/
def informed : List Note → Option Nat
  | [] => none
  | .ended _ _ version :: _ => version
  | .begun _ :: past | .changed _ :: past | .reviewed _ :: past | .sent _ :: past
  | .reread _ :: past => informed past

/-- The version that an outcome reported last. -/
def reported : List Note → Option Nat
  | [] => none
  | .ended _ _ (some version) :: _ => some version
  | .ended _ _ none :: past | .begun _ :: past | .changed _ :: past | .reviewed _ :: past
  | .sent _ :: past | .reread _ :: past => reported past

/-- A command was answered, or given up, other than as busy. -/
def Spent (object : Nat) (log : List Note) : Prop :=
  ∃ how command version, Note.ended how command version ∈ log ∧ how ≠ .failed .busy ∧
    command.object = object

/-- A note is one more read of a base. -/
def Note.isReread : Note → Bool
  | .reread _ => true
  | _ => false

/-- A note may be added to a log. -/
structure Follows (note : Note) (past : List Note) : Prop where
  /-- what is sent is the command of the edit accepted last, on the version of its base -/
  sent : ∀ command, note = .sent command → ∃ edit, lastAccepted past = some edit ∧
    command = edit.command ∧ command.version = edit.base.version ∧ command.draft = edit.draft
  /-- a command that ended is not sent again -/
  once : ∀ command, note = .sent command → ¬ Spent command.object past
  /-- only a review of a base that was read leads on from a conflict -/
  conflict : standing past = some (.failed .conflict) → Note.isReread note = true ∨
    ∃ edit, note = .reviewed edit ∧ rebased past = some edit.base
  /-- nothing leads on from an outcome that says nothing of what the server did -/
  blocked : ∀ how, standing past = some how →
    how ∈ [.failed .unknown, .failed .uncertain, .failed .incompatible, .cancelled] →
    Note.isReread note = true

/-- Every note of a log follows what was there before it. -/
def Ordered (log : List Note) : Prop :=
  ∀ later note past, log = later ++ note :: past → Follows note past

/-- An empty log is in order. -/
theorem ordered_nil : Ordered [] := by
  intro later note past h
  simp at h

/-- A log stays in order when what is added follows it. -/
theorem Ordered.cons {note : Note} {log : List Note} (h : Ordered log) (hnew : Follows note log) :
    Ordered (note :: log) := by
  intro later n past heq
  cases later with
  | nil =>
      obtain ⟨rfl, rfl⟩ := List.cons.inj heq
      exact hnew
  | cons m later =>
      have htail : log = later ++ n :: past := (List.cons.inj heq).2
      exact h later n past htail

/-- A read of a base follows anything. -/
theorem follows_reread (base : Snapshot) (log : List Note) : Follows (.reread base) log where
  sent _ h := nomatch h
  once _ h := nomatch h
  conflict _ := .inl rfl
  blocked _ _ _ := rfl

/-- Where no command has ended as a conflict or unknown, anything that is not sent follows. -/
theorem follows_of_standing {note : Note} {log : List Note}
    (hsent : ∀ command, note ≠ .sent command)
    (h : standing log ∈ [none, some .success, some (.failed .busy)]) : Follows note log where
  sent _ heq := absurd heq (hsent _)
  once _ heq := absurd heq (hsent _)
  conflict heq := by simp [heq] at h
  blocked how heq hmem := by
    rw [heq] at h
    simp only [List.mem_cons, List.not_mem_nil, or_false] at h hmem
    rcases h with h | h | h
    · exact nomatch h
    · obtain rfl := Option.some.inj h
      simp at hmem
    · obtain rfl := Option.some.inj h
      simp at hmem

/-- What is no ending leaves what was spent as it is. -/
theorem spent_cons {object : Nat} {note : Note} {log : List Note}
    (h : ∀ how command version, note ≠ .ended how command version) :
    Spent object (note :: log) ↔ Spent object log := by
  have hmem : ∀ how command version,
      Note.ended how command version ∈ note :: log ↔ Note.ended how command version ∈ log := by
    intro how command version
    rw [List.mem_cons]
    exact ⟨fun hor => hor.resolve_left fun heq => h _ _ _ heq.symm, .inr⟩
  simp only [Spent, hmem]

/-- A busy answer spends nothing. -/
theorem spent_busy {object : Nat} {command : Command} {version : Option Nat} {log : List Note} :
    Spent object (.ended (.failed .busy) command version :: log) ↔ Spent object log := by
  constructor
  · rintro ⟨how, d, v, hmem, hne, hobject⟩
    rcases List.mem_cons.mp hmem with heq | hmem
    · injection heq with hhow
      exact absurd hhow hne
    · exact ⟨how, d, v, hmem, hne, hobject⟩
  · rintro ⟨how, d, v, hmem, hne, hobject⟩
    exact ⟨how, d, v, .tail _ hmem, hne, hobject⟩

end MaskGateway.Proofs.Frontend
