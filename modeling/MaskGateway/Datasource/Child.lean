import Mathlib

/-!
# `MaskGateway.Datasource.Child`: one child process that verifies a connection

What a `_ChildRecord` of `datasource/verify.py` holds: the process with its two pipes, and the two
`_Pump`s with their threads. `runStep` is `run`, `reapStep` is `reap` with `_reap_once` and `reaped`,
one call of the operating system at a time; `Pump.move` is what a thread does by itself.

Every such call may fail (an exception that the code catches at that place) or be interrupted
(another one, which it does not), and may have taken effect all the same: that is its `Answer`. The
clock is `now`, in milliseconds. `Resources.deadline` and the time of an exit are not in the code.
-/

set_option autoImplicit false

namespace MaskGateway.Datasource.Verify

/-- `_PUMP_IDLE`, `_PUMP_STARTING`, `_PUMP_STARTED`. -/
inductive PumpState where
  | idle
  | starting
  | started
  deriving DecidableEq

/-- Where the thread of a pump is. -/
inductive Thread where
  | unborn
  /-- before the section of `_guarded` -/
  | entering
  | target
  /-- in the `finally` of `_guarded` -/
  | leaving
  /-- `done` is set, and the thread is alive -/
  | ending
  | dead
  deriving DecidableEq

/-- `_Pump`. -/
structure Pump where
  state : PumpState := .idle
  ran : Bool := false
  cancelled : Bool := false
  done : Bool := false
  thread : Thread := .unborn
  deriving DecidableEq

namespace Pump

/-- `joinable`. -/
def joinable (p : Pump) : Bool := p.state = .started ∨ p.done = true

/-- The section of `settled`. -/
def cancel (p : Pump) : Pump := if p.ran then p else { p with cancelled := true }

/-- What `settled` returns. -/
def settled (p : Pump) : Bool := p.state = .idle ∨ (p.done = true ∧ p.thread = .dead)

end Pump

/-- The `Popen` object. A pipe is there when it is exposed, and says whether it is closed. -/
structure Process where
  /-- `pid` is an integer -/
  pid : Bool
  stdin : Option Bool
  stdout : Option Bool
  /-- the exit code, and when the child ended -/
  exit : Option (Int × Nat) := none
  deriving DecidableEq

/-- `_SPAWN_IDLE`, `_SPAWN_ATTEMPTED`, `_SPAWN_CREATED`. -/
inductive Spawn where
  | idle
  | attempted
  | created
  deriving DecidableEq

/-- What the pumps leave for the verification. -/
structure Sink where
  tooBig : Bool := false
  ioError : Bool := false
  data : Option (List UInt8) := none
  deriving DecidableEq

/-- What a record holds of its child. -/
structure Resources where
  spawn : Spawn := .idle
  process : Option Process := none
  pumps : List Pump := []
  sink : Sink := {}
  /-- of the verification -/
  deadline : Option Nat := none
  deriving DecidableEq

/-- How a call of the operating system ends. -/
inductive Ending where
  | returned
  /-- with an exception that the code catches there -/
  | failed
  /-- with another one -/
  | interrupted
  deriving DecidableEq

/-- A call of the operating system: whether it took effect (the process has ended, the stream is
closed, the thread was begun), and how it ended. -/
structure Answer where
  effect : Bool
  ending : Ending
  deriving DecidableEq

namespace Process

/-- The object of a child that was just created. -/
def born (p : Process) : Process := { p with exit := none }

def exited (p : Process) : Bool := p.exit.isSome

/-- `_pipes(process)` is `None`. -/
def pipeMissing (p : Process) : Bool := p.stdin.isNone || p.stdout.isNone

/-- Each pipe that is exposed is closed. -/
def knownClosed (p : Process) : Bool := p.stdin != some false && p.stdout != some false

end Process

namespace Resources

/-- `_process()`. -/
def reachable (res : Resources) : Option Process :=
  match res.process with
  | some p => if res.spawn ≠ .created ∧ p.pid = false then none else some p
  | none => none

/-- The process with something changed. -/
def withProcess (res : Resources) (p : Process) : Resources := { res with process := some p }

/-- The pump at a place with something changed. -/
def withPump (res : Resources) (i : Nat) (p : Pump) : Resources :=
  { res with pumps := res.pumps.set i p }

end Resources

/-! ### The threads of the pumps -/

/-- What the thread of a pump does. -/
inductive PumpMove where
  | enter
  /-- more output than `MAX_OUTPUT_BYTES` -/
  | overflow
  /-- an I/O error is caught and noted -/
  | error
  /-- the stream is closed -/
  | close
  /-- the output is there -/
  | output (data : List UInt8)
  /-- the target returns or raises -/
  | leave
  | finish
  | die

/-- The pump at a place moves: the first writes to the standard input of the child, the second reads
its standard output. -/
def Resources.pumpMove (res : Resources) (i : Nat) (move : PumpMove) : Option Resources :=
  match res.pumps[i]?, move with
  | some p, .enter =>
      if p.thread = .entering then
        some (res.withPump i
          (if p.cancelled then { p with thread := .leaving }
            else { p with ran := true, thread := .target }))
      else none
  | some p, .overflow =>
      if p.thread = .target ∧ i = 1 then some { res with sink := { res.sink with tooBig := true } }
      else none
  | some p, .error =>
      if p.thread = .target then some { res with sink := { res.sink with ioError := true } }
      else none
  | some p, .close =>
      match res.process with
      | some process =>
          if p.thread = .target then
            if i = 0 then some (res.withProcess { process with stdin := process.stdin.map fun _ => true })
            else some (res.withProcess { process with stdout := process.stdout.map fun _ => true })
          else none
      | none => none
  | some p, .output data =>
      if p.thread = .target ∧ i = 1 then
        some { res with sink := { res.sink with data := some data } }
      else none
  | some p, .leave =>
      if p.thread = .target then some (res.withPump i { p with thread := .leaving }) else none
  | some p, .finish =>
      if p.thread = .leaving then
        some (res.withPump i { p with done := true, thread := .ending })
      else none
  | some p, .die =>
      if p.thread = .ending then some (res.withPump i { p with thread := .dead }) else none
  | none, _ => none

/-- The child ends. -/
def Resources.exits (res : Resources) (code : Int) (now : Nat) : Option Resources :=
  match res.process with
  | some p =>
      if p.exit = none then some (res.withProcess { p with exit := some (code, now) }) else none
  | none => none

/-! ### `run` -/

/-- Where `run` is. -/
inductive RunPc where
  | spawning
  | starting (pump : Nat)
  | launching (pump : Nat)
  | started (pump : Nat)
  | timing
  /-- at the head of the loop -/
  | checking (deadline : Nat)
  /-- in `process.wait` -/
  | waiting (deadline : Nat)
  deriving DecidableEq

/-- What a step leads to. -/
inductive Out (α : Type) where
  | next (pc : α)
  | done (result : Bool)
  | raised

/-- `_spawn`: the constructor is not entered, or adopts the object, of which a part may be exposed.
Without an executable the first of these fails. -/
def Resources.spawnStep (res : Resources) (adopted : Option (Option Process)) (ending : Ending) :
    Option (Resources × Out RunPc) :=
  match adopted, ending with
  | none, .failed => some (res, .done false)
  | none, .interrupted => some (res, .raised)
  | none, .returned => none
  | some p, .failed => some ({ res with spawn := .attempted, process := p.map .born }, .done false)
  | some p, .interrupted => some ({ res with spawn := .attempted, process := p.map .born }, .raised)
  | some none, .returned => none
  | some (some p), .returned =>
      if p.pipeMissing then
        some ({ res with spawn := .created, process := some p.born }, .done false)
      else
        some ({ res with spawn := .created, process := some p.born, pumps := [{}, {}] },
          .next (.starting 0))

/-- One step of `run` after the spawn. -/
def Resources.runStep (res : Resources) (now timeout : Nat) (pc : RunPc) (answer : Answer) :
    Option (Resources × Out RunPc) :=
  match pc with
  | .spawning => none
  | .starting i =>
      match res.pumps[i]? with
      | some p => some (res.withPump i { p with state := .starting }, .next (.launching i))
      | none => none
  | .launching i =>
      match res.pumps[i]? with
      | some p =>
          let begun := if answer.effect then { p with thread := .entering } else p
          match answer.ending with
          | .returned => if answer.effect then some (res.withPump i begun, .next (.started i)) else none
          | .failed => some (res.withPump i begun, .done false)
          | .interrupted => some (res.withPump i begun, .raised)
      | none => none
  | .started i =>
      match res.pumps[i]? with
      | some p =>
          some (res.withPump i { p with state := .started },
            .next (if i = 0 then .starting 1 else .timing))
      | none => none
  | .timing => some ({ res with deadline := some (now + timeout) }, .next (.checking (now + timeout)))
  | .checking deadline =>
      if deadline ≤ now ∨ res.sink.tooBig = true then some (res, .done false)
      else some (res, .next (.waiting deadline))
  | .waiting deadline =>
      match answer.ending with
      | .returned =>
          if answer.effect then
            if res.process.any Process.exited then some (res, .done true) else none
          else some (res, .next (.checking deadline))
      | .failed => some (res, .done false)
      | .interrupted => some (res, .raised)

/-! ### `reap` -/

/-- Where `reap` is. -/
inductive ReapPc where
  | checking
  /-- the first `_ended` of `_reap_once` -/
  | polling
  | killing
  | waiting
  /-- the second `_ended` -/
  | confirming
  | closingStdin
  | closingStdout
  | joining (pump : Nat)
  /-- in `reaped`, with `pumps_settled` -/
  | settling (pump : Nat) (settled : Bool)
  | concluding (settled : Bool)
  | sealing
  /-- `_only_unknown_pipe_left`, and what is left of the time -/
  | looking
  | pausing
  deriving DecidableEq

/-- `_ended(process)`: a call that fails says that the process lives. `none` when the answer is not
possible, or interrupts. -/
def Process.ended (p : Process) (answer : Answer) : Option Bool :=
  match answer.ending with
  | .returned => if answer.effect then (if p.exited then some true else none) else some false
  | .failed => some false
  | .interrupted => none

/-- `stdin.close()`, with whether it is closed then. -/
def Resources.closeStdin (res : Resources) (effect : Bool) : Resources :=
  match res.process with
  | some p => res.withProcess { p with stdin := p.stdin.map fun closed => closed || effect }
  | none => res

/-- `stdout.close()`. -/
def Resources.closeStdout (res : Resources) (effect : Bool) : Resources :=
  match res.process with
  | some p => res.withProcess { p with stdout := p.stdout.map fun closed => closed || effect }
  | none => res

/-- A step of `reap` that is interrupted; a stream may be closed all the same. -/
def Resources.reapInterrupted (res : Resources) (now deadline : Nat) (pc : ReapPc) (effect : Bool) :
    Option (Resources × Out ReapPc) :=
  match pc with
  | .checking | .settling _ _ => none
  | .joining i =>
      if res.pumps[i]?.any Pump.joinable ∧ now < deadline then some (res, .raised) else none
  | .closingStdin => some (res.closeStdin effect, .raised)
  | .closingStdout => some (res.closeStdout effect, .raised)
  | .polling | .killing | .waiting | .confirming | .concluding _ | .sealing | .looking
  | .pausing => some (res, .raised)

/-- A step of `reap` on a process that is reached. -/
def Resources.reapReached (res : Resources) (p : Process) (now deadline : Nat) (pc : ReapPc)
    (answer : Answer) : Option (Resources × Out ReapPc) :=
  match pc with
  | .checking => some (res, .next .polling)
  | .polling =>
      (p.ended answer).map fun ended => (res, .next (if ended then .closingStdin else .killing))
  | .killing =>
      some (res, .next (if answer.ending = .returned ∧ now < deadline then .waiting
        else .confirming))
  | .waiting => some (res, .next .confirming)
  | .confirming =>
      (p.ended answer).map fun ended => (res, .next (if ended then .closingStdin else .looking))
  | .closingStdin => some (res.closeStdin answer.effect, .next .closingStdout)
  | .closingStdout => some (res.closeStdout answer.effect, .next (.joining 0))
  | .joining i =>
      -- `join` returns whether or not the thread has ended
      if i < res.pumps.length ∧ now < deadline then some (res, .next (.joining (i + 1)))
      else some (res, .next (.settling 0 true))
  | .settling i settled =>
      match res.pumps[i]? with
      | some q => some (res.withPump i q.cancel, .next (.settling (i + 1) (settled && q.settled)))
      | none => some (res, .next (.concluding settled))
  | .concluding settled =>
      if p.pipeMissing then some (res, .next .looking)
      else
        (p.ended answer).map fun ended =>
          (res, .next (if ended && settled then .sealing else .looking))
  | .sealing =>
      if answer.ending = .returned ∧ p.knownClosed = true then some (res, .done true)
      else some (res, .next .looking)
  | .looking =>
      if p.pipeMissing then
        (p.ended answer).map fun ended =>
          if ended && p.knownClosed then (res, .done false)
          else if deadline ≤ now then (res, .done false)
          else (res, .next .pausing)
      else if deadline ≤ now then some (res, .done false)
      else some (res, .next .pausing)
  | .pausing => some (res, .next .polling)

/-- One step of `reap`. -/
def Resources.reapStep (res : Resources) (now deadline : Nat) (pc : ReapPc) (answer : Answer) :
    Option (Resources × Out ReapPc) :=
  if answer.ending = .interrupted then res.reapInterrupted now deadline pc answer.effect
  else if pc = .checking ∧ res.spawn = .idle then some (res, .done true)
  else
    match res.reachable with
    | some p => res.reapReached p now deadline pc answer
    -- nothing can be done about a child that is not reached
    | none => if pc = .checking then some (res, .done false) else none

end MaskGateway.Datasource.Verify
