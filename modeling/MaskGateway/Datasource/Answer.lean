import MaskGateway.Datasource.Ledger

/-!
# `MaskGateway.Datasource.Answer`: the answer of one verification

One admitted verification of `datasource/verify.py`, from the moment its child is spawned: the thread
in `_run` (`run`, then `finish`), the two pumps, the child, and the clock. Here the pumps are followed
statement by statement (`writerStep`, `readerStep`), and so is what is in the pipe.

The child reads its input to the end, writes `okAnswer` and exits with code zero before the deadline,
and no call of the operating system fails: `wait` and `poll` see the end of the child, and `close`
closes. A read from a stream that is closed raises `ValueError`, and a `close` waits for a read that
goes on. `join` and `sleep` may take no time.
-/

set_option autoImplicit false

namespace MaskGateway.Datasource.Verify

/-- `MAX_OUTPUT_BYTES`. -/
def maxOutputBytes : Nat := 4 * 1024

/-- `json.dumps({'ok': True})`. -/
def okAnswer : List UInt8 :=
  [0x7b, 0x22, 0x6f, 0x6b, 0x22, 0x3a, 0x20, 0x74, 0x72, 0x75, 0x65, 0x7d]

/-- Where `_run` is, with `completed` and the deadline of `reap`, or how `verify` ends. -/
inductive VerifyPc where
  | running (pc : RunPc)
  | reaping (completed : Bool) (deadline : Nat) (pc : ReapPc)
  | finished (returned : Bool)
  deriving DecidableEq

/-- Where `_pump_stdin` is. -/
inductive WriterPc where
  /-- before `write` and `flush` have returned -/
  | writing
  /-- in the `finally` -/
  | closing
  | returning
  deriving DecidableEq

/-- Where `_pump_stdout` is. -/
inductive ReaderPc where
  /-- at the head of the loop -/
  | looping (chunks : List (List UInt8))
  /-- in `stream.read` -/
  | reading (chunks : List (List UInt8))
  /-- in the `finally`, with the output or an exception -/
  | closing (data : Option (List UInt8))
  /-- after it -/
  | ending (data : Option (List UInt8))
  | returning
  deriving DecidableEq

/-- The output was read to its end. -/
def ReaderPc.atEnd : ReaderPc → Bool
  | .closing data => data.isSome
  | _ => false

/-- Where the child is. -/
inductive ChildPc where
  | reading
  | writing
  | exiting
  | ended
  deriving DecidableEq

/-- A verification and its surroundings. -/
structure Verification where
  timeout : Nat
  now : Nat := 0
  pc : VerifyPc := .running (.starting 0)
  res : Resources :=
    { spawn := .created, process := some ⟨true, some false, some false, none⟩, pumps := [{}, {}] }
  writer : WriterPc := .writing
  reader : ReaderPc := .looping []
  child : ChildPc := .reading
  /-- what the child has written and nobody has read -/
  pipe : List UInt8 := []
  deriving DecidableEq

/-- Who goes on. -/
inductive Who where
  | verifier
  | writer
  | reader
  | child
  | tick
  deriving DecidableEq

/-- What a call of `run` does: `wait` sees whether the child has ended. -/
def RunPc.effect (pc : RunPc) (exited : Bool) : Bool :=
  match pc with
  | .waiting _ => exited
  | _ => true

/-- What a call of `reap` does: `poll` sees whether the child has ended. -/
def ReapPc.effect (pc : ReapPc) (exited : Bool) : Bool :=
  match pc with
  | .closingStdin | .closingStdout => true
  | _ => exited

/-- Where a step of `run` leads to. -/
def Out.afterRun (out : Out RunPc) (deadline : Nat) : VerifyPc :=
  match out with
  | .next pc => .running pc
  | .done completed => .reaping completed deadline .checking
  | .raised => .reaping false deadline .checking

/-- Where a step of `reap` leads to, when `judged` is what `_run` and `verify` find. -/
def Out.afterReap (out : Out ReapPc) (completed : Bool) (deadline : Nat) (judged : Bool) : VerifyPc :=
  match out with
  | .next pc => .reaping completed deadline pc
  | .done reaped => .finished (reaped && judged)
  | .raised => .finished false

namespace Verification

/-- The child has ended. -/
def exited (v : Verification) : Bool := v.res.process.any Process.exited

def stdinClosed (v : Verification) : Bool := v.res.process.any fun p => p.stdin == some true

def stdoutClosed (v : Verification) : Bool := v.res.process.any fun p => p.stdout == some true

/-- The thread of a pump. -/
def thread (v : Verification) (i : Nat) : Thread := (v.res.pumps[i]?.map Pump.thread).getD .unborn

/-- The thread of a pump moves. -/
def move (v : Verification) (i : Nat) (move : PumpMove) : Option Verification :=
  (v.res.pumpMove i move).map fun res => { v with res := res }

/-- `_guarded` around the target of a pump, which is at its end when `returning` says so. -/
def guardedStep (v : Verification) (i : Nat) (returning : Bool) (target : Option Verification) :
    Option Verification :=
  match v.thread i with
  | .entering => v.move i .enter
  | .target => if returning then v.move i .leave else target
  | .leaving => v.move i .finish
  | .ending => v.move i .die
  | .unborn | .dead => none

/-- `_pump_stdin`. -/
def writerStep (v : Verification) : Option Verification :=
  v.guardedStep 0 (v.writer = .returning)
    (match v.writer with
    -- on a stream that is closed `write` raises
    | .writing => some { v with writer := .closing }
    | .closing => { v with writer := .returning }.move 0 .close
    | .returning => none)

/-- `_pump_stdout`. -/
def readerStep (v : Verification) : Option Verification :=
  v.guardedStep 1 (v.reader = .returning)
    (match v.reader with
    | .looping chunks =>
        if v.stdoutClosed then some { v with reader := .closing none }
        else some { v with reader := .reading chunks }
    | .reading chunks =>
        -- `read` returns what it is asked for, or all there is once the child has ended
        if v.pipe.length < 4096 ∧ v.exited = false then none
        else if v.pipe = [] then some { v with reader := .closing (some chunks.flatten) }
        else if maxOutputBytes < (chunks ++ [v.pipe.take 4096]).flatten.length then
          { v with reader := .closing (some chunks.flatten), pipe := v.pipe.drop 4096 }.move 1
            .overflow
        else
          some { v with
            reader := .looping (chunks ++ [v.pipe.take 4096]), pipe := v.pipe.drop 4096 }
    | .closing data => { v with reader := .ending data }.move 1 .close
    | .ending (some data) => { v with reader := .returning }.move 1 (.output data)
    | .ending none => some { v with reader := .returning }
    | .returning => none)

/-- The child. -/
def childStep (v : Verification) : Option Verification :=
  match v.child with
  | .reading => if v.writer = .writing then none else some { v with child := .writing }
  | .writing => some { v with child := .exiting, pipe := v.pipe ++ okAnswer }
  | .exiting =>
      if v.res.deadline.all fun deadline => v.now < deadline then
        (v.res.exits 0 v.now).map fun res => { v with res := res, child := .ended }
      else none
  | .ended => none

/-- `run`. -/
def runStep (v : Verification) (pc : RunPc) : Option Verification :=
  (v.res.runStep v.now v.timeout pc ⟨pc.effect v.exited, .returned⟩).map fun (res, out) =>
    { v with res := res, pc := out.afterRun (v.now + cleanupBudget) }

/-- `reap`, and the end of `_run` and `verify`. -/
def reapStep (accepts : List UInt8 → Bool) (v : Verification) (completed : Bool) (deadline : Nat)
    (pc : ReapPc) : Option Verification :=
  (v.res.reapStep v.now deadline pc ⟨pc.effect v.exited, .returned⟩).map fun (res, out) =>
    { v with res := res, pc := out.afterReap completed deadline (Machine.judge accepts res completed) }

/-- A `close` that waits for the reader. -/
def held (v : Verification) : Bool :=
  match v.pc, v.reader with
  | .reaping _ _ .closingStdout, .reading _ => !v.stdoutClosed
  | _, _ => false

/-- The thread of the verification. -/
def verifierStep (accepts : List UInt8 → Bool) (v : Verification) : Option Verification :=
  match v.pc with
  | .running pc => v.runStep pc
  | .reaping completed deadline pc => if v.held then none else v.reapStep accepts completed deadline pc
  | .finished _ => none

/-- The child ends before the deadline: until then the clock does not come to it, nor is there one
that leaves no time. -/
def punctual (v : Verification) : Who → Bool
  | .tick => v.exited || v.res.deadline.all fun deadline => v.now + 1 < deadline
  | .verifier => v.exited || v.pc != .running .timing || 0 < v.timeout
  | _ => true

/-- One step. -/
def step (accepts : List UInt8 → Bool) (v : Verification) (who : Who) : Option Verification :=
  if v.punctual who then
    match who with
    | .verifier => v.verifierStep accepts
    | .writer => v.writerStep
    | .reader => v.readerStep
    | .child => v.childStep
    | .tick => some { v with now := v.now + 1 }
  else none

/-- The loop of `run` looks at the clock before the deadline; the output was read to its end when
`reap` closes the pipe; and `reap` has time left when something is not settled. -/
def meets (v : Verification) : Who → Bool
  | .verifier =>
      match v.pc with
      | .running pc => match pc with
        | .checking deadline => v.now < deadline
        | _ => true
      | .reaping _ deadline pc => match pc with
        | .closingStdout => v.stdoutClosed || v.reader.atEnd
        | .looking => v.now < deadline
        | _ => true
      | .finished _ => true
  | _ => true

end Verification

end MaskGateway.Datasource.Verify
