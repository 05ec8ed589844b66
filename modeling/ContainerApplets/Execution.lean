import ContainerApplets.Command
import ContainerApplets.Refusal

/-!
Commands are run one after the other until a command that is not silent fails. Whatever a silent
command does is forgotten.
-/

namespace ContainerApplets

/-- How a child process ended, as the word that the system reports for it. -/
structure WaitStatus where
  word : UInt32
  deriving DecidableEq, Inhabited

namespace WaitStatus

def succeeded (status : WaitStatus) : Bool := status.word == 0

/-- Zero when the child has ended by itself. -/
def termination (status : WaitStatus) : Nat := status.word.toNat % 128

def exitCode? (status : WaitStatus) : Option Nat :=
  if status.termination = 0 then some (status.word.toNat / 256 % 256) else none

/-- The largest termination value stands for a child that has not ended. -/
def signal? (status : WaitStatus) : Option Nat :=
  if status.termination = 0 ∨ status.termination = 127 then none else some status.termination

/-- The exit code that passes the end of a child on, as shells do: a signal counts from 128. -/
def mirrored (status : WaitStatus) : Nat :=
  match status.exitCode? with
  | some code => code
  | none =>
      match status.signal? with
      | some signal => 128 + signal
      | none => 1

def ofExitCode (code : Nat) : WaitStatus := ⟨UInt32.ofNat (code % 256 * 256)⟩

def ofSignal (signal : Nat) : WaitStatus := ⟨UInt32.ofNat (signal % 128)⟩

end WaitStatus

/-- One start of a program. A quiet call has no terminal. -/
structure Call where
  quiet : Bool
  program : String
  arguments : List String
  deriving DecidableEq, Inhabited

def Command.call (command : Command) : Call :=
  ⟨command.silent, command.program, command.arguments⟩

inductive Answer
  | ended (status : WaitStatus)
  | unstarted (refusal : Refusal)
  deriving DecidableEq, Inhabited

/-- Answers a call; the answer may depend on all earlier calls. -/
abbrev Runner := List Call → Call → Answer

/-- The refusal that an answer to a command is, if it is one. -/
def Command.refusal? (command : Command) (answer : Answer) : Option Refusal :=
  if command.silent then none
  else match answer with
    | .ended status =>
        if status.succeeded then none
        else some (.ofFailure (.exited command.line status.mirrored))
    | .unstarted refusal => some refusal

/-- The calls of a run, in order, and how it ended. -/
structure Execution where
  calls : List Call
  result : Outcome Unit

def executeAfter (runner : Runner) (earlier : List Call) : List Command → Execution
  | [] => ⟨earlier, .ok ()⟩
  | command :: rest =>
      let calls := earlier ++ [command.call]
      match command.refusal? (runner earlier command.call) with
      | some refusal => ⟨calls, .error refusal⟩
      | none => executeAfter runner calls rest

def execute (runner : Runner) (commands : List Command) : Execution :=
  executeAfter runner [] commands

end ContainerApplets
