import ContainerApplets.Failure
import ContainerApplets.Usage

/-!
A refusal is a cause together with what was being done when it arose, the widest activity first.
-/

namespace ContainerApplets

inductive Cause
  | failure (found : Failure)
  | usage (report : UsageReport)
  | file (fault : FileFault)
  /-- A stored document does not have the form that it should have. -/
  | document (reason : String)
  | note (text : String)
  deriving DecidableEq

namespace Cause

/-- A file failure of the library shows the fault that it wraps once more as its own cause. -/
def lines : Cause → List String
  | .failure found =>
      match found with
      | .file fault => [found.message, fault.reason]
      | _ => [found.message]
  | .usage report => [report.text]
  | .file fault => [fault.reason]
  | .document reason => [reason]
  | .note text => [text]

end Cause

structure Refusal where
  contexts : List String
  cause : Cause
  deriving DecidableEq

namespace Refusal

def ofFailure (failure : Failure) : Refusal := ⟨[], .failure failure⟩

instance : Inhabited Refusal := ⟨[], .note ""⟩

instance : Coe Failure Refusal := ⟨ofFailure⟩

def within (refusal : Refusal) (context : String) : Refusal :=
  { refusal with contexts := context :: refusal.contexts }

/-- All that is known, from the widest activity to the cause. -/
def lines (refusal : Refusal) : List String := refusal.contexts ++ refusal.cause.lines

def chain (refusal : Refusal) : String := ": ".intercalate refusal.lines

end Refusal

abbrev Outcome := Except Refusal

/-- States what was being done if it fails. -/
def Outcome.within {Value : Type} (context : String) (outcome : Outcome Value) : Outcome Value :=
  match outcome with
  | .ok value => .ok value
  | .error refusal => .error (refusal.within context)

/-- A fault of the file system, with what was being done. -/
def Outcome.ofFile {Value : Type} (context : String) (result : Except FileFault Value) :
    Outcome Value :=
  match result with
  | .ok value => .ok value
  | .error fault => .error ⟨[context], .file fault⟩

def Outcome.ofResult {Value : Type} (result : Except Failure Value) : Outcome Value :=
  match result with
  | .ok value => .ok value
  | .error failure => .error (.ofFailure failure)

end ContainerApplets
