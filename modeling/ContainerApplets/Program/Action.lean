import ContainerApplets.Execution
import ContainerApplets.Report
import ContainerApplets.Session

/-!
An action reads and changes files, prints lines and starts programs. What it did before it was
refused stays done.
-/

namespace ContainerApplets

/-- What the system tells an invocation and does for it. -/
structure Host where
  lookup : Environment
  /-- The home directory of the user, for want of a variable. -/
  home : Option String
  network : Network
  /-- Installed links lead to this program. -/
  executable : String
  now : Timestamp
  stdinIsTerminal : Bool
  /-- Runs a program to its end, after all earlier calls. -/
  start : List Call → Call → Except FileFault WaitStatus

def Host.settings (host : Host) : Outcome Settings :=
  Settings.ofEnvironment host.home host.lookup

def Host.runner (host : Host) : Runner := fun earlier call =>
  match host.start earlier call with
  | .ok status => .ended status
  | .error fault => .unstarted ⟨["Failed to run '" ++ call.program ++ "'"], .file fault⟩

/-- The files as they are, and what has been printed and called so far. -/
structure World where
  files : Files
  lines : List ReportLine
  calls : List Call

abbrev Action := ExceptT Refusal (StateM World)

namespace Action

def start (files : Files) : World := ⟨files, [], []⟩

def print (line : ReportLine) : Action Unit :=
  modify fun world => { world with lines := world.lines ++ [line] }

def ofOutcome {Value : Type} (outcome : Outcome Value) : Action Value :=
  match outcome with
  | .ok value => pure value
  | .error refusal => throw refusal

def read {Value : Type} (look : Files → Outcome Value) : Action Value := do
  ofOutcome (look (← get).files)

/-- A change of the files, which is made as a whole or not at all. -/
def change (step : Files → Outcome Files) : Action Unit := do
  let files ← read step
  modify fun world => { world with files := files }

/-- Makes a directory and the directories above it. -/
def makeDirectories (path : String) : Action Unit := do
  let (files, fault) := (← get).files.makeDirectories path
  modify fun world => { world with files := files }
  match fault with
  | some fault => throw ⟨["Failed to create directory " ++ path], .file fault⟩
  | none => pure ()

/-- Writes a text that is called by what it holds. -/
def write (what text path : String) : Action Unit :=
  change fun files =>
    Outcome.ofFile ("Failed to write " ++ what ++ " to " ++ path) (files.writeText path text)

/-- Writes a stored document and makes the directory that it is in. -/
def store (what text path : String) : Action Unit := do
  (Path.parent? path).forM makeDirectories
  write what text path

/-- States what was being done if an action is refused. -/
def within {Value : Type} (context : String) (action : Action Value) : Action Value :=
  tryCatch action fun refusal => throw (refusal.within context)

def settings (host : Host) : Action Settings := ofOutcome host.settings

def session (host : Host) : Action Session := do
  let settings ← settings host
  let files := (← get).files
  return ⟨settings, files.here.path, host.lookup, files⟩

def table (session : Session) : Action AppletTable := ofOutcome session.table

end Action

end ContainerApplets
