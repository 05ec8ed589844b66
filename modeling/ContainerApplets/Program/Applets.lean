import ContainerApplets.Applet.Listing
import ContainerApplets.CommandLine.Request
import ContainerApplets.Invocation
import ContainerApplets.Links
import ContainerApplets.Program.Action
import ContainerApplets.Schema

/-!
The commands about applets: they are listed, shown, installed, planned and run.
-/

namespace ContainerApplets.Action

/-! ### Showing -/

def appletItem (table : AppletTable) (entry : String × Applet) : ReportLine :=
  .item (ReportLine.padEnd 20 entry.1 ++ " " ++ entry.2.imageReference ++
    if table.isIgnored entry.1 then " (ignored)" else "")

def noApplets (rootDirectory : String) : List ReportLine := [
  .note "No applets defined",
  .hint ("Add a *.dbx.yaml file to " ++ rootDirectory ++
    " or run: dockerbox registry add <name> <path>")]

def listApplets (host : Host) (quiet : Bool) : Action Unit := do
  let session ← session host
  let table ← table session
  if quiet then table.applets.names.forM fun name => print (.plain name)
  else if table.applets.names.isEmpty then
    (noApplets session.settings.rootDirectory).forM print
  else table.applets.entries.forM fun entry => print (appletItem table entry)

def showTable (host : Host) : Action Unit := do
  let table ← table (← session host)
  print (.plain table.json.written)

/-- The schema is printed, or written to a file whose directory is made. -/
def showSchema (output : Option String) : Action Unit :=
  match output with
  | none => print (.plain Schema.text)
  | some path => do
      store "schema" Schema.text path
      print (.success ("Wrote " ++ path))

/-! ### Installing -/

/-- The applets that a target stands for. A single one has to be known, even if it is ignored. -/
def targets (table : AppletTable) : Target → Except Failure (List String)
  | .one name => do
      discard (table.named name)
      return [name]
  | .all => .ok table.installable

/-- Makes the install directory, also where the link is then refused, and puts the link there. A
link that was in the way stays away if the new one cannot be made. -/
def installLink (executable installDirectory name : String) : Action Unit := do
  makeDirectories installDirectory
  let link := linkPath installDirectory name
  change (clearLink link)
  change (placeLink executable link)

def uninstallLink (installDirectory name : String) : Action Bool := do
  let (removed, files) ← read (removeLink installDirectory name)
  modify fun world => { world with files := files }
  return removed

def installOne (host : Host) (installDirectory name : String) : Action Unit := do
  within ("Failed to install " ++ name) (installLink host.executable installDirectory name)
  print (.success ("Installed " ++ name ++ " -> " ++ linkPath installDirectory name))

def uninstallOne (installDirectory name : String) : Action Unit := do
  let removed ← within ("Failed to uninstall " ++ name) (uninstallLink installDirectory name)
  print (if removed then .success ("Uninstalled " ++ name)
    else .warning (name ++ " is not installed"))

def install (host : Host) (target : Target) : Action Unit := do
  let session ← session host
  let names ← ofOutcome (Outcome.ofResult (targets (← table session) target))
  names.forM (installOne host session.settings.installDirectory)

def uninstall (host : Host) (target : Target) : Action Unit := do
  let session ← session host
  let names ← ofOutcome (Outcome.ofResult (targets (← table session) target))
  names.forM (uninstallOne session.settings.installDirectory)

/-! ### Running -/

def prepare (host : Host) (applet : String) (arguments : List String) : Action (List Command) := do
  let session ← session host
  let table ← table session
  ofOutcome (table.prepare applet arguments session.settings.separator
    (session.settings.runOptions host.stdinIsTerminal))

def plan (host : Host) (applet : String) (arguments : List String) : Action Unit := do
  (← prepare host applet arguments).forM fun command => print (.plain command.planLine)

def run (host : Host) (applet : String) (arguments : List String) : Action Unit := do
  let execution := execute host.runner (← prepare host applet arguments)
  modify fun world => { world with calls := world.calls ++ execution.calls }
  ofOutcome execution.result

end ContainerApplets.Action
