import ContainerApplets.Command
import ContainerApplets.HookWalk
import ContainerApplets.RunLine

/-!
The commands of an invocation: the declared resources that it needs are created first, then every
applet of the closure is pulled, killed and run as configured. Only the root applet sees the
arguments given at the invocation.
-/

namespace ContainerApplets

def Applet.commands (applet : Applet) (extra : List String) (options : RunOptions) :
    List Command :=
  (if applet.switch .pull then [.loud options.runtime (pullLine applet)] else []) ++
  (if applet.switch .kill then [.quiet options.runtime (killLine applet)] else []) ++
  [.loud options.runtime (runLine applet extra options)]

namespace Resource

/-- Creating a resource that is already there fails, so the command is silent. -/
def create (kind key : String) (resource : Resource) (options : RunOptions) : Command :=
  let driver := match resource.driver with
    | some driver => if driver.isEmpty then [] else ["--driver", driver]
    | none => []
  let name := if resource.name.isEmpty then key else resource.name
  .quiet options.runtime ([kind, "create"] ++ driver ++ [name])

end Resource

/-- The part of a mount before its first colon. -/
def mountSource (mount : String) : String := String.ofList (mount.toList.takeWhile (· ≠ ':'))

namespace AppletTable

/-- The first declared volume, in key order, whose key or name is this source. -/
def declaredVolume (table : AppletTable) (source : String) : Option (String × Resource) :=
  table.volumes.entries.find? fun entry => entry.1 = source || entry.2.name = source

/-- The declared volumes that these applets mount, each once, in the order of first use. -/
def mountedVolumes (table : AppletTable) (applets : List Applet) : List (String × Resource) :=
  let mounts := applets.flatMap fun applet => applet.list .volumes
  let declared := mounts.filterMap fun mount => table.declaredVolume (mountSource mount)
  declared.foldl (fun found entry =>
    if entry.1 ∈ found.map Prod.fst then found else found ++ [entry]) []

def resourceCommands (table : AppletTable) (applets : List Applet) (options : RunOptions) :
    List Command :=
  table.networks.entries.map (fun entry => entry.2.create "network" entry.1 options) ++
  (table.mountedVolumes applets).map fun entry => entry.2.create "volume" entry.1 options

/-- The commands of the applets that a walk has noted. -/
def hookCommands (root : Applet) (order : List Applet) (extra : List String)
    (options : RunOptions) : List Command :=
  order.flatMap fun applet =>
    applet.commands (if applet.appletName = root.appletName then extra else []) options

def resolve (table : AppletTable) (root : Applet) (extra : List String) (options : RunOptions) :
    Except Failure (List Command) := do
  let order ← table.closure root
  return hookCommands root order extra options

def plan (table : AppletTable) (root : Applet) (extra : List String) (options : RunOptions) :
    Except Failure (List Command) := do
  let order ← table.closure root
  return table.resourceCommands order options ++ hookCommands root order extra options

end AppletTable

end ContainerApplets
