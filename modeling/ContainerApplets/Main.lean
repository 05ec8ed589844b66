import ContainerApplets.Program.Launch

/-!
The program. It looks at the directories that an invocation is about, lets the library decide, and
carries the result out. It can neither start programs nor make links, it reaches no address, and it
knows of no home directory but that of the variable.
-/

namespace ContainerApplets.Main

/-! ### Looking -/

def parts (separator : Char) (text : String) : List String :=
  (text.split (· == separator)).toList.map (·.copy)

/-- A text of parts that each end in NUL. -/
def listed (path : String) : IO (List String) := do
  return (parts '\x00' (← IO.FS.readFile path)).dropLast

def environment : IO Environment := do
  let entries := (← listed "/proc/self/environ").map fun entry =>
    let text := entry.toList
    (String.ofList (text.takeWhile (· ≠ '=')), String.ofList (text.dropWhile (· ≠ '=')).tail)
  return fun name => entries.lookup name

def placeOf (path : String) : Place := (parts '/' path).filter (· ≠ "")

def absolute (here : Place) (path : String) : String := Path.join here.path path

/-- The time at which this process came to be. -/
def startTime : IO Timestamp := do
  let time := (← (← IO.FS.realPath "/proc/self").metadata).modified
  return ⟨time.sec / 86400, (time.sec % 86400).toNat, time.nsec.toNat⟩

def readText (path : String) : IO String :=
  tryCatch (IO.FS.readFile path) fun _ => return ""

def followed (path : String) : IO String := return (← IO.FS.realPath path).toString

/-- What stands at a place, and whether it is a directory. -/
def look (tree : FileTree) (place : Place) : IO (FileTree × Bool) :=
  tryCatch (do
    let path := (← IO.currentDir) / place.path
    match (← path.symlinkMetadata).type with
    | .dir => return (tree.set place .directory, true)
    | .symlink => return (tree.set place (.link (← followed place.path)), false)
    | _ => return (tree.set place (.file (← readText place.path) false), false))
    fun _ => return (tree, false)

/-- A place with all that is above it and directly in it. -/
def survey (tree : FileTree) (place : Place) : IO FileTree := do
  let above := (List.range (place.length + 1)).map place.take
  let tree ← above.foldlM (fun tree place => return (← look tree place).1) tree
  tryCatch (do
    let entries ← ((← IO.currentDir) / place.path).readDir
    entries.toList.foldlM (fun tree entry =>
      return (← look tree (place ++ [entry.fileName])).1) tree)
    fun _ => return tree

/-- The directory of a path, and also where it leads when there are links on the way. -/
def surveyPath (here : Place) (tree : FileTree) (path : String) : IO FileTree := do
  let tree ← survey tree (placeOf (absolute here path))
  tryCatch (do survey tree (placeOf (← followed (absolute here path)))) fun _ => return tree

def directories (lookup : Environment) (request : Except UsageReport Request) : List String :=
  let configured := match Settings.ofEnvironment none lookup with
    | .ok settings => [settings.rootDirectory, settings.installDirectory]
    | .error _ => []
  match request with
  | .ok (.schema (some path)) => configured ++ (Path.parent? path).toList
  | _ => configured

def sourceDirectories (lookup : Environment) (files : Files) : List String :=
  match Settings.ofEnvironment none lookup with
  | .error _ => []
  | .ok settings =>
      match Registry.load files settings.registryPath with
      | .error _ => []
      | .ok registry => registry.sources.filterMap fun source =>
          Path.parent? (expand lookup source.path)

/-! ### Carrying out -/

def put (place : Place) : FileNode → IO Unit
  | .directory => IO.FS.createDirAll place.path
  | .file text _ => IO.FS.writeFile place.path text
  | .link target => throw (IO.userError
      ("Failed to link " ++ place.path ++ " -> " ++ target ++ ": " ++ FileFault.unsupported.reason))

def carryOut (before after : FileTree) : IO Unit := do
  for (place, _) in before.entries do
    if (after.node? place).isNone then IO.FS.removeFile place.path
  for (place, node) in after.entries.reverse do
    if before.node? place != some node then put place node

def invoke : IO UInt32 := do
  let argv ← listed "/proc/self/cmdline"
  let lookup ← environment
  let here := placeOf (← IO.currentDir).toString
  let request := Request.ofArguments argv
  let above := (List.range (here.length + 1)).map fun depth => Place.path (here.take depth)
  let tree ← (above ++ directories lookup request).foldlM (surveyPath here) FileTree.empty
  let tree ← (sourceDirectories lookup ⟨tree, here⟩).foldlM (surveyPath here) tree
  let network : Network := ⟨fun _ => .error "no connection"⟩
  let host : Host := ⟨lookup, none, network, (← IO.appPath).toString, ← startTime,
    ← (← IO.getStdin).isTty, fun _ _ => .error .unsupported⟩
  let ending := launch host argv ⟨tree, here⟩
  carryOut tree ending.files.tree
  IO.print ending.standardOutput
  IO.eprint ending.standardError
  return ending.code.toUInt32

end ContainerApplets.Main

def main : IO UInt32 :=
  tryCatch ContainerApplets.Main.invoke fun fault => do
    IO.eprintln (toString fault)
    return 1
