import ContainerApplets.Files.Tree

/-!
The calls on files that the library needs. Each either refuses or gives the next tree.
-/

namespace ContainerApplets

/-- A tree of files and the directory that relative paths start from. -/
structure Files where
  tree : FileTree
  here : Place
  deriving DecidableEq, Inhabited

namespace Files

/-- What stands at a path, links followed. -/
def node? (files : Files) (path : String) : Option FileNode :=
  match files.tree.find true files.here path with
  | .ok (.present _ node) => some node
  | _ => none

def exists? (files : Files) (path : String) : Bool := (files.node? path).isSome

def isDirectory (files : Files) (path : String) : Bool := files.node? path == some .directory

def isFile (files : Files) (path : String) : Bool :=
  match files.node? path with
  | some (.file ..) => true
  | _ => false

def isLink (files : Files) (path : String) : Bool :=
  match files.tree.find false files.here path with
  | .ok (.present _ (.link _)) => true
  | _ => false

def readText (files : Files) (path : String) : Except FileFault String := do
  match ← files.tree.find true files.here path with
  | .present _ (.file text _) => return text
  | .present _ .directory => throw .isDirectory
  | _ => throw .missing

def readNames (files : Files) (path : String) : Except FileFault (List String) := do
  match ← files.tree.find true files.here path with
  | .present place .directory => return files.tree.names place
  | .present .. => throw .notDirectory
  | .vacant .. => throw .missing

def endsInSlash (path : String) : Bool := path.toList.getLast? == some '/'

/-- Writes a whole text; a file that is there keeps its mode, and a dangling link gets its
target. -/
def writeText (files : Files) (path text : String) : Except FileFault Files :=
  if endsInSlash path then do
    discard (files.tree.findNew files.here path)
    throw .isDirectory
  else match files.tree.find true files.here path with
    | .ok (.present place (.file _ isExecutable)) =>
        .ok { files with tree := files.tree.set place (.file text isExecutable) }
    | .ok (.present ..) | .error .missingDirectory => .error .isDirectory
    | .ok (.vacant directory name) =>
        .ok { files with tree := files.tree.set (directory ++ [name]) (.file text false) }
    | .error fault => .error fault

def makeDirectory (files : Files) (path : String) : Except FileFault Files := do
  match ← files.tree.findNew files.here path with
  | .present .. => throw .exists
  | .vacant directory name =>
      return { files with tree := files.tree.set (directory ++ [name]) .directory }

/-- Makes a directory in one that is there; a directory that is there already will do. -/
def lastDirectory (files : Files) (path : String) : Files × Option FileFault :=
  match files.makeDirectory path with
  | .ok made => (made, none)
  | .error fault => if files.isDirectory path then (files, none) else (files, some fault)

/-- Makes a directory and the directories above it that are not there. What has been made before a
fault stays. -/
def makeDirectories (files : Files) (path : String) : Files × Option FileFault :=
  if path.isEmpty then (files, none)
  else match files.makeDirectory path with
    | .ok made => (made, none)
    | .error .missing =>
        match Path.parent? path with
        | none => (files, some (.other "failed to create whole tree"))
        | some parent =>
            if parent.length < path.length then
              match files.makeDirectories parent with
              | (files, some fault) => (files, some fault)
              | (files, none) => files.lastDirectory path
            else (files, some .missing)
    | .error fault => if files.isDirectory path then (files, none) else (files, some fault)
  termination_by path.length

def makeLink (files : Files) (target path : String) : Except FileFault Files := do
  FileTree.checkPath target
  match ← files.tree.findNew files.here path with
  | .present .. => throw .exists
  | .vacant directory name =>
      if endsInSlash path then throw .missing
      else return { files with tree := files.tree.set (directory ++ [name]) (.link target) }

/-- Removes a file or a link, but no directory. -/
def removeFile (files : Files) (path : String) : Except FileFault Files := do
  match ← files.tree.find false files.here path with
  | .present _ .directory => throw .isDirectory
  | .present place _ => return { files with tree := files.tree.remove place }
  | .vacant .. => throw .missing

/-- The directory at a path as the system names it, without links. -/
def placeOf? (files : Files) (path : String) : Option Place :=
  match files.tree.find true files.here path with
  | .ok (.present place .directory) => some place
  | _ => none

end Files

def Place.path (place : Place) : String := "/" ++ "/".intercalate place

end ContainerApplets
