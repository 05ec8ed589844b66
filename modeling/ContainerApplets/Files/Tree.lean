import ContainerApplets.Failure
import ContainerApplets.Files.Path

/-!
A tree of files: directories, texts and symbolic links, each at its own place below the root. A
path is walked from a directory, piece by piece; links on the way are followed, and the number of
links is limited.
-/

namespace ContainerApplets

inductive FileNode
  | directory
  | file (text : String) (isExecutable : Bool)
  | link (target : String)
  deriving DecidableEq, Inhabited

/-- The names from the root down to a place. -/
abbrev Place := List String

/-- What an entry of a directory can be called. -/
def isFileName (name : String) : Bool :=
  name ∉ ["", ".", ".."] && !name.toList.contains '/' && !name.toList.contains '\x00'

def Place.isProper (place : Place) : Bool := place.all isFileName

/-- At most one node stands at a place. Names are texts here; a name that is not UTF-8 has no place
in a tree. -/
structure FileTree where
  entries : List (Place × FileNode)
  distinct : (entries.map Prod.fst).Nodup
  proper : ∀ entry ∈ entries, entry.1.isProper = true
  deriving DecidableEq

namespace FileTree

def empty : FileTree := ⟨[], List.nodup_nil, nofun⟩

instance : Inhabited FileTree := ⟨empty⟩

/-- The root is a directory. -/
def node? (tree : FileTree) (place : Place) : Option FileNode :=
  if place.isEmpty then some .directory else tree.entries.lookup place

def keep (tree : FileTree) (test : Place → Bool) : FileTree where
  entries := tree.entries.filter fun entry => test entry.1
  distinct := tree.distinct.sublist (List.filter_sublist.map Prod.fst)
  proper := fun entry member => tree.proper entry (List.mem_filter.mp member).1

theorem place_not_mem_keep (tree : FileTree) (place : Place) :
    place ∉ (tree.keep (· ≠ place)).entries.map Prod.fst := by
  intro member
  obtain ⟨entry, kept, same⟩ := List.mem_map.mp member
  exact of_decide_eq_true (List.mem_filter.mp kept).2 same

/-- Puts a node at a place, over what stands there. Nothing can stand at a place that no names
lead to. -/
def set (tree : FileTree) (place : Place) (node : FileNode) : FileTree :=
  if isProper : place.isProper = true then
    { entries := (place, node) :: (tree.keep (· ≠ place)).entries
      distinct := List.nodup_cons.mpr
        ⟨tree.place_not_mem_keep place, (tree.keep (· ≠ place)).distinct⟩
      proper := List.forall_mem_cons.mpr ⟨isProper, (tree.keep (· ≠ place)).proper⟩ }
  else tree

def isBelow (place other : Place) : Bool := place.isPrefixOf other

/-- Removes what stands at a place, and below it. -/
def remove (tree : FileTree) (place : Place) : FileTree :=
  tree.keep fun other => !isBelow place other

/-- The name of a place that is directly below a directory. -/
def nameIn? (directory place : Place) : Option String :=
  if place.length = directory.length + 1 ∧ isBelow directory place then place.getLast? else none

/-- The names directly below a directory, in no order of their own. -/
def names (tree : FileTree) (directory : Place) : List String :=
  tree.entries.filterMap fun entry => nameIn? directory entry.1

inductive Found
  | present (place : Place) (node : FileNode)
  /-- The directory is there and has no such name. -/
  | vacant (directory : Place) (name : String)
  deriving DecidableEq

def linkLimit : Nat := 40

def longestName : Nat := 255

def longestPath : Nat := 4095

/-- The pieces of a path from where its walk starts. An empty one says that a directory is meant;
it counts only at the end. -/
def steps (path : String) : List String :=
  let pieces := (Path.pieces path.toList).map String.ofList
  pieces.dropLast.filter (· ≠ "") ++ pieces.drop (pieces.length - 1)

def startOf (here : Place) (path : String) : Place := if Path.isAbsolute path then [] else here

/-- Walks on from a directory. A link that is followed is left to `jump`. -/
def walkBy (tree : FileTree) (follow : Bool) (jump : Place → List String → Except FileFault Found)
    (here : Place) (remaining : List String) : Except FileFault Found :=
  match remaining with
  | [] => .ok (.present here .directory)
  | step :: rest =>
      if step = "" ∨ step = "." then tree.walkBy follow jump here rest
      else if step = ".." then tree.walkBy follow jump here.dropLast rest
      else if longestName < step.utf8ByteSize then .error .nameTooLong
      else
        let place := here ++ [step]
        match tree.node? place with
        | none =>
            if rest = [] then .ok (.vacant here step)
            else .error (if rest = [""] then .missingDirectory else .missing)
        | some .directory => tree.walkBy follow jump place rest
        | some (.file text isExecutable) =>
            if rest = [] then .ok (.present place (.file text isExecutable))
            else .error .notDirectory
        | some (.link target) =>
            if rest = [] ∧ !follow then .ok (.present place (.link target))
            else jump (startOf here target) (steps target ++ rest)

/-- Every link takes one from the links that may still be followed. -/
def walk (tree : FileTree) (follow : Bool) :
    Nat → Place → List String → Except FileFault Found
  | 0 => tree.walkBy follow fun _ _ => .error .loop
  | links + 1 => tree.walkBy follow (tree.walk follow links)

/-- What no file can be named. -/
def checkPath (path : String) : Except FileFault Unit :=
  if path.toList.contains '\x00' then .error .hasNul
  else if path.isEmpty then .error .missing
  else if longestPath < path.utf8ByteSize then .error .nameTooLong
  else .ok ()

/-- What a path leads to. A link at its end is followed on demand. -/
def find (tree : FileTree) (follow : Bool) (here : Place) (path : String) :
    Except FileFault Found := do
  checkPath path
  tree.walk follow linkLimit (startOf here path) (steps path)

/-- Where something new of this name would be. A slash at the end makes no difference. -/
def findNew (tree : FileTree) (here : Place) (path : String) : Except FileFault Found := do
  checkPath path
  tree.walk false linkLimit (startOf here path) ((steps path).filter (· ≠ ""))

end FileTree

end ContainerApplets
