import ContainerApplets.Files.Calls
import ContainerApplets.Refusal
import ContainerApplets.Text.Blank
import ContainerApplets.Text.Template
import ContainerApplets.Yaml.Stored
import ContainerApplets.Yaml.Written

/-!
The registry: named sources of fragments, in the order in which they were added. It is stored as a
document in the root directory.
-/

namespace ContainerApplets

inductive SourceKind
  /-- A path with variables. -/
  | file
  | url
  deriving DecidableEq, Inhabited

namespace SourceKind

def label : SourceKind → String
  | .file => "file"
  | .url => "url"

def all : List SourceKind := [.file, .url]

def choices : List (String × SourceKind) := all.map fun kind => (kind.label, kind)

def named? (label : String) : Option SourceKind := choices.lookup label

/-- The kind of a source by the look of its path. -/
def ofPath (path : String) : SourceKind :=
  if path.startsWith "http://" || path.startsWith "https://" then .url else .file

def ofLabel (label : String) : Except Failure SourceKind :=
  match named? label with
  | some kind => .ok kind
  | none => .error (.registry
      ("unsupported repo type '" ++ label ++ "' (expected 'file' or 'url')"))

end SourceKind

/-- The text at an address of the network, or why there is none. -/
structure Network where
  get : String → Except String String

structure Source where
  name : String
  path : String
  kind : SourceKind
  deriving DecidableEq, Inhabited

namespace Source

/-- A source whose kind may be left to its path. -/
def ofPath (name path : String) (kind : Option SourceKind) : Source :=
  ⟨name, path, kind.getD (.ofPath path)⟩

/-- The label of the fragment of a source. -/
def origin (source : Source) : String := source.name ++ " (" ++ source.path ++ ")"

/-- The text of a source. -/
def fetch (source : Source) (network : Network) (lookup : Environment) (files : Files) :
    Except Failure String :=
  match source.kind with
  | .file =>
      let path := expand lookup source.path
      match files.readText path with
      | .ok text => .ok text
      | .error fault => .error (.fetch source.name (path ++ ": " ++ fault.reason))
  | .url =>
      match network.get source.path with
      | .ok text => .ok text
      | .error reason => .error (.fetch source.name (source.path ++ ": " ++ reason))

end Source

structure Registry where
  sources : List Source
  deriving DecidableEq

namespace Registry

def empty : Registry := ⟨[]⟩

instance : Inhabited Registry := ⟨empty⟩

def find? (registry : Registry) (name : String) : Option Source :=
  registry.sources.find? fun source => source.name == name

def replaceIn (source : Source) : List Source → List Source
  | [] => [source]
  | first :: rest =>
      if first.name = source.name then source :: rest else first :: replaceIn source rest

/-- A source of a known name takes the place of the one before. -/
def add (registry : Registry) (source : Source) : Registry := ⟨replaceIn source registry.sources⟩

def remove (registry : Registry) (name : String) : Registry :=
  ⟨registry.sources.filter fun source => source.name != name⟩

def contains (registry : Registry) (name : String) : Bool := (registry.find? name).isSome

/-! ### The stored document -/

def Source.fields (source : Source) : List (String × String) :=
  [("name", source.name), ("path", source.path), ("type", source.kind.label)]

def text (registry : Registry) : String :=
  Yaml.Written.document [("repos", .records (registry.sources.map Source.fields))]

open Yaml in
def readSource (node : Node) : Except Fault Source := do
  let found ← Stored.fields ["name", "path", "type"] node
  let name ← Stored.asText (← Stored.required found "name")
  let path ← Stored.asText (← Stored.required found "path")
  let kind ← Stored.asChoice SourceKind.choices (← Stored.required found "type")
  return ⟨name, path, kind⟩

open Yaml in
/-- The registry that a text holds; a blank text holds the empty one. -/
def ofText (text : String) : Except Fault Registry :=
  if (Text.trim text.toList).isEmpty then .ok .empty
  else do
    let found ← Stored.fields ["repos"] (← Stored.ofText text)
    match found.lookup "repos" with
    | none => return .empty
    | some node => return ⟨← (← Stored.asList node).mapM readSource⟩

end Registry

/-! ### Stored documents -/

/-- Reads a stored document; a file that is not there holds the empty one. -/
def loadStored {Value : Type} (what : String) (empty : Value)
    (read : String → Except Yaml.Fault Value) (files : Files) (path : String) : Outcome Value := do
  if !files.exists? path then return empty
  let text ← Outcome.ofFile ("Failed to read " ++ what ++ " from " ++ path) (files.readText path)
  match read text with
  | .ok value => return value
  | .error fault =>
      throw ⟨["Failed to parse " ++ what ++ " from " ++ path], .document fault.message⟩

namespace Registry

def load (files : Files) (path : String) : Outcome Registry :=
  loadStored "registry" empty ofText files path

end Registry

end ContainerApplets
