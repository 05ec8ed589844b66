import ContainerApplets.Failure
import ContainerApplets.Fragment.Basic
import ContainerApplets.Yaml.Document
import ContainerApplets.Yaml.Typed

/-!
Reading a fragment. The schema is closed: a key that it does not know is refused at every level. A
message names the origin of the fragment and the path of what is wrong.
-/

namespace ContainerApplets

open Yaml

/-- The value of one setting in an assignment of values to settings. -/
def assign {Field Value : Type} [DecidableEq Field] (values : Field → Value) (field : Field)
    (value : Value) : Field → Value :=
  fun other => if other = field then value else values other

namespace AppletFragment

def set (fragment : AppletFragment) (setting : AppletSetting) (tree : Tree) :
    Except String AppletFragment :=
  match setting with
  | .appletName => do return { fragment with appletName := ← tree.asOptional Tree.asText }
  | .text field => do
      return { fragment with text := assign fragment.text field (← tree.asOptional Tree.asText) }
  | .switch field => do
      return { fragment with
        switch := assign fragment.switch field (← tree.asOptional Tree.asSwitch) }
  | .list field => do
      return { fragment with list := assign fragment.list field (← tree.asTexts) }
  | .hooks side => do
      return { fragment with hooks := assign fragment.hooks side (← tree.asTexts) }
  | .command => do return { fragment with command := ← tree.asOptional Tree.asTexts }

def form : RecordForm AppletSetting AppletFragment :=
  ⟨"AppletFragment", AppletSetting.all, AppletSetting.key, set⟩

def ofTree (tree : Tree) : Except String AppletFragment := form.read unset tree

end AppletFragment

namespace ResourceFragment

def set (fragment : ResourceFragment) (setting : ResourceSetting) (tree : Tree) :
    Except String ResourceFragment :=
  match setting with
  | .name => do return { fragment with name := ← tree.asOptional Tree.asText }
  | .driver => do return { fragment with driver := ← tree.asOptional Tree.asText }

def form : RecordForm ResourceSetting ResourceFragment :=
  ⟨"ResourceFragment", ResourceSetting.all, ResourceSetting.key, set⟩

def ofTree (tree : Tree) : Except String ResourceFragment := form.read unset tree

end ResourceFragment

/-- Gives a reason its place in a document. -/
def placed {Value : Type} (origin path : String) (result : Except String Value) :
    Except Failure Value :=
  result.mapError fun message => .invalid origin path message

def entryName (origin part : String) (key : Tree) : Except Failure String :=
  match key with
  | .text name => if name.isEmpty then .error (.invalid origin part "empty name") else .ok name
  | other => .error (.invalid origin part ("expected a string name, found " ++ other.kind))

/-- One entry of a section, with a path of its own. -/
def decodeEntry {Value : Type} (origin part : String) (read : Tree → Except String Value)
    (entry : Tree × Tree) : Except Failure (String × Value) := do
  let name ← entryName origin part entry.1
  let value ← placed origin (part ++ "." ++ name) (read entry.2)
  return (name, value)

/-- A section of named entries; null is an empty one. -/
def decodeEntries {Value : Type} (origin part : String) (read : Tree → Except String Value) :
    Tree → Except Failure (Catalog Value)
  | .null => .ok .empty
  | .map entries => Catalog.ofList <$> entries.mapM (decodeEntry origin part read)
  | other => .error (.invalid origin part ("expected a mapping, found " ++ other.kind))

namespace FragmentDocument

def setSection (origin : String) (document : FragmentDocument) (part : Section) (tree : Tree) :
    Except Failure FragmentDocument :=
  match part with
  | .applets => do
      return { document with
        applets := ← decodeEntries origin part.key AppletFragment.ofTree tree }
  | .volumes => do
      return { document with
        volumes := ← decodeEntries origin part.key ResourceFragment.ofTree tree }
  | .networks => do
      return { document with
        networks := ← decodeEntries origin part.key ResourceFragment.ofTree tree }
  | .ignored => do return { document with ignored := ← placed origin part.key tree.asTexts }

def section? (key : String) : Option Section := Section.all.find? fun part => part.key == key

def readSection (origin : String) (document : FragmentDocument) (entry : Tree × Tree) :
    Except Failure FragmentDocument :=
  match entry.1 with
  | .text key =>
      match section? key with
      | some part => document.setSection origin part entry.2
      | none => .error (.invalid origin key ("unknown field, expected one of: " ++
          ", ".intercalate (Section.all.map Section.key)))
  | other =>
      .error (.invalid origin Failure.wholeDocument ("expected string keys, found " ++ other.kind))

/-- Reads the sections in their order; null is a document without sections. -/
def ofTree (origin : String) : Tree → Except Failure FragmentDocument
  | .null => .ok .empty
  | .map entries => entries.foldlM (readSection origin) .empty
  | other =>
      .error (.invalid origin Failure.wholeDocument ("expected a mapping, found " ++ other.kind))

end FragmentDocument

/-- Variables are replaced in the values of a tree and never in its keys. -/
def Yaml.Tree.expandTexts (lookup : Environment) (tree : Tree) : Tree :=
  tree.mapText (expandMarked lookup)

namespace Fragment

def ofTree (origin : String) (lookup : Environment) (tree : Tree) : Except Failure Fragment := do
  return ⟨origin, ← FragmentDocument.ofTree origin (tree.expandTexts lookup)⟩

def ofText (origin : String) (lookup : Environment) (text : String) : Except Failure Fragment :=
  match Tree.ofText text with
  | .ok tree => ofTree origin lookup tree
  | .error fault => .error (.unreadable origin fault.message)

end Fragment

end ContainerApplets
