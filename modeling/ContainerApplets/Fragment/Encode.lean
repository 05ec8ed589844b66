import ContainerApplets.Fragment.Basic
import ContainerApplets.Yaml.Tree

/-!
The tree that a fragment document is written as: what is unset and every empty list are left out,
but an empty command stays.
-/

namespace ContainerApplets

open Yaml

def textsTree (texts : List String) : Tree := .list (texts.map .text)

def textsTree? (texts : List String) : Option Tree :=
  if texts.isEmpty then none else some (textsTree texts)

/-- The settings that have a value, in their order. -/
def settingsTree {Setting : Type} (settings : List Setting) (key : Setting → String)
    (value : Setting → Option Tree) : Tree :=
  .map (settings.filterMap fun setting =>
    (value setting).map fun tree => (Tree.text (key setting), tree))

def AppletFragment.value (fragment : AppletFragment) : AppletSetting → Option Tree
  | .appletName => fragment.appletName.map .text
  | .text field => (fragment.text field).map .text
  | .switch field => (fragment.switch field).map .bool
  | .list field => textsTree? (fragment.list field)
  | .hooks side => textsTree? (fragment.hooks side)
  | .command => fragment.command.map textsTree

def AppletFragment.tree (fragment : AppletFragment) : Tree :=
  settingsTree AppletSetting.all AppletSetting.key fragment.value

def ResourceFragment.value (fragment : ResourceFragment) : ResourceSetting → Option Tree
  | .name => fragment.name.map .text
  | .driver => fragment.driver.map .text

def ResourceFragment.tree (fragment : ResourceFragment) : Tree :=
  settingsTree ResourceSetting.all ResourceSetting.key fragment.value

def entriesTree {Value : Type} (tree : Value → Tree) (catalog : Catalog Value) : Tree :=
  .map (catalog.entries.map fun entry => (.text entry.1, tree entry.2))

def FragmentDocument.sectionTree (document : FragmentDocument) : Section → Tree
  | .applets => entriesTree AppletFragment.tree document.applets
  | .volumes => entriesTree ResourceFragment.tree document.volumes
  | .networks => entriesTree ResourceFragment.tree document.networks
  | .ignored => textsTree document.ignored

def FragmentDocument.tree (document : FragmentDocument) : Tree :=
  .map (Section.all.map fun part => (.text part.key, document.sectionTree part))

end ContainerApplets
