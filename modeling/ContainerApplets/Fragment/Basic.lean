import ContainerApplets.Applet.Basic
import ContainerApplets.Text.Template

/-!
A fragment is one document that contributes applets, volumes, networks and names to ignore. Every
setting of an applet may be left unset, so that several fragments can describe one applet.
-/

namespace ContainerApplets

structure AppletFragment where
  appletName : Option String
  text : TextField → Option String
  switch : SwitchField → Option Bool
  list : ListField → List String
  hooks : HookSide → List String
  /-- An empty command is set, unlike none. -/
  command : Option (List String)
  deriving DecidableEq

namespace AppletFragment

def unset : AppletFragment where
  appletName := none
  text := fun _ => none
  switch := fun _ => none
  list := fun _ => []
  hooks := fun _ => []
  command := none

instance : Inhabited AppletFragment := ⟨unset⟩

end AppletFragment

structure ResourceFragment where
  name : Option String
  driver : Option String
  deriving DecidableEq, Inhabited

def ResourceFragment.unset : ResourceFragment := ⟨none, none⟩

structure FragmentDocument where
  applets : Catalog AppletFragment
  volumes : Catalog ResourceFragment
  networks : Catalog ResourceFragment
  ignored : List String
  deriving DecidableEq

def FragmentDocument.empty : FragmentDocument := ⟨.empty, .empty, .empty, []⟩

instance : Inhabited FragmentDocument := ⟨.empty⟩

/-- A document and the label that messages about it carry. -/
structure Fragment where
  origin : String
  document : FragmentDocument
  deriving DecidableEq, Inhabited

/-- The settings of an applet in a fragment. -/
inductive AppletSetting
  | appletName
  | text (field : TextField)
  | switch (field : SwitchField)
  | list (field : ListField)
  | hooks (side : HookSide)
  | command
  deriving DecidableEq

namespace AppletSetting

/-- The order in which messages list the settings and fragments are written. -/
def all : List AppletSetting :=
  .appletName :: TextField.all.map .text ++ SwitchField.all.map .switch ++
    ListField.all.map .list ++ HookSide.all.map .hooks ++ [.command]

theorem mem_all (setting : AppletSetting) : setting ∈ all := by
  cases setting with
  | text field => simp [all, TextField.mem_all]
  | switch field => simp [all, SwitchField.mem_all]
  | list field => simp [all, ListField.mem_all]
  | hooks side => simp [all, HookSide.mem_all]
  | _ => simp [all]

def key : AppletSetting → String
  | .appletName => "applet_name"
  | .text field => field.key
  | .switch field => field.key
  | .list field => field.key
  | .hooks side => side.key
  | .command => "command"

end AppletSetting

inductive ResourceSetting
  | name
  | driver
  deriving DecidableEq

namespace ResourceSetting

def all : List ResourceSetting := [.name, .driver]

theorem mem_all (setting : ResourceSetting) : setting ∈ all := by cases setting <;> decide

def key : ResourceSetting → String
  | .name => "name"
  | .driver => "driver"

end ResourceSetting

inductive Section
  | applets
  | volumes
  | networks
  | ignored
  deriving DecidableEq

namespace Section

def all : List Section := [.applets, .volumes, .networks, .ignored]

def key : Section → String
  | .applets => "applets"
  | .volumes => "volumes"
  | .networks => "networks"
  | .ignored => "ignore"

end Section

end ContainerApplets
