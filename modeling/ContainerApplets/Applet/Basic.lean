import ContainerApplets.Catalog
import ContainerApplets.Applet.Field

/-!
An applet is a complete launch profile of a container. A table holds the applets and the declared
volumes and networks, each by its key, and the names that bulk installation leaves out.
-/

namespace ContainerApplets

structure Applet where
  appletName : String
  text : TextField → String
  switch : SwitchField → Bool
  list : ListField → List String
  hooks : HookSide → List String
  command : List String
  deriving DecidableEq

namespace Applet

/-- An applet with every setting empty or off. -/
def bare (appletName : String) : Applet where
  appletName := appletName
  text := fun _ => ""
  switch := fun _ => false
  list := fun _ => []
  hooks := fun _ => []
  command := []

instance : Inhabited Applet := ⟨bare ""⟩

/-- An applet of which only the image is configured. -/
def ofImage (appletName image : String) : Applet :=
  { bare appletName with
    text := fun field => if field = .image then image else field.default
    switch := SwitchField.default }

def image (applet : Applet) : String := applet.text .image

def imageReference (applet : Applet) : String :=
  if (applet.text .tag).isEmpty then applet.image else applet.image ++ ":" ++ applet.text .tag

/-- The name by which the running container is addressed. -/
def containerName (applet : Applet) : String :=
  if (applet.text .name).isEmpty then applet.appletName else applet.text .name

end Applet

/-- Adds the hooks that are not there yet, in the order in which they are first seen. -/
def addHooks (hooks more : List String) : List String :=
  more.foldl (fun hooks hook => if hook ∈ hooks then hooks else hooks ++ [hook]) hooks

/-- A declared volume or network. -/
structure Resource where
  name : String
  driver : Option String
  deriving DecidableEq, Inhabited

structure AppletTable where
  applets : Catalog Applet
  volumes : Catalog Resource
  networks : Catalog Resource
  ignored : NameSet
  deriving DecidableEq

namespace AppletTable

def empty : AppletTable := ⟨.empty, .empty, .empty, .empty⟩

instance : Inhabited AppletTable := ⟨empty⟩

def get? (table : AppletTable) (name : String) : Option Applet := table.applets.get? name

def isIgnored (table : AppletTable) (name : String) : Bool := table.ignored.contains name

/-- The applets that bulk installation is about. -/
def installable (table : AppletTable) : List String :=
  table.applets.names.filter fun name => !table.isIgnored name

def insert (table : AppletTable) (applet : Applet) : AppletTable :=
  { table with applets := table.applets.insert applet.appletName applet }

/-- Every applet stands under its own name. -/
def Keyed (table : AppletTable) : Prop :=
  ∀ name applet, table.get? name = some applet → applet.appletName = name

theorem keyed_empty : empty.Keyed := by
  intro name applet found
  exact nomatch found

theorem keyed_insert {table : AppletTable} (keyed : table.Keyed) (applet : Applet) :
    (table.insert applet).Keyed := by
  intro name found
  simp only [get?, insert, Catalog.get_insert]
  split
  · next same =>
    intro equal
    cases equal
    exact same.symm
  · exact keyed name found

end AppletTable

end ContainerApplets
