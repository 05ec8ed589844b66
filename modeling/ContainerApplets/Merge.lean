import ContainerApplets.Fragment.Basic
import ContainerApplets.HookWalk
import ContainerApplets.Text.Quoted

/-!
Fragments are merged in their order. A single-valued setting may be set many times, but only to one
value; lists are put one after the other; a hook that is there already is not added again. The
merged table is checked before it is given out.
-/

namespace ContainerApplets

/-- A value and the origin of the fragment that set it first. -/
structure Slot (Value : Type) where
  value : Value
  origin : String
  deriving DecidableEq

structure Site where
  entity : String
  name : String
  origin : String
  deriving DecidableEq

namespace Slot

variable {Value : Type}

/-- The first value stays. -/
def fill (slot : Option (Slot Value)) (incoming : Option Value) (origin : String) :
    Option (Slot Value) :=
  slot <|> incoming.map fun value => ⟨value, origin⟩

/-- A value that differs from the one that is set. -/
def conflict? [DecidableEq Value] (shown : Value → String) (site : Site) (field : String)
    (slot : Option (Slot Value)) (incoming : Option Value) : Option Conflict :=
  match slot, incoming with
  | some present, some value =>
      if present.value = value then none
      else some ⟨site.entity, site.name, field, shown present.value, present.origin, shown value,
        site.origin⟩
  | _, _ => none

def value? (slot : Option (Slot Value)) : Option Value := slot.map Slot.value

end Slot

def refuse (conflicts : List Conflict) : Except Failure Unit :=
  match conflicts with
  | [] => .ok ()
  | conflict :: _ => .error (.conflict conflict)

/-! ### Applets -/

/-- What the fragments read so far say about an applet. -/
structure AppletDraft where
  text : TextField → Option (Slot String)
  switch : SwitchField → Option (Slot Bool)
  command : Option (Slot (List String))
  list : ListField → List String
  hooks : HookSide → List String
  /-- The first fragment that mentions the applet. -/
  origin : String

namespace AppletDraft

def start (origin : String) : AppletDraft where
  text := fun _ => none
  switch := fun _ => none
  command := none
  list := fun _ => []
  hooks := fun _ => []
  origin := origin

/-- The settings that a fragment sets to another value, in the order in which they are checked. -/
def conflicts (draft : AppletDraft) (site : Site) (fragment : AppletFragment) : List Conflict :=
  TextField.all.filterMap (fun field =>
    Slot.conflict? Text.quoted site field.key (draft.text field) (fragment.text field)) ++
  SwitchField.all.filterMap (fun field =>
    Slot.conflict? toString site field.key (draft.switch field) (fragment.switch field)) ++
  (Slot.conflict? Text.quotedList site AppletSetting.command.key draft.command
    fragment.command).toList

def add (draft : AppletDraft) (fragment : AppletFragment) (origin : String) : AppletDraft where
  text := fun field => Slot.fill (draft.text field) (fragment.text field) origin
  switch := fun field => Slot.fill (draft.switch field) (fragment.switch field) origin
  command := Slot.fill draft.command fragment.command origin
  list := fun field => draft.list field ++ fragment.list field
  hooks := fun side => addHooks (draft.hooks side) (fragment.hooks side)
  origin := draft.origin

/-- An applet may repeat its name, which is its key. -/
def checkName (key origin : String) (fragment : AppletFragment) : Except Failure Unit :=
  match fragment.appletName with
  | none => .ok ()
  | some name =>
      if name = key then .ok ()
      else .error (.invalid origin
        (Section.applets.key ++ "." ++ key ++ "." ++ AppletSetting.appletName.key)
        ("'" ++ name ++ "' does not match the applet key '" ++ key ++ "'"))

def absorb (draft : AppletDraft) (key origin : String) (fragment : AppletFragment) :
    Except Failure AppletDraft := do
  checkName key origin fragment
  refuse (draft.conflicts ⟨"applet", key, origin⟩ fragment)
  return draft.add fragment origin

/-- What no fragment set has its default. -/
def applet (draft : AppletDraft) (key : String) : Applet where
  appletName := key
  text := fun field => (Slot.value? (draft.text field)).getD field.default
  switch := fun field => (Slot.value? (draft.switch field)).getD field.default
  list := draft.list
  hooks := draft.hooks
  command := (Slot.value? draft.command).getD []

end AppletDraft

/-- The complaint about an applet without an image. -/
def missingImage (origin key : String) : Failure :=
  .invalid origin (Section.applets.key ++ "." ++ key ++ "." ++ TextField.image.key)
    "required field is missing or empty"

def AppletDraft.checkImage (draft : AppletDraft) (key : String) : Except Failure Unit :=
  if (draft.applet key).image.isEmpty then .error (missingImage draft.origin key) else .ok ()

/-! ### Resources -/

structure ResourceDraft where
  name : Option (Slot String)
  driver : Option (Slot String)

namespace ResourceDraft

def start : ResourceDraft := ⟨none, none⟩

def conflicts (draft : ResourceDraft) (site : Site) (fragment : ResourceFragment) :
    List Conflict :=
  (Slot.conflict? Text.quoted site ResourceSetting.name.key draft.name fragment.name).toList ++
  (Slot.conflict? Text.quoted site ResourceSetting.driver.key draft.driver fragment.driver).toList

def add (draft : ResourceDraft) (fragment : ResourceFragment) (origin : String) :
    ResourceDraft where
  name := Slot.fill draft.name fragment.name origin
  driver := Slot.fill draft.driver fragment.driver origin

def absorb (draft : ResourceDraft) (entity key origin : String) (fragment : ResourceFragment) :
    Except Failure ResourceDraft := do
  refuse (draft.conflicts ⟨entity, key, origin⟩ fragment)
  return draft.add fragment origin

/-- A resource without a name, or with an empty one, is named by its key. -/
def resource (draft : ResourceDraft) (key : String) : Resource where
  name := match Slot.value? draft.name with
    | some name => if name.isEmpty then key else name
    | none => key
  driver := Slot.value? draft.driver

end ResourceDraft

/-! ### Tables -/

structure Draft where
  applets : Catalog AppletDraft
  volumes : Catalog ResourceDraft
  networks : Catalog ResourceDraft
  ignored : NameSet

namespace Draft

def empty : Draft := ⟨.empty, .empty, .empty, .empty⟩

def addApplet (origin : String) (drafts : Catalog AppletDraft)
    (entry : String × AppletFragment) : Except Failure (Catalog AppletDraft) := do
  let draft := (drafts.get? entry.1).getD (.start origin)
  return drafts.insert entry.1 (← draft.absorb entry.1 origin entry.2)

def addResource (entity origin : String) (drafts : Catalog ResourceDraft)
    (entry : String × ResourceFragment) : Except Failure (Catalog ResourceDraft) := do
  let draft := (drafts.get? entry.1).getD .start
  return drafts.insert entry.1 (← draft.absorb entity entry.1 origin entry.2)

def add (draft : Draft) (fragment : Fragment) : Except Failure Draft := do
  let document := fragment.document
  let applets ← document.applets.entries.foldlM (addApplet fragment.origin) draft.applets
  let volumes ←
    document.volumes.entries.foldlM (addResource "volume" fragment.origin) draft.volumes
  let networks ←
    document.networks.entries.foldlM (addResource "network" fragment.origin) draft.networks
  return ⟨applets, volumes, networks, draft.ignored.insertAll document.ignored⟩

def ofFragments (fragments : List Fragment) : Except Failure Draft := fragments.foldlM add empty

def table (draft : Draft) : AppletTable where
  applets := draft.applets.map fun key applet => applet.applet key
  volumes := draft.volumes.map fun key resource => resource.resource key
  networks := draft.networks.map fun key resource => resource.resource key
  ignored := draft.ignored

/-- The table, if every applet has an image and can be expanded. -/
def finish (draft : Draft) : Except Failure AppletTable := do
  draft.applets.entries.forM fun entry => entry.2.checkImage entry.1
  draft.table.validate
  return draft.table

end Draft

def merge (fragments : List Fragment) : Except Failure AppletTable := do
  let draft ← Draft.ofFragments fragments
  draft.finish

end ContainerApplets
