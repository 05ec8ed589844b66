import ContainerApplets.Applet.Basic
import ContainerApplets.JsonValue

/-!
A table written out in full, with every setting of every applet.
-/

namespace ContainerApplets

open JsonValue

def Applet.json (applet : Applet) : JsonValue :=
  .record (("applet_name", .text applet.appletName) ::
    TextField.all.map (fun field => (field.label, .text (applet.text field))) ++
    SwitchField.all.map (fun field => (field.key, .bool (applet.switch field))) ++
    ListField.all.map (fun field => (field.key, texts (applet.list field))) ++
    HookSide.all.map (fun side => (side.key, texts (applet.hooks side))) ++
    [("command", texts applet.command)])

def Resource.json (resource : Resource) : JsonValue :=
  .record (("name", .text resource.name) ::
    resource.driver.toList.map fun driver => ("driver", .text driver))

def Catalog.json {Value : Type} (json : Value → JsonValue) (catalog : Catalog Value) : JsonValue :=
  .record (catalog.entries.map fun entry => (entry.1, json entry.2))

def AppletTable.json (table : AppletTable) : JsonValue :=
  .record [("applets", table.applets.json Applet.json),
    ("volumes", table.volumes.json Resource.json),
    ("networks", table.networks.json Resource.json), ("ignore", texts table.ignored.names)]

end ContainerApplets
