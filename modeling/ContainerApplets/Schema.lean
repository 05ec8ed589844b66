import ContainerApplets.Fragment.Basic
import ContainerApplets.JsonValue

/-!
The schema of fragment documents, for editors and other tools. It lists the settings by name and
says of each what the reader of fragments admits.
-/

namespace ContainerApplets

open JsonValue

namespace AppletSetting

def about : AppletSetting → Option String
  | .appletName => some "Explicit applet name; must match the mapping key when present"
  | .text .name => some "Container name passed as \x60--name\x60"
  | .text .image => some "Container image"
  | .text .tag => some "Container image tag (default \"latest\")"
  | .text .entrypoint => some "Overwrite the default ENTRYPOINT of the image"
  | .text .workDir => some "Working directory inside the container"
  | .text .hostname => some "Container host name"
  | .text .restart => some "Restart policy to apply when a container exits"
  | .text .network => some "Primary network (\x60--network\x60 emitted with the scalar flags)"
  | .switch .rm => some "Automatically remove the container when it exits (default true)"
  | .switch .interactive => some "Keep STDIN open even if not attached (default true)"
  | .switch .tty => some "Allocate a pseudo-TTY when stdin is a terminal (default true)"
  | .switch .kill => some "Kill a previous container with the same name first"
  | .switch .pull => some "Pull the image before running it"
  | .switch _ => none
  | .list .networks => some "Additional networks to attach"
  | .list _ => none
  | .hooks .before => some "Applets to run before this one, in order"
  | .hooks .after => some "Applets to run after this one, in order"
  | .command => some "Command to run in the container; not concatenated across fragments"

end AppletSetting

def ResourceSetting.about : ResourceSetting → Option String
  | .name => some "Resource name (defaults to the key)"
  | .driver => none

namespace Schema

def optionalType (name : String) : String × JsonValue := ("type", JsonValue.texts [name, "null"])

def textItems : String × JsonValue := ("items", .record [("type", .text "string")])

/-- What a setting of an applet may hold. A list is not null: it is left out instead. -/
def appletForm : AppletSetting → List (String × JsonValue)
  | .appletName | .text _ => [optionalType "string"]
  | .switch _ => [optionalType "boolean"]
  | .list _ | .hooks _ => [("type", .text "array"), textItems]
  | .command => [optionalType "array", textItems]

def described (about : Option String) (form : List (String × JsonValue)) : JsonValue :=
  .record ((about.toList.map fun about => ("description", .text about)) ++ form)

def closedRecord (fields : List (String × JsonValue)) : List (String × JsonValue) :=
  [("type", .text "object"), ("properties", .record fields), ("additionalProperties", .bool false)]

def byName (fields : List (String × JsonValue)) : List (String × JsonValue) :=
  fields.mergeSort fun left right => decide (left.1 ≤ right.1)

def appletDefinition : JsonValue :=
  described (some "A single applet as written in one fragment.")
    (closedRecord (byName (AppletSetting.all.map fun setting =>
      (setting.key, described setting.about (appletForm setting)))))

def resourceDefinition : JsonValue :=
  described (some "A declared volume or network as written in one fragment.")
    (closedRecord (byName (ResourceSetting.all.map fun setting =>
      (setting.key, described setting.about [optionalType "string"]))))

def appletName : String := "AppletFragment"

def resourceName : String := "ResourceFragment"

/-- A section of entries that all have the same form. -/
def entries (definition : String) : JsonValue :=
  .record [("type", .text "object"),
    ("additionalProperties", .record [("$ref", .text ("#/$defs/" ++ definition))]),
    ("default", .record [])]

def sectionForm : Section → JsonValue
  | .applets => entries appletName
  | .volumes | .networks => entries resourceName
  | .ignored =>
      .record [
        ("description",
          .text "Applets skipped by \x60install --all\x60 and \x60uninstall --all\x60"),
        ("type", .text "array"), ("default", .list []), textItems]

def document : JsonValue :=
  .record ([("$schema", .text "https://json-schema.org/draft/2020-12/schema"),
    ("title", .text "FragmentDoc"),
    ("description", .text "The document schema of a \x60*.dbx.yaml\x60 fragment.")] ++
    closedRecord (byName (Section.all.map fun part => (part.key, sectionForm part))) ++
    [("$defs", .record [(appletName, appletDefinition), (resourceName, resourceDefinition)])])

def text : String := document.written

end Schema

end ContainerApplets
