import ContainerApplets.Overrides.Basic

/-!
The flags that override the settings of an applet, and the page that describes them. The primary
network has no flag; `--network` attaches further ones.
-/

namespace ContainerApplets

inductive OverrideTarget
  | text (field : TextField)
  | switch (field : SwitchField)
  | list (field : ListField)
  | hooks (side : HookSide)
  | help
  deriving DecidableEq

structure OverrideFlag where
  target : OverrideTarget
  long : String
  short : Option Char
  about : String
  deriving DecidableEq

namespace OverrideTarget

/-- The value in the description of the flag. -/
def valueName : OverrideTarget → String
  | .text field => field.label.toUpper
  | .switch field => field.key.toUpper
  | .list field => field.key.toUpper
  | .hooks side => side.key.toUpper
  | .help => ""

/-- How the value is written after the flag. A switch takes one only after an equals sign. -/
def valueForm (target : OverrideTarget) : String :=
  match target with
  | .switch _ => "[=<" ++ target.valueName ++ ">]"
  | .help => ""
  | _ => " <" ++ target.valueName ++ ">"

def values : OverrideTarget → String
  | .switch _ => " [possible values: true, false]"
  | _ => ""

end OverrideTarget

namespace OverrideFlag

/-- The flags in the order in which the page lists them. -/
def all : List OverrideFlag := [
  ⟨.text .name, "name", none, "Assign a name to the container"⟩,
  ⟨.text .workDir, "workdir", some 'w', "Working directory inside the container"⟩,
  ⟨.text .entrypoint, "entrypoint", none, "Overwrite the default ENTRYPOINT of the image"⟩,
  ⟨.text .restart, "restart", none, "Restart policy to apply when a container exits"⟩,
  ⟨.text .hostname, "hostname", none, "Container host name"⟩,
  ⟨.text .image, "image", none, "Container image"⟩,
  ⟨.text .tag, "tag", none, "Container image tag"⟩,
  ⟨.switch .rm, "rm", none, "Automatically remove the container when it exits"⟩,
  ⟨.switch .interactive, "interactive", some 'i', "Keep STDIN open even if not attached"⟩,
  ⟨.switch .tty, "tty", some 't', "Allocate a pseudo-TTY"⟩,
  ⟨.switch .privileged, "privileged", none, "Give extended privileges to this container"⟩,
  ⟨.switch .detach, "detach", some 'd', "Run container in background and print container ID"⟩,
  ⟨.switch .kill, "kill", none, "Kill a previous container with the same name first"⟩,
  ⟨.switch .pull, "pull", none, "Pull the image before running it"⟩,
  ⟨.list .environment, "env", some 'e', "Set environment variables"⟩,
  ⟨.list .volumes, "volume", some 'v', "Bind mount a volume"⟩,
  ⟨.list .ports, "publish", some 'p', "Publish a container's port(s) to the host"⟩,
  ⟨.list .networks, "network", none, "Connect the container to a network"⟩,
  ⟨.list .dns, "dns", none, "Set custom DNS servers"⟩,
  ⟨.list .dnsSearch, "dns-search", none, "Set custom DNS search domains"⟩,
  ⟨.list .dnsOption, "dns-option", none, "Set DNS options"⟩,
  ⟨.list .envFile, "env-file", none, "Read in a file of environment variables"⟩,
  ⟨.list .links, "link", none, "Add link to another container"⟩,
  ⟨.hooks .before, "before-hook", none, "Run another applet before this one"⟩,
  ⟨.hooks .after, "after-hook", none, "Run another applet after this one"⟩,
  ⟨.help, "help", some 'h', "Print help"⟩]

def ofLong? (name : String) : Option OverrideFlag := all.find? fun flag => flag.long == name

def ofShort? (letter : Char) : Option OverrideFlag :=
  all.find? fun flag => flag.short == some letter

def display (flag : OverrideFlag) : String := "--" ++ flag.long ++ flag.target.valueForm

def spelling (flag : OverrideFlag) : String :=
  match flag.short with
  | some letter => "-" ++ letter.toString ++ ", " ++ flag.display
  | none => "    " ++ flag.display

def padTo (width : Nat) (text : String) : String :=
  text ++ String.ofList (List.replicate (width - text.length) ' ')

def page (appletName : String) : String :=
  let width := (all.map fun flag => flag.spelling.length).foldl max 0
  "Override applet settings for this invocation\n\nUsage: " ++ appletName ++
    " [OPTIONS]\n\nOptions:\n" ++
    String.join (all.map fun flag =>
      "  " ++ padTo width flag.spelling ++ "  " ++ flag.about ++ flag.target.values ++ "\n")

end OverrideFlag

end ContainerApplets
