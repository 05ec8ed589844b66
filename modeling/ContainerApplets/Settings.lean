import ContainerApplets.Files.Path
import ContainerApplets.Refusal
import ContainerApplets.RunLine
import ContainerApplets.Text.Template

/-!
Settings come from variables, with defaults below the home directory. Their values are texts with
variables themselves.
-/

namespace ContainerApplets

structure Settings where
  /-- Holds the registry, the cache and the fragments of the user. -/
  rootDirectory : String
  installDirectory : String
  separator : String
  runtime : String
  trailing : TrailingArguments
  deriving DecidableEq, Inhabited

namespace Settings

def rootVariable : String := "DOCKERBOX_ROOT_DIR"
def installVariable : String := "DOCKERBOX_INSTALL_DIR"
def separatorVariable : String := "DOCKERBOX_SEPARATOR"
def runtimeVariable : String := "DOCKERBOX_RUNTIME"
def trailingVariable : String := "DOCKERBOX_TRAILING_ARGS"

def defaultSeparator : String := "--"
def defaultRuntime : String := "docker"

/-- The value of a variable; an empty variable counts as unset, and the value is expanded. -/
def value? (lookup : Environment) (name : String) : Option String :=
  match lookup name with
  | some value => if value.isEmpty then none else some (expand lookup value)
  | none => none

def trailingOf (lookup : Environment) : Outcome TrailingArguments :=
  match value? lookup trailingVariable with
  | none => .ok .replace
  | some mode =>
      match TrailingArguments.ofText mode with
      | .ok trailing => .ok trailing
      | .error message => .error ⟨[], .note (trailingVariable ++ ": " ++ message)⟩

/-- The home directory of the variable, or else the one that the system knows. -/
def homeOf? (known : Option String) (lookup : Environment) : Option String :=
  match lookup "HOME" with
  | none | some "" => known
  | some home => some home

def ofEnvironment (known : Option String) (lookup : Environment) : Outcome Settings :=
  match homeOf? known lookup with
  | none => .error ⟨[], .note "Cannot determine home directory; set $HOME"⟩
  | some home => do
      let base := Path.join home ".dockerbox"
      let trailing ← trailingOf lookup
      return {
        rootDirectory := (value? lookup rootVariable).getD base
        installDirectory := (value? lookup installVariable).getD (Path.join base "bin")
        separator := (value? lookup separatorVariable).getD defaultSeparator
        runtime := (value? lookup runtimeVariable).getD defaultRuntime
        trailing := trailing }

def registryPath (settings : Settings) : String :=
  Path.join settings.rootDirectory "registry.yaml"

def cachePath (settings : Settings) : String := Path.join settings.rootDirectory "cache.yaml"

def runOptions (settings : Settings) (stdinIsTerminal : Bool) : RunOptions :=
  ⟨settings.runtime, stdinIsTerminal, settings.trailing⟩

end Settings

end ContainerApplets
