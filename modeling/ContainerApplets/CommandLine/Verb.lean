import ContainerApplets.Registry

/-!
The management commands: their names, what they are about, and the flags and words that each one
takes.
-/

namespace ContainerApplets.CommandLine

inductive Verb
  | main
  | list
  | install
  | uninstall
  | registry
  | addSource
  | removeSource
  | listSources
  | update
  | version
  | debug
  | plan
  | run
  | schema
  | completions
  | help
  deriving DecidableEq, Inhabited

inductive Flag
  | help
  | version
  | quiet
  | applet
  | all
  | kind
  | output
  deriving DecidableEq

inductive Word
  | applet
  | arguments
  | name
  | path
  | shell
  deriving DecidableEq

def programName : String := "dockerbox"

def programVersion : String := "0.1.0"

namespace Verb

def name : Verb → String
  | .main => programName
  | .list | .listSources => "list"
  | .install => "install"
  | .uninstall => "uninstall"
  | .registry => "registry"
  | .addSource => "add"
  | .removeSource => "remove"
  | .update => "update"
  | .version => "version"
  | .debug => "debug"
  | .plan => "plan"
  | .run => "run"
  | .schema => "schema"
  | .completions => "completions"
  | .help => "help"

def alias? : Verb → Option String
  | .list | .listSources => some "ls"
  | .removeSource => some "rm"
  | _ => none

def about : Verb → String
  | .main => "Run containers as if they were native executables"
  | .list => "List available applets"
  | .install => "Install applet symlinks into the install directory"
  | .uninstall => "Remove applet symlinks from the install directory"
  | .registry => "Manage registry sources"
  | .addSource => "Add or replace a source, then update the cache"
  | .removeSource => "Remove a source, then update the cache"
  | .listSources => "List registered sources"
  | .update => "Fetch registry sources into the local cache"
  | .version => "Print version information"
  | .debug => "Print the merged applet table as JSON"
  | .plan => "Print the commands an applet invocation would run"
  | .run => "Run an applet"
  | .schema => "Print the JSON schema of fragment files"
  | .completions => "Generate shell completions"
  | .help => "Print this message or the help of the given subcommand(s)"

/-- The commands below a command. Help is one of them wherever there are any. -/
def commands : Verb → List Verb
  | .main => [.list, .install, .uninstall, .registry, .update, .version, .debug, .plan, .run,
      .schema, .completions, .help]
  | .registry => [.addSource, .removeSource, .listSources, .help]
  | _ => []

def isNamed (verb : Verb) (name : String) : Bool := verb.name == name || verb.alias? == some name

def command? (verb : Verb) (name : String) : Option Verb :=
  verb.commands.find? fun command => command.isNamed name

def path (verb : Verb) : List String :=
  match verb with
  | .main => [programName]
  | .addSource | .removeSource | .listSources => [programName, Verb.registry.name, verb.name]
  | verb => [programName, verb.name]

def flags : Verb → List Flag
  | .list => [.quiet, .help, .version]
  | .install | .uninstall => [.applet, .all, .help, .version]
  | .addSource => [.kind, .help, .version]
  | .schema => [.output, .help, .version]
  | _ => [.help, .version]

def words : Verb → List Word
  | .plan | .run => [.applet, .arguments]
  | .addSource => [.name, .path]
  | .removeSource => [.name]
  | .completions => [.shell]
  | _ => []

/-- The page that answers a request for help: what the command is about and how it is called. -/
def page (verb : Verb) : String :=
  verb.about ++ "\n\nUsage: " ++ " ".intercalate verb.path ++
    (if verb.commands.isEmpty then " [OPTIONS]\n" else " <COMMAND>\n")

def versionLine (verb : Verb) : String := "-".intercalate verb.path ++ " " ++ programVersion ++ "\n"

end Verb

namespace Flag

def long : Flag → String
  | .help => "help"
  | .version => "version"
  | .quiet => "quiet"
  | .applet => "applet"
  | .all => "all"
  | .kind => "type"
  | .output => "output"

def short? : Flag → Option Char
  | .help => some 'h'
  | .version => some 'V'
  | .quiet => some 'q'
  | .applet => some 'a'
  | .output => some 'o'
  | _ => none

def value? : Flag → Option String
  | .applet => some "APPLET"
  | .kind => some "KIND"
  | .output => some "OUTPUT"
  | _ => none

def takesValue (flag : Flag) : Bool := flag.value?.isSome

def display (flag : Flag) : String :=
  match flag.value? with
  | some value => "--" ++ flag.long ++ " <" ++ value ++ ">"
  | none => "--" ++ flag.long

def admits (flag : Flag) (value : String) : Bool :=
  match flag with
  | .kind => (SourceKind.named? value).isSome
  | .output => !value.isEmpty
  | _ => true

end Flag

def shells : List String := ["bash", "elvish", "fish", "powershell", "zsh"]

namespace Word

def display : Word → String
  | .applet => "<APPLET>"
  | .arguments => "[ARGS]..."
  | .name => "<NAME>"
  | .path => "<PATH>"
  | .shell => "<SHELL>"

def admits (word : Word) (value : String) : Bool :=
  match word with
  | .shell => shells.contains value
  | _ => true

end Word

namespace Verb

def long? (verb : Verb) (name : String) : Option Flag :=
  verb.flags.find? fun flag => flag.long == name

def short? (verb : Verb) (letter : Char) : Option Flag :=
  verb.flags.find? fun flag => flag.short? == some letter

end Verb

end ContainerApplets.CommandLine
