import ContainerApplets.CommandLine.Level

/-!
What an invocation of the program asks for. The program is called by its own name to manage applets,
and by the name of an applet to run it.
-/

namespace ContainerApplets

inductive Target
  | one (applet : String)
  | all
  deriving DecidableEq

inductive Request
  | list (quiet : Bool)
  | install (target : Target)
  | uninstall (target : Target)
  | addSource (name path : String) (kind : Option SourceKind)
  | removeSource (name : String)
  | listSources
  | update
  | version
  | debug
  | plan (applet : String) (arguments : List String)
  | run (applet : String) (arguments : List String)
  | schema (output : Option String)
  | completions (shell : String)
  deriving DecidableEq

namespace CommandLine

/-! ### A level as a request -/

/-- One applet or all of them, but not both. -/
def Level.target (level : Level) : Except UsageReport Target :=
  match level.flags with
  | [] => .error .missingArguments
  | [(.applet, name)] => .ok (.one name)
  | [_] => .ok .all
  | (first, _) :: (second, _) :: _ => .error (.conflict first.display second.display)

/-- The arguments of an applet as they stand behind its name, also where the name or a double hyphen
was taken for something else on the way. -/
def rawArguments (applet : String) (arguments argv : List String) : List String :=
  let behind := argv.drop 2
  if applet ∈ behind then (behind.dropWhile (· ≠ applet)).tail else arguments

/-- The request of a level at the end of the arguments. -/
def Level.request (level : Level) (argv : List String) : Except UsageReport Request :=
  match level.verb, level.words with
  | .main, _ | .registry, _ | .help, _ => .error (.missingCommand level.verb.page)
  | .list, _ => .ok (.list (level.has .quiet))
  | .install, _ => .install <$> level.target
  | .uninstall, _ => .uninstall <$> level.target
  | .addSource, [name, path] =>
      .ok (.addSource name path ((level.value? .kind).bind SourceKind.named?))
  | .removeSource, [name] => .ok (.removeSource name)
  | .listSources, _ => .ok .listSources
  | .update, _ => .ok .update
  | .version, _ => .ok .version
  | .debug, _ => .ok .debug
  | .plan, applet :: arguments => .ok (.plan applet (rawArguments applet arguments argv))
  | .run, applet :: arguments => .ok (.run applet (rawArguments applet arguments argv))
  | .schema, _ => .ok (.schema (level.value? .output))
  | .completions, [shell] => .ok (.completions shell)
  | _, _ => .error .missingArguments

/-! ### From the program to a command -/

inductive State
  | reading (level : Level)
  /-- The commands whose help is asked for are walked down by their names. -/
  | helping (verb : Verb)

namespace State

/-- A command may stand where no value is awaited and the flags have not ended. -/
def command? (level : Level) (argument : String) : Option Verb :=
  if level.ended then none else level.verb.command? argument

def step (state : State) (argument : String) : Except UsageReport State :=
  match state with
  | .helping verb =>
      match verb.command? argument with
      | some command => .ok (.helping command)
      | none => .error (.unknownCommand argument)
  | .reading level =>
      match command? level argument with
      | some .help => .ok (.helping level.verb)
      | some command => .ok (.reading (.start command))
      | none => .reading <$> level.step argument

def finish (state : State) (argv : List String) : Except UsageReport Request :=
  match state with
  | .helping verb => .error (.help verb.page)
  | .reading level => do (← level.settle).request argv

end State

def requestOf (argv : List String) : Except UsageReport Request := do
  let state ← argv.tail.foldlM State.step (.reading (.start .main))
  state.finish argv

end CommandLine

/-! ### By which name the program was called -/

/-- The applet that a program path selects; the program's own name and a path without a name select
none. -/
def appletOfPath? (path : String) : Option String :=
  match Path.fileName? path with
  | some name => if name = CommandLine.programName then none else some name
  | none => none

/-- The request of an invocation, the path of the program included. -/
def Request.ofArguments (argv : List String) : Except UsageReport Request :=
  match appletOfPath? (argv.headD CommandLine.programName) with
  | some applet => .ok (.run applet argv.tail)
  | none => CommandLine.requestOf argv

end ContainerApplets
