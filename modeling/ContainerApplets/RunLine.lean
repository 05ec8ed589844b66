import ContainerApplets.Applet.Basic
import ContainerApplets.Text.Blank

/-!
The argument lists of the three container commands that an applet can ask for: `run`, `pull` and
`kill`. The flags of `run` are data, in the order in which they are written; scripts rely on it.
-/

namespace ContainerApplets

/-- What arguments given at the invocation do to the configured command. -/
inductive TrailingArguments
  | replace
  | append
  deriving DecidableEq, Inhabited

namespace TrailingArguments

def label : TrailingArguments → String
  | .replace => "replace"
  | .append => "append"

def lowerAscii (text : String) : String := text.map Char.toLower

/-- The mode with this name, in any ASCII case and between blanks, or the reason why there is
none. -/
def ofText (text : String) : Except String TrailingArguments :=
  let mode := lowerAscii (String.ofList (Text.trim text.toList))
  if mode = "replace" then .ok .replace
  else if mode = "append" then .ok .append
  else .error ("invalid trailing args mode '" ++ mode ++ "' (expected 'replace' or 'append')")

end TrailingArguments

structure RunOptions where
  /-- The container program in front of every command. -/
  runtime : String
  stdinIsTerminal : Bool
  trailing : TrailingArguments
  deriving DecidableEq, Inhabited

inductive FlagSource
  | text (field : TextField)
  | switch (field : SwitchField)
  | terminal (field : SwitchField)
  | list (field : ListField)
  deriving DecidableEq

structure RunFlag where
  flag : String
  source : FlagSource
  deriving DecidableEq

/-- Network attachments precede published ports. -/
def runFlags : List RunFlag := [
  ⟨"--name", .text .name⟩,
  ⟨"--workdir", .text .workDir⟩,
  ⟨"--entrypoint", .text .entrypoint⟩,
  ⟨"--restart", .text .restart⟩,
  ⟨"--network", .text .network⟩,
  ⟨"--hostname", .text .hostname⟩,
  ⟨"--rm", .switch .rm⟩,
  ⟨"--privileged", .switch .privileged⟩,
  ⟨"--detach", .switch .detach⟩,
  ⟨"--interactive", .switch .interactive⟩,
  ⟨"--tty", .terminal .tty⟩,
  ⟨"--dns", .list .dns⟩,
  ⟨"--dns-search", .list .dnsSearch⟩,
  ⟨"--dns-option", .list .dnsOption⟩,
  ⟨"-e", .list .environment⟩,
  ⟨"-v", .list .volumes⟩,
  ⟨"--network", .list .networks⟩,
  ⟨"-p", .list .ports⟩,
  ⟨"--env-file", .list .envFile⟩,
  ⟨"--link", .list .links⟩]

/-- An empty text and a switch that is off write nothing; a list writes its flag before every
element. -/
def RunFlag.tokens (rule : RunFlag) (applet : Applet) (options : RunOptions) : List String :=
  match rule.source with
  | .text field => if (applet.text field).isEmpty then [] else [rule.flag, applet.text field]
  | .switch field => if applet.switch field then [rule.flag] else []
  | .terminal field => if options.stdinIsTerminal && applet.switch field then [rule.flag] else []
  | .list field => (applet.list field).flatMap fun value => [rule.flag, value]

/-- The flags of `run`, without the image and what follows it. -/
def flagTokens (applet : Applet) (options : RunOptions) : List String :=
  runFlags.flatMap fun rule => rule.tokens applet options

def containerArguments (applet : Applet) (extra : List String) :
    TrailingArguments → List String
  | .replace => if extra.isEmpty then applet.command else extra
  | .append => applet.command ++ extra

def runLine (applet : Applet) (extra : List String) (options : RunOptions) : List String :=
  "run" :: flagTokens applet options ++
    applet.imageReference :: containerArguments applet extra options.trailing

def pullLine (applet : Applet) : List String := ["pull", applet.imageReference]

def killLine (applet : Applet) : List String := ["kill", applet.containerName]

end ContainerApplets
