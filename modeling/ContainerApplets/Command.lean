import ContainerApplets.Shell

/-!
One external command: a program and its arguments.
-/

namespace ContainerApplets

/-- A silent command runs away from the terminal and may fail. -/
structure Command where
  silent : Bool
  tokens : List String
  deriving DecidableEq, Inhabited

namespace Command

def loud (program : String) (arguments : List String) : Command := ⟨false, program :: arguments⟩

def quiet (program : String) (arguments : List String) : Command := ⟨true, program :: arguments⟩

def program (command : Command) : String := command.tokens.headD ""

def arguments (command : Command) : List String := command.tokens.tail

/-- The command as a line that a shell reads back. -/
def line (command : Command) : String := Shell.line command.tokens

/-- The line with its failure forgiven when the command is silent. -/
def planLine (command : Command) : String :=
  if command.silent then command.line ++ " || true" else command.line

end Command

end ContainerApplets
