/-!
How one argument of a command line is written: as flags, as the end of all flags, or as a word.
-/

namespace ContainerApplets

inductive Argument
  /-- A flag by its name, with what follows an equals sign. -/
  | long (name : String) (value : Option String)
  /-- Letters after one hyphen. -/
  | short (first : Char) (rest : List Char)
  | endOfFlags
  | word
  deriving DecidableEq

namespace Argument

def attached (text : List Char) : Option String :=
  if '=' ∈ text then some (String.ofList (text.dropWhile (· ≠ '=')).tail) else none

def ofText (text : String) : Argument :=
  match text.toList with
  | ['-', '-'] => .endOfFlags
  | '-' :: '-' :: name => .long (String.ofList (name.takeWhile (· ≠ '='))) (attached name)
  | '-' :: first :: rest => .short first rest
  | _ => .word

end Argument

end ContainerApplets
