/-!
What is wrong with a command line, and the headline of the report about it. A request for help or
for the version is reported in the same way and is no error.
-/

namespace ContainerApplets

/-- An argument is shown with the value that it takes, such as `--name <NAME>`. -/
inductive UsageReport
  /-- A value that the argument does not admit; an empty one stands for no value at all. -/
  | invalidValue (argument value : String)
  | repeated (argument : String)
  | conflict (argument other : String)
  | unknownArgument (argument : String)
  | unknownCommand (name : String)
  /-- A value for an argument that takes none. -/
  | unexpectedValue (argument value : String)
  | missingArguments
  /-- A command was expected; the page of the commands answers. -/
  | missingCommand (page : String)
  | help (page : String)
  | version (page : String)
  deriving DecidableEq, Inhabited

namespace UsageReport

def text : UsageReport → String
  | .invalidValue argument value =>
      if value.isEmpty then
        "error: a value is required for '" ++ argument ++ "' but none was supplied\n"
      else "error: invalid value '" ++ value ++ "' for '" ++ argument ++ "'\n"
  | .repeated argument =>
      "error: the argument '" ++ argument ++ "' cannot be used multiple times\n"
  | .conflict argument other =>
      "error: the argument '" ++ argument ++ "' cannot be used with '" ++ other ++ "'\n"
  | .unknownArgument argument => "error: unexpected argument '" ++ argument ++ "' found\n"
  | .unknownCommand name => "error: unrecognized subcommand '" ++ name ++ "'\n"
  | .unexpectedValue argument value =>
      "error: unexpected value '" ++ value ++ "' for '" ++ argument ++
        "' found; no more were expected\n"
  | .missingArguments => "error: the following required arguments were not provided:\n"
  | .missingCommand page | .help page | .version page => page

/-- Help and version go to standard output and are a success. -/
def isAnswer : UsageReport → Bool
  | .help _ | .version _ => true
  | _ => false

def exitCode (report : UsageReport) : Nat := if report.isAnswer then 0 else 2

end UsageReport

end ContainerApplets
