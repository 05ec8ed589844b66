import ContainerApplets.Program.Applets
import ContainerApplets.Program.Sources

/-!
One invocation of the program, from its arguments to its exit code.
-/

namespace ContainerApplets

def Request.perform (host : Host) : Request → Action Unit
  | .list quiet => Action.listApplets host quiet
  | .install target => Action.install host target
  | .uninstall target => Action.uninstall host target
  | .addSource name path kind => Action.addSource host (.ofPath name path kind)
  | .removeSource name => Action.removeSource host name
  | .listSources => Action.listSources host
  | .update => Action.update host
  | .version =>
      Action.print (.plain (CommandLine.programName ++ " " ++ CommandLine.programVersion))
  | .debug => Action.showTable host
  | .plan applet arguments => Action.plan host applet arguments
  | .run applet arguments => Action.run host applet arguments
  | .schema output => Action.showSchema output
  | .completions _ => pure ()

/-- What is left of an invocation. -/
structure Ending where
  files : Files
  calls : List Call
  standardOutput : String
  standardError : String
  code : Nat

namespace Ending

def linesText (lines : List ReportLine) : String :=
  String.join (lines.map fun line => line.text ++ "\n")

/-- All that was to be done is done. -/
def ofWorld (world : World) : Ending :=
  ⟨world.files, world.calls, linesText world.lines, "", 0⟩

def addUsage (ending : Ending) (report : UsageReport) : Ending :=
  if report.isAnswer then
    { ending with standardOutput := ending.standardOutput ++ report.text, code := report.exitCode }
  else { ending with standardError := ending.standardError ++ report.text, code := report.exitCode }

/-- A command that failed has reported its own failure, so only its exit code is passed on. -/
def addRefusal (ending : Ending) (refusal : Refusal) : Ending :=
  match refusal.cause with
  | .usage report => ending.addUsage report
  | .failure (.exited _ code) => { ending with code := code.toNat }
  | _ => { ending with
      standardError := ending.standardError ++ linesText [.failure refusal.chain], code := 1 }

end Ending

/-- Runs an action on some files to its end. -/
def Action.finish (action : Action Unit) (files : Files) : Ending :=
  match action (Action.start files) with
  | (.ok _, world) => .ofWorld world
  | (.error refusal, world) => (Ending.ofWorld world).addRefusal refusal

def launch (host : Host) (argv : List String) (files : Files) : Ending :=
  match Request.ofArguments argv with
  | .ok request => (request.perform host).finish files
  | .error report => (Ending.ofWorld (Action.start files)).addUsage report

end ContainerApplets
