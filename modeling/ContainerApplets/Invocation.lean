import ContainerApplets.Overrides.Parse
import ContainerApplets.Plan
import ContainerApplets.Refusal

/-!
An invocation of an applet: override flags stand before the separator and arguments of the
container after it.
-/

namespace ContainerApplets

structure SplitArguments where
  flags : List String
  extra : List String
  deriving DecidableEq

/-- Splits at the first separator; without one there are no flags. -/
def splitArguments (separator : String) (arguments : List String) : SplitArguments :=
  if separator ∈ arguments then
    ⟨arguments.takeWhile (· ≠ separator), (arguments.dropWhile (· ≠ separator)).tail⟩
  else ⟨[], arguments⟩

/-- The origin of what is given at the invocation itself. -/
def invocationOrigin : String := "<invocation>"

def Outcome.ofUsage {Value : Type} (result : Except UsageReport Value) : Outcome Value :=
  match result with
  | .ok value => .ok value
  | .error report => .error ⟨[], .usage report⟩

namespace AppletTable

def named (table : AppletTable) (name : String) : Except Failure Applet :=
  match table.get? name with
  | some applet => .ok applet
  | none => .error (.unknownApplet name)

/-- An applet with overrides still needs an image. -/
def checkOverridden (name : String) (applet : Applet) : Except Failure Unit :=
  if applet.image.isEmpty then
    .error (.invalid invocationOrigin ("applets." ++ name ++ ".image")
      "required field is missing or empty")
  else .ok ()

/-- The commands for an applet that is invoked with these arguments. -/
def prepare (table : AppletTable) (name : String) (arguments : List String) (separator : String)
    (options : RunOptions) : Outcome (List Command) := do
  let base ← Outcome.ofResult (table.named name)
  let split := splitArguments separator arguments
  let overrides ← Outcome.ofUsage (Overrides.ofFlags name split.flags)
  let applet := overrides.apply base
  Outcome.ofResult (do
    checkOverridden name applet
    table.plan applet split.extra options)

end AppletTable

end ContainerApplets
