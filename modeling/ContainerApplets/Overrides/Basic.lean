import ContainerApplets.Applet.Basic

/-!
Settings given at an invocation, for that invocation only.
-/

namespace ContainerApplets

structure Overrides where
  text : TextField → Option String
  switch : SwitchField → Option Bool
  list : ListField → List String
  hooks : HookSide → List String
  deriving DecidableEq

namespace Overrides

def none : Overrides where
  text := fun _ => Option.none
  switch := fun _ => Option.none
  list := fun _ => []
  hooks := fun _ => []

instance : Inhabited Overrides := ⟨none⟩

def isEmpty (overrides : Overrides) : Bool := overrides = none

/-- A single value replaces the configured one; lists go on after the configured entries; a hook
that is configured is not added again. -/
def apply (overrides : Overrides) (applet : Applet) : Applet :=
  { applet with
    text := fun field => (overrides.text field).getD (applet.text field)
    switch := fun field => (overrides.switch field).getD (applet.switch field)
    list := fun field => applet.list field ++ overrides.list field
    hooks := fun side => addHooks (applet.hooks side) (overrides.hooks side) }

end Overrides

end ContainerApplets
