import ContainerApplets.Applet.Basic
import ContainerApplets.Failure

/-!
The depth-first walk along the hooks of an applet. An applet is entered once: whoever reaches it
again, on a cycle or by a second way, is refused. The walk notes each applet between its before
hooks and its after hooks, which is the order of execution.
-/

namespace ContainerApplets

/-- The names entered so far and the applets in execution order. -/
structure Walk where
  entered : List String
  order : List Applet
  deriving DecidableEq

namespace Walk

def start : Walk := ⟨[], []⟩

def enter (walk : Walk) (name : String) : Walk := { walk with entered := name :: walk.entered }

def note (walk : Walk) (applet : Applet) : Walk := { walk with order := walk.order ++ [applet] }

end Walk

namespace AppletTable

def hook (table : AppletTable) (referrer : Applet) (side : HookSide) (name : String) :
    Except Failure Applet :=
  match table.get? name with
  | some applet => .ok applet
  | none => .error (.missingHook side name referrer.appletName)

/-- Visits an applet and its hooks. Every applet below the root is one of the table, and none is
entered twice on the way down, so a walk that is deeper than the table is large has come to an
applet again. -/
def visit (table : AppletTable) : (depth : Nat) → Applet → Walk → Except Failure Walk
  | 0, applet, _ => .error (.cycle applet.appletName)
  | depth + 1, applet, walk =>
      if applet.appletName ∈ walk.entered then .error (.cycle applet.appletName)
      else do
        let through := fun (side : HookSide) (walk : Walk) (name : String) => do
          let target ← table.hook applet side name
          table.visit depth target walk
        let walk ← (applet.hooks .before).foldlM (through .before) (walk.enter applet.appletName)
        (applet.hooks .after).foldlM (through .after) (walk.note applet)

def walk (table : AppletTable) (root : Applet) : Except Failure Walk :=
  table.visit (table.applets.size + 1) root .start

/-- The applets that an invocation runs, in order. -/
def closure (table : AppletTable) (root : Applet) : Except Failure (List Applet) :=
  Walk.order <$> table.walk root

/-- Every applet of the table can be expanded; the first in name order that cannot is reported. -/
def validate (table : AppletTable) : Except Failure Unit :=
  table.applets.values.forM fun applet => discard (table.walk applet)

end AppletTable

end ContainerApplets
