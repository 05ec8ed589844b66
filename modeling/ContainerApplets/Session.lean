import ContainerApplets.Cache
import ContainerApplets.Discovery
import ContainerApplets.Settings

/-!
A session knows the settings and the working directory of one invocation. Its fragments are those of
the cache followed by the files that discovery finds.
-/

namespace ContainerApplets

structure Session where
  settings : Settings
  /-- Where the search for fragment files starts. -/
  directory : String
  lookup : Environment
  files : Files

/-- Reads a fragment file. Its path is its origin. -/
def readFragment (lookup : Environment) (files : Files) (path : String) :
    Except Failure Fragment :=
  match files.readText path with
  | .ok text => Fragment.ofText path lookup text
  | .error fault => .error (.file fault)

namespace Session

def discovered (session : Session) : List String :=
  discover session.files session.settings.rootDirectory session.directory

def fragmentAt (session : Session) (path : String) : Outcome Fragment :=
  Outcome.within ("Failed to load " ++ path)
    (Outcome.ofResult (readFragment session.lookup session.files path))

def fragments (session : Session) : Outcome (List Fragment) := do
  let cache ← Cache.load session.files session.settings.cachePath
  let cached ← cache.toFragments session.lookup
  let found ← session.discovered.mapM session.fragmentAt
  return cached ++ found

def table (session : Session) : Outcome AppletTable := do
  let fragments ← session.fragments
  Outcome.within "Failed to load applets" (Outcome.ofResult (merge fragments))

end Session

end ContainerApplets
