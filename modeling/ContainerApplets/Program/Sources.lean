import ContainerApplets.Program.Action

/-!
The commands about registered sources. Every change of the registry is stored before the cache is
updated, and a cache that cannot be refreshed stays as it is.
-/

namespace ContainerApplets.Action

def loadRegistry (settings : Settings) : Action Registry :=
  read fun files => Registry.load files settings.registryPath

def saveRegistry (settings : Settings) (registry : Registry) : Action Unit :=
  store "registry" registry.text settings.registryPath

def saveCache (settings : Settings) (cache : Cache) : Action Unit :=
  store "cache" cache.text settings.cachePath

/-- Replaces the cache by the texts of all registered sources. -/
def updateCache (host : Host) (settings : Settings) : Action Unit := do
  let registry ← loadRegistry settings
  if registry.sources.isEmpty then print (.note "No registry sources; clearing cache")
  let cache ← read fun files => Cache.refresh registry host.network host.lookup files host.now
  saveCache settings cache

def update (host : Host) : Action Unit := do updateCache host (← settings host)

def addSource (host : Host) (source : Source) : Action Unit := do
  let settings ← settings host
  let registry ← loadRegistry settings
  print (.success ("Registered " ++ source.name ++ " (" ++ source.kind.label ++ ": " ++
    source.path ++ ")"))
  saveRegistry settings (registry.add source)
  updateCache host settings

def removeSource (host : Host) (name : String) : Action Unit := do
  let settings ← settings host
  let registry ← loadRegistry settings
  if registry.contains name then
    saveRegistry settings (registry.remove name)
    print (.success ("Removed " ++ name))
    updateCache host settings
  else print (.warning ("No source named " ++ name))

def listSources (host : Host) : Action Unit := do
  let registry ← loadRegistry (← settings host)
  if registry.sources.isEmpty then print (.note "No registry sources")
  registry.sources.forM fun source =>
    print (.pair source.name (source.path ++ " (" ++ source.kind.label ++ ")"))

end ContainerApplets.Action
