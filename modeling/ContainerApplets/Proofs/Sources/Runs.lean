import ContainerApplets.Proofs.Sources.Commands

/-!
Updating the cache. An update that is refused leaves the cache alone, and one that is not puts the
texts of all sources there, which merge. So in whatever order sources are added, removed and
changed, a cache that is there can be loaded and merged.
-/

namespace ContainerApplets

/-! ### How an update ends -/

namespace Settings

variable {host : Host} {lookup : Environment} {settings : Settings} {home : String}
  {files after : Files}

/-- The stored cache merges, and it can be loaded if it is read back at all. -/
structure HoldsCache (settings : Settings) (lookup : Environment) (files : Files) (cache : Cache) :
    Prop where
  stored : files.readText settings.cachePath = .ok cache.text
  merges : cache.Merges lookup
  loads : Cache.ofText cache.text = .ok cache → Cache.load files settings.cachePath = .ok cache

theorem load_of_stored {cache : Cache} (stored : files.readText settings.cachePath = .ok cache.text)
    (readBack : Cache.ofText cache.text = .ok cache) :
    Cache.load files settings.cachePath = .ok cache := by
  rw [Cache.load, loadStored, Files.exists_of_read_text stored, stored, Outcome.ofFile, ok_bind,
    readBack]
  rfl

/-- The cache is not there, or it merges. -/
def CacheMerges (settings : Settings) (lookup : Environment) (files : Files) : Prop :=
  files.exists? settings.cachePath = false ∨ ∃ cache, settings.HoldsCache lookup files cache

/-- What holds at all times of a run. -/
structure Fits (settings : Settings) (lookup : Environment) (files : Files) : Prop where
  sound : files.Sound
  apart : settings.Apart files
  cache : settings.CacheMerges lookup files

theorem Fits.keeps (fits : settings.Fits lookup files) (keeps : settings.Keeps files after) :
    settings.Fits lookup after := by
  refine ⟨keeps.sound, keeps.apart, ?_⟩
  rcases fits.cache with absent | ⟨cache, holds⟩
  · left
    rw [Files.exists?, keeps.cache]
    exact absent
  · right
    have stored : after.readText settings.cachePath = .ok cache.text := by
      rw [Files.read_text_eq_ok_iff, keeps.cache, ← Files.read_text_eq_ok_iff]
      exact holds.stored
    exact ⟨cache, stored, holds.merges, load_of_stored stored⟩

theorem Fits.updates (fits : settings.Fits host.lookup files) (atHome : settings.IsHome home)
    {outcome : Except Refusal Unit}
    (updates : Action.Updates host settings home files outcome after) :
    settings.Fits host.lookup after := by
  cases updates with
  | refused => exact fits
  | @stored _ cache _ _ _ refreshed stores =>
      rcases store_cache_keeps atHome fits.sound fits.apart stores with keeps | replaced
      · exact fits.keeps keeps
      · obtain ⟨sound, apart, stored⟩ := replaced
        have merges := (Cache.refresh_spec refreshed).2
        exact ⟨sound, apart, .inr ⟨cache, stored, merges, load_of_stored stored⟩⟩

theorem Fits.changes (fits : settings.Fits host.lookup files) (atHome : settings.IsHome home)
    (changes : Action.Changes host settings home files after) :
    settings.Fits host.lookup after := by
  cases changes with
  | nothing => exact fits
  | updates updates => exact fits.updates atHome updates
  | unsaved stores => exact fits.keeps (store_registry_keeps atHome fits.sound fits.apart stores)
  | saved stores updates =>
      have saved := fits.keeps (store_registry_keeps atHome fits.sound fits.apart stores)
      exact saved.updates atHome updates

end Settings

/-- The commands that change what is registered or cached. -/
inductive Request.ChangesSources : Request → Prop
  | addSource (name path : String) (kind : Option SourceKind) :
      ChangesSources (.addSource name path kind)
  | removeSource (name : String) : ChangesSources (.removeSource name)
  | update : ChangesSources .update

/-- Commands with the same variables and settings, one after another. In between, everything but the
cache can be changed from outside. -/
inductive Settings.Runs (settings : Settings) (lookup : Environment) (first : Files) : Files → Prop
  | start : Runs settings lookup first first
  | command {files : Files} {host : Host} {request : Request}
      (run : Runs settings lookup first files) (same : host.lookup = lookup)
      (set : host.settings = .ok settings) (changing : request.ChangesSources) :
      Runs settings lookup first ((request.perform host).finish files).files
  | outside {files changed : Files} (run : Runs settings lookup first files)
      (keeps : settings.Keeps files changed) : Runs settings lookup first changed

section Runs

variable {host : Host} {lookup : Environment} {settings : Settings} {home : String}
  {files first : Files}

theorem Request.ChangesSources.changes {request : Request} (changing : request.ChangesSources)
    (set : host.settings = .ok settings) (atHome : settings.IsHome home) (files : Files) :
    Action.Changes host settings home files ((request.perform host).finish files).files := by
  rw [Action.finish_files]
  cases changing with
  | addSource name path kind =>
      exact Action.add_source_changes set atHome (.ofPath name path kind) (Action.start files)
  | removeSource name => exact Action.remove_source_changes set atHome name (Action.start files)
  | update => exact .updates (Action.update_updates set atHome (Action.start files))

theorem Settings.Runs.fits (run : settings.Runs lookup first files)
    (fits : settings.Fits lookup first) : settings.Fits lookup files := by
  obtain ⟨home, atHome⟩ := settings.exists_home
  induction run with
  | start => exact fits
  | command _ same set changing induction =>
      subst same
      exact induction.changes atHome (changing.changes set atHome _)
  | outside _ keeps induction => exact induction.keeps keeps

end Runs

end ContainerApplets
