import ContainerApplets.Proofs.Checked
import ContainerApplets.Proofs.Sources.Places

/-!
What the commands about sources do to the registry and the cache. What is put into the cache has
been read from the sources and merged.
-/

namespace ContainerApplets

open ContainerApplets.Action (Stores)

/-! ### A refreshed cache -/

/-- The text of a source, under its name and path. -/
structure CachedFragment.IsOf (host : Host) (files : Files) (source : Source)
    (cached : CachedFragment) : Prop where
  origin : cached.origin = source.name ++ " (" ++ source.path ++ ")"
  content : source.fetch host.network host.lookup files = .ok cached.content

/-- What is cached can be read as fragments, and these can be merged. -/
def Cache.Merges (cache : Cache) (lookup : Environment) : Prop :=
  ∃ fragments table, cache.toFragments lookup = .ok fragments ∧ merge fragments = .ok table

theorem Cache.fetched_is_of {host : Host} {files : Files} {source : Source}
    {cached : CachedFragment}
    (fetched : fetchSource host.network host.lookup files source = .ok cached) :
    cached.IsOf host files source := by
  obtain ⟨content, read, same⟩ := bind_eq_ok.mp fetched
  cases same
  exact ⟨rfl, read⟩

theorem Cache.refresh_spec {host : Host} {files : Files} {registry : Registry} {cache : Cache}
    (refreshed : refresh registry host.network host.lookup files host.now = .ok cache) :
    List.Forall₂ (fun source cached => cached.IsOf host files source) registry.sources
        cache.fragments ∧ cache.Merges host.lookup := by
  obtain ⟨fragments, fetched, refreshed⟩ := bind_eq_ok.mp refreshed
  obtain ⟨decoded, parsed, refreshed⟩ := bind_eq_ok.mp refreshed
  obtain ⟨_, checked, same⟩ := bind_eq_ok.mp refreshed
  cases same
  obtain ⟨table, merged, _⟩ := map_eq_ok.mp checked
  rw [within_eq_ok_iff, of_result_eq_ok_iff] at merged
  rw [of_result_eq_ok_iff, each_eq_ok_iff] at fetched
  exact ⟨fetched.imp fun _ _ => fetched_is_of, decoded, table, parsed, merged⟩

/-! ### The commands -/

namespace Action

open Settings

variable {host : Host} {settings : Settings} {home : String}

/-- How an update can end, and what it leaves behind. -/
inductive Updates (host : Host) (settings : Settings) (home : String) (files : Files) :
    Except Refusal Unit → Files → Prop
  | refused {refusal : Refusal} : Updates host settings home files (.error refusal) files
  | stored {registry : Registry} {cache : Cache} {outcome : Except Refusal Unit} {after : Files}
      (loaded : Registry.load files settings.registryPath = .ok registry)
      (refreshed : Cache.refresh registry host.network host.lookup files host.now = .ok cache)
      (stores : Stores files home settings.cachePath cache.text outcome after) :
      Updates host settings home files outcome after

theorem update_cache_updates (host : Host) (atHome : settings.IsHome home) (world : World) :
    Updates host settings home world.files (updateCache host settings world).1
      (updateCache host settings world).2.files := by
  rw [updateCache, bind_apply, loadRegistry, read_apply]
  cases loaded : Registry.load world.files settings.registryPath with
  | error refusal => exact .refused
  | ok registry =>
      let refresh (files : Files) := Cache.refresh registry host.network host.lookup files host.now
      have refreshing (between : World) (same : between.files = world.files) :
          Updates host settings home world.files ((read refresh >>= saveCache settings) between).1
            ((read refresh >>= saveCache settings) between).2.files := by
        rw [bind_apply, read_apply, same]
        cases refreshed : refresh world.files with
        | error refusal => exact same ▸ .refused
        | ok cache =>
            have stores := store_stores atHome.cacheAbove "cache" cache.text between
            rw [same] at stores
            exact .stored loaded refreshed stores
      dsimp only
      split
      · rw [print_bind_apply]
        exact refreshing _ rfl
      · exact refreshing world rfl

/-- What a command about sources leaves behind. -/
inductive Changes (host : Host) (settings : Settings) (home : String) (files : Files) :
    Files → Prop
  | nothing : Changes host settings home files files
  | updates {outcome : Except Refusal Unit} {after : Files}
      (updates : Updates host settings home files outcome after) :
      Changes host settings home files after
  | unsaved {text : String} {refusal : Refusal} {after : Files}
      (stores : Stores files home settings.registryPath text (.error refusal) after) :
      Changes host settings home files after
  | saved {text : String} {between after : Files} {outcome : Except Refusal Unit}
      (stores : Stores files home settings.registryPath text (.ok ()) between)
      (updates : Updates host settings home between outcome after) :
      Changes host settings home files after

theorem save_registry_changes (atHome : settings.IsHome home) (registry : Registry)
    {next : Action Unit}
    (goesOn : ∀ world, Updates host settings home world.files (next world).1 (next world).2.files)
    (world : World) :
    Changes host settings home world.files
      ((saveRegistry settings registry >>= fun _ => next) world).2.files := by
  have stores := store_stores atHome.registryAbove "registry" registry.text world
  rw [bind_apply, saveRegistry]
  revert stores
  rcases store "registry" registry.text settings.registryPath world with ⟨_ | ⟨⟩, between⟩
  · exact .unsaved
  · exact fun stores => .saved stores (goesOn between)

theorem add_source_changes (set : host.settings = .ok settings)
    (atHome : settings.IsHome home) (source : Source) (world : World) :
    Changes host settings home world.files (addSource host source world).2.files := by
  rw [addSource, bind_apply, Action.settings, of_outcome_apply, set]
  dsimp only
  rw [bind_apply, loadRegistry, read_apply]
  cases Registry.load world.files settings.registryPath with
  | error => exact .nothing
  | ok registry =>
      dsimp only
      rw [print_bind_apply]
      generalize world.lines ++ _ = lines
      exact save_registry_changes atHome (registry.add source) (update_cache_updates host atHome)
        ⟨world.files, lines, world.calls⟩

theorem remove_source_changes (set : host.settings = .ok settings)
    (atHome : settings.IsHome home) (name : String) (world : World) :
    Changes host settings home world.files (removeSource host name world).2.files := by
  rw [removeSource, bind_apply, Action.settings, of_outcome_apply, set]
  dsimp only
  rw [bind_apply, loadRegistry, read_apply]
  cases Registry.load world.files settings.registryPath with
  | error => exact .nothing
  | ok registry =>
      dsimp only
      split
      · refine save_registry_changes atHome (registry.remove name) (fun world => ?_) world
        rw [print_bind_apply]
        generalize world.lines ++ _ = lines
        exact update_cache_updates host atHome ⟨world.files, lines, world.calls⟩
      · exact .nothing

theorem update_updates (set : host.settings = .ok settings)
    (atHome : settings.IsHome home) (world : World) :
    Updates host settings home world.files (update host world).1 (update host world).2.files := by
  rw [update, bind_apply, Action.settings, of_outcome_apply, set]
  exact update_cache_updates host atHome world

end Action

end ContainerApplets
