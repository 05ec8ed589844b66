import ContainerApplets.Proofs.Hooks.FirstOffence
import Mathlib.Data.List.Induction

/-!
The resources that a plan creates before it runs anything: all declared networks, and the declared
volumes that are mounted, each once and in the order in which they are first used.
-/

namespace ContainerApplets

/-- Creates a resource by its name and with its driver, where these are not empty. -/
def creation (kind : String) (options : RunOptions) (key : String) (resource : Resource) :
    Command where
  silent := true
  tokens :=
    let driver := resource.driver.getD ""
    [options.runtime, kind, "create"] ++ (if driver = "" then [] else ["--driver", driver]) ++
      [if resource.name = "" then key else resource.name]

theorem create_eq_creation (kind key : String) (resource : Resource) (options : RunOptions) :
    resource.create kind key options = creation kind options key resource := by
  obtain ⟨name, driver⟩ := resource
  cases driver with
  | none => simp [Resource.create, creation, Command.quiet]
  | some driver => simp [Resource.create, creation, Command.quiet]

/-- The commands that create these resources, in their order. -/
def creations (kind : String) (options : RunOptions) (resources : List (String × Resource)) :
    List Command :=
  resources.map fun entry => creation kind options entry.1 entry.2

namespace AppletTable

/-- The source of a mount is the key or the name of this declared volume. -/
structure Fits (table : AppletTable) (source : String) (entry : String × Resource) : Prop where
  declared : table.volumes.get? entry.1 = some entry.2
  fits : entry.1 = source ∨ entry.2.name = source

/-- Of the declared volumes that the source fits, the one with the smallest key is used. -/
structure Uses (table : AppletTable) (mount : String) (entry : String × Resource) : Prop where
  fits : table.Fits (mountSource mount) entry
  first : ∀ other, table.Fits (mountSource mount) other → ¬other.1 < entry.1

/-- The first use of the one volume comes ahead of every use of the other. -/
def UsedAhead (table : AppletTable) (mounts : List String) (first second : String × Resource) :
    Prop :=
  ∃ earlier mount later, mounts = earlier ++ mount :: later ∧ table.Uses mount first ∧
    ∀ other ∈ earlier ++ [mount], ¬table.Uses other second

/-- The volumes to create for a list of mounts. -/
structure CreatedFor (table : AppletTable) (mounts : List String)
    (volumes : List (String × Resource)) : Prop where
  once : (volumes.map Prod.fst).Nodup
  used : ∀ entry, entry ∈ volumes ↔ ∃ mount ∈ mounts, table.Uses mount entry
  ordered : volumes.Pairwise (table.UsedAhead mounts)

variable {table : AppletTable}

theorem declared_volume_eq_some_iff {mount : String} {entry : String × Resource} :
    table.declaredVolume (mountSource mount) = some entry ↔ table.Uses mount entry := by
  rw [declaredVolume, List.find?_eq_some_iff_append]
  constructor
  · intro found
    obtain ⟨matched, before, after, split, unmatched⟩ := found
    have declared : table.volumes.get? entry.1 = some entry.2 :=
      Catalog.mem_entries.mp (by simp [split])
    refine ⟨⟨declared, by simpa using matched⟩, ?_⟩
    intro other fits less
    have early : other ∈ before :=
      (Catalog.mem_ahead_iff split).mpr ⟨Catalog.mem_entries.mpr fits.declared, less⟩
    have unfit := unmatched other early
    simp only [Bool.not_eq_true', Bool.or_eq_false_iff, decide_eq_false_iff_not] at unfit
    exact fits.fits.elim unfit.1 unfit.2
  · intro uses
    obtain ⟨⟨declared, fits⟩, first⟩ := uses
    obtain ⟨before, after, split⟩ := List.append_of_mem (Catalog.mem_entries.mpr declared)
    refine ⟨by simpa using fits, before, after, split, ?_⟩
    intro other early
    obtain ⟨listed, less⟩ := (Catalog.mem_ahead_iff split).mp early
    have unfit : ¬(other.1 = mountSource mount ∨ other.2.name = mountSource mount) :=
      fun fits => first other ⟨Catalog.mem_entries.mp listed, fits⟩ less
    simpa using unfit

/-- A mount that fits some declared volume uses one. -/
theorem Fits.uses {mount : String} {entry : String × Resource}
    (fits : table.Fits (mountSource mount) entry) : ∃ used, table.Uses mount used := by
  obtain ⟨declared, matched⟩ := fits
  have found : (table.declaredVolume (mountSource mount)).isSome := by
    rw [declaredVolume, List.find?_isSome]
    exact ⟨entry, Catalog.mem_entries.mpr declared, by simpa using matched⟩
  obtain ⟨used, found⟩ := Option.isSome_iff_exists.mp found
  exact ⟨used, declared_volume_eq_some_iff.mp found⟩

theorem Uses.unique {mount : String} {left right : String × Resource}
    (first : table.Uses mount left) (second : table.Uses mount right) : left = right :=
  Option.some.inj ((declared_volume_eq_some_iff.mpr first).symm.trans
    (declared_volume_eq_some_iff.mpr second))

/-- The volumes that are found for the mounts, each once. -/
def volumesFor (table : AppletTable) (mounts : List String) : List (String × Resource) :=
  (mounts.filterMap fun mount => table.declaredVolume (mountSource mount)).foldl
    (fun found entry => if entry.1 ∈ found.map Prod.fst then found else found ++ [entry]) []

theorem volumes_for_append (mounts : List String) (mount : String) :
    table.volumesFor (mounts ++ [mount]) =
      match table.declaredVolume (mountSource mount) with
      | none => table.volumesFor mounts
      | some entry =>
          if entry.1 ∈ (table.volumesFor mounts).map Prod.fst then table.volumesFor mounts
          else table.volumesFor mounts ++ [entry] := by
  rw [volumesFor, List.filterMap_append, List.foldl_append, List.filterMap_cons]
  cases table.declaredVolume (mountSource mount) <;> rfl

theorem UsedAhead.append {mounts : List String} {first second : String × Resource}
    (ahead : table.UsedAhead mounts first second) (mount : String) :
    table.UsedAhead (mounts ++ [mount]) first second := by
  obtain ⟨earlier, user, later, rfl, uses, unused⟩ := ahead
  exact ⟨earlier, user, later ++ [mount], by simp, uses, unused⟩

theorem CreatedFor.append_known {mounts : List String} {volumes : List (String × Resource)}
    (created : table.CreatedFor mounts volumes) {mount : String}
    (known : ∀ entry, table.Uses mount entry → entry ∈ volumes) :
    table.CreatedFor (mounts ++ [mount]) volumes where
  once := created.once
  used := fun entry => by
    constructor
    · intro member
      obtain ⟨user, listed, uses⟩ := (created.used entry).mp member
      exact ⟨user, List.mem_append_left _ listed, uses⟩
    · intro usedBy
      obtain ⟨user, listed, uses⟩ := usedBy
      rcases List.mem_append.mp listed with early | last
      · exact (created.used entry).mpr ⟨user, early, uses⟩
      · exact known entry (List.mem_singleton.mp last ▸ uses)
  ordered := created.ordered.imp fun ahead => ahead.append mount

theorem CreatedFor.append_new {mounts : List String} {volumes : List (String × Resource)}
    (created : table.CreatedFor mounts volumes) {mount : String} {entry : String × Resource}
    (uses : table.Uses mount entry) (new : entry.1 ∉ volumes.map Prod.fst) :
    table.CreatedFor (mounts ++ [mount]) (volumes ++ [entry]) where
  once := by
    rw [List.map_append, List.nodup_append']
    exact ⟨created.once, List.nodup_singleton _, by simpa using new⟩
  used := fun other => by
    simp only [List.mem_append, List.mem_singleton, or_and_right, exists_or, exists_eq_left]
    rw [created.used]
    refine or_congr_right ⟨?_, fun again => again.unique uses⟩
    rintro rfl
    exact uses
  ordered := by
    have unused : ∀ other ∈ mounts, ¬table.Uses other entry := fun other listed again =>
      new (List.mem_map_of_mem ((created.used entry).mpr ⟨other, listed, again⟩))
    refine List.pairwise_append.mpr
      ⟨created.ordered.imp fun ahead => ahead.append mount, List.pairwise_singleton _ _, ?_⟩
    intro first member last same
    obtain ⟨user, listed, usesFirst⟩ := (created.used first).mp member
    obtain ⟨earlier, later, rfl⟩ := List.append_of_mem listed
    rw [List.mem_singleton.mp same]
    refine UsedAhead.append ⟨earlier, user, later, rfl, usesFirst, ?_⟩ mount
    intro other within
    refine unused other ?_
    rw [List.append_cons]
    exact List.mem_append_left _ within

theorem volumes_for_created (table : AppletTable) (mounts : List String) :
    table.CreatedFor mounts (table.volumesFor mounts) := by
  induction mounts using List.reverseRecOn with
  | nil => exact ⟨List.nodup_nil, fun entry => by simp [volumesFor], List.Pairwise.nil⟩
  | append_singleton mounts mount created =>
      rw [volumes_for_append]
      cases found : table.declaredVolume (mountSource mount) with
      | none =>
          refine created.append_known fun entry uses => ?_
          exact nomatch found.symm.trans (declared_volume_eq_some_iff.mpr uses)
      | some entry =>
          have uses := declared_volume_eq_some_iff.mp found
          dsimp only
          split
          · next known =>
            obtain ⟨other, member, same⟩ := List.mem_map.mp known
            -- A key is declared once, so the volume that is there is the one that is used.
            obtain ⟨user, _, usesOther⟩ := (created.used other).mp member
            have declared := usesOther.fits.declared
            rw [same, uses.fits.declared] at declared
            have equal : other = entry := Prod.ext same (Option.some.inj declared).symm
            refine created.append_known fun used again => ?_
            rw [again.unique uses, ← equal]
            exact member
          · next new => exact created.append_new uses new

theorem CreatedFor.complete {mounts : List String} {volumes : List (String × Resource)}
    (created : table.CreatedFor mounts volumes) {mount : String} (listed : mount ∈ mounts)
    {entry : String × Resource} (fits : table.Fits (mountSource mount) entry) :
    ∃ used ∈ volumes, table.Fits (mountSource mount) used := by
  obtain ⟨used, uses⟩ := fits.uses
  exact ⟨used, (created.used used).mpr ⟨mount, listed, uses⟩, uses.fits⟩

theorem resource_commands_eq (applets : List Applet) (options : RunOptions) :
    table.resourceCommands applets options =
      creations "network" options table.networks.entries ++
        creations "volume" options
          (table.volumesFor (applets.flatMap fun applet => applet.list .volumes)) := by
  simp only [resourceCommands, create_eq_creation]
  rfl

/-- The volume is mounted twice, once by its key and once by its name, and created once. -/
example (options : RunOptions) :
    let web : Applet := { Applet.ofImage "web" "nginx" with
      list := fun field =>
        if field = .volumes then ["data:/srv", "/tmp:/tmp", "store:/old"] else [] }
    let table : AppletTable := { empty.insert web with
      volumes := Catalog.empty.insert "data" ⟨"store", some "local"⟩ }
    table.resourceCommands [web] options =
      [.quiet options.runtime ["volume", "create", "--driver", "local", "store"]] := by
  rfl

end AppletTable

end ContainerApplets
