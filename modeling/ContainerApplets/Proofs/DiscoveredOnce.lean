import ContainerApplets.Proofs.Actions
import ContainerApplets.Proofs.Discovery
import ContainerApplets.Proofs.Files.Entries
import ContainerApplets.Proofs.Merge.Repetition
import ContainerApplets.Proofs.Merge.Unification
import ContainerApplets.Session

/-!
Whether discovery finds a file once. It tells directories apart by their paths, so a file is found
once as long as no searched directory has two paths. Where the root directory is a directory above
the working directory by another path, its fragments are read twice and their lists are doubled.
-/

namespace ContainerApplets

variable {files : Files} {directory further root here name : String} {above : List String}

/-! ### Entries of directories -/

/-- Each of the paths names an entry, and no two of them the same one. -/
structure NamesOnce (files : Files) (paths : List String) : Prop where
  named : ∀ path ∈ paths, (files.entryOf? path).isSome
  apart : paths.Pairwise fun path other => files.entryOf? path ≠ files.entryOf? other

/-- The paths do not lead to one directory that would list a fragment at both of them. -/
def ListsApart (files : Files) (directory further : String) : Prop :=
  ∀ name, IsFragmentIn files directory name → IsFragmentIn files further name →
    files.placeOf? directory ≠ files.placeOf? further

theorem IsFragmentIn.entry (fragment : IsFragmentIn files directory name) :
    ∃ place, files.placeOf? directory = some place ∧
      files.entryOf? (Path.join directory name) = some (place ++ [name]) := by
  obtain ⟨place, leads, _⟩ := fragment.listed
  have file := fragment.file
  unfold Files.isFile at file
  split at file
  · next present => exact ⟨place, leads, Files.entry_of_join fragment.plain leads present⟩
  · cases file

/-- Entries are the same if their directories and their names are. -/
theorem IsFragmentIn.entry_eq_iff {last : String} (fragment : IsFragmentIn files directory name)
    (other : IsFragmentIn files further last) :
    files.entryOf? (Path.join directory name) = files.entryOf? (Path.join further last) ↔
      files.placeOf? directory = files.placeOf? further ∧ name = last := by
  obtain ⟨place, leads, entry⟩ := fragment.entry
  obtain ⟨elsewhere, leadsOn, otherEntry⟩ := other.entry
  rw [entry, otherEntry, leads, leadsOn, Option.some_inj, Option.some_inj,
    List.append_singleton_inj]

theorem lists_apart_iff : ListsApart files directory further ↔ ∀ name last,
    IsFragmentIn files directory name → IsFragmentIn files further last →
      files.entryOf? (Path.join directory name) ≠ files.entryOf? (Path.join further last) := by
  constructor
  · intro apart name last fragment again same
    obtain ⟨together, rfl⟩ := (fragment.entry_eq_iff again).mp same
    exact apart name fragment again together
  · intro different name fragment again together
    exact different name name fragment again ((fragment.entry_eq_iff again).mpr ⟨together, rfl⟩)

/-- Only directories with more than one path can give an entry twice. -/
theorem names_once_iff (files : Files) (directories : List String) :
    NamesOnce files (directories.flatMap (fragmentsIn files)) ↔
      directories.Pairwise (ListsApart files) := by
  have pairs : (directories.flatMap (fragmentsIn files)).Pairwise (fun path other =>
      files.entryOf? path ≠ files.entryOf? other) ↔ directories.Pairwise (ListsApart files) := by
    rw [pairwise_fragments_iff]
    · exact List.Pairwise.iff fun _ _ => lists_apart_iff.symm
    · intro directory name next fragment again other same
      exact other ((fragment.entry_eq_iff again).mp same).2
  refine ⟨fun once => pairs.mp once.apart, fun apart => ⟨?_, pairs.mpr apart⟩⟩
  intro path member
  obtain ⟨directory, _, listed⟩ := List.mem_flatMap.mp member
  obtain ⟨name, fragment, rfl⟩ := mem_fragments_in.mp listed
  obtain ⟨_, _, entry⟩ := fragment.entry
  rw [entry]
  rfl

/-! ### Directories without links -/

/-- Different paths without links lead to different directories. -/
theorem lists_apart_of_direct (absolute : Path.isAbsolute directory = true)
    (too : Path.isAbsolute further = true) (direct : files.tree.Direct (Path.names directory))
    (straight : files.tree.Direct (Path.names further))
    (different : Path.same directory further = false) : ListsApart files directory further := by
  intro name fragment _ together
  obtain ⟨place, leads, _⟩ := fragment.listed
  have here := Files.place_of_direct absolute direct leads
  have there := Files.place_of_direct too straight (together.symm.trans leads)
  rw [(Path.same_iff_names absolute too).mpr (here.symm.trans there)] at different
  cases different

/-- The path of the working directory is given without links. Then only the root directory can
be found twice. -/
theorem searched_apart_iff (climbs : Path.Climbs here above)
    (absolute : Path.isAbsolute here = true) (direct : files.tree.Direct (Path.names here)) :
    (root :: above.filter (!Path.same · root)).Pairwise (ListsApart files) ↔
      ∀ directory ∈ above, Path.same directory root = false → ListsApart files root directory := by
  -- Directories above one that is reached without links are so, too.
  have apart : above.Pairwise (ListsApart files) := by
    refine climbs.apart.imp_of_mem fun {directory further} member among different => ?_
    exact lists_apart_of_direct (climbs.absolute absolute _ member)
      (climbs.absolute absolute _ among) (direct.ahead (climbs.ahead _ member))
      (direct.ahead (climbs.ahead _ among)) different
  rw [List.pairwise_cons, and_iff_left (apart.filter _)]
  simp only [List.mem_filter, Bool.not_eq_true', and_imp]

/-! ### The fragments of a session -/

/-- The fragments are those of the cache and then one for each of these entries, which are all
different; and a table of them lists what the cache and these say. -/
structure HeldOnce (session : Session) (cached found : List Fragment) (entries : List Place) :
    Prop where
  loaded : ∃ cache, Cache.load session.files session.settings.cachePath = .ok cache ∧
    cache.toFragments session.lookup = .ok cached
  named : session.discovered.map session.files.entryOf? = entries.map some
  once : entries.Nodup
  read : List.Forall₂ (fun entry fragment => ∃ path, session.files.entryOf? path = some entry ∧
    session.fragmentAt path = .ok fragment) entries found
  lists : ∀ table, merge (cached ++ found) = .ok table → ∀ name applet,
    table.applets.get? name = some applet → ∀ field,
      applet.list field = listed cached name field ++ listed found name field

theorem NamesOnce.entries {paths : List String} (once : NamesOnce files paths) :
    ∃ entries : List Place, paths.map files.entryOf? = entries.map some ∧ entries.Nodup := by
  have named : paths.map files.entryOf? = (paths.filterMap files.entryOf?).map some := by
    rw [List.map_filterMap, ← List.filterMap_eq_map]
    refine List.filterMap_congr fun path member => ?_
    obtain ⟨entry, found⟩ := Option.isSome_iff_exists.mp (once.named path member)
    simp [found]
  have apart : (paths.map files.entryOf?).Nodup := List.pairwise_map.mpr once.apart
  rw [named] at apart
  exact ⟨_, named, apart.of_map⟩

theorem fragments_held_once {session : Session}
    (once : NamesOnce session.files session.discovered) {fragments : List Fragment}
    (held : session.fragments = .ok fragments) :
    ∃ cached found entries, fragments = cached ++ found ∧
      HeldOnce session cached found entries := by
  unfold Session.fragments at held
  simp only [bind_eq_ok, pure_eq_ok, Except.ok.injEq] at held
  obtain ⟨cache, loaded, cached, stored, found, discovered, rfl⟩ := held
  obtain ⟨entries, named, apart⟩ := once.entries
  refine ⟨cached, found, entries, rfl, ⟨cache, loaded, stored⟩, named, apart, ?_, ?_⟩
  · have read : List.Forall₂ (fun entry fragment => ∃ path, session.files.entryOf? path = entry ∧
        session.fragmentAt path = .ok fragment) (entries.map some) found := by
      rw [← named, List.forall₂_map_left_iff]
      exact (each_eq_ok_iff.mp discovered).imp fun path _ read => ⟨path, rfl, read⟩
    exact List.forall₂_map_left_iff.mp read
  · intro table merged name applet present field
    have union := (merged_union merged).2.applets.records name applet present
    rw [← listed_concat]
    exact union.list field

/-- When a session finds its files once, where these directories are above the working directory,
and what its fragments are then. -/
structure FindsOnce (session : Session) (above : List String) : Prop where
  exactly : NamesOnce session.files session.discovered ↔
    (session.settings.rootDirectory ::
      above.filter (!Path.same · session.settings.rootDirectory)).Pairwise
        (ListsApart session.files)
  unlinked : session.files.tree.Direct (Path.names session.directory) →
    (NamesOnce session.files session.discovered ↔ ∀ directory ∈ above,
      Path.same directory session.settings.rootDirectory = false →
        ListsApart session.files session.settings.rootDirectory directory)
  straight : Path.isAbsolute session.settings.rootDirectory = true →
    session.files.tree.Direct (Path.names session.settings.rootDirectory) →
    session.files.tree.Direct (Path.names session.directory) →
      NamesOnce session.files session.discovered
  held : NamesOnce session.files session.discovered → ∀ fragments,
    session.fragments = .ok fragments → ∃ cached found entries, fragments = cached ++ found ∧
      HeldOnce session cached found entries

/-- The files of a session are found once exactly if no two of the searched paths lead to one
directory that lists a fragment. Without links that takes a root directory which is a searched
directory by another path, and no fragment is read twice if there is none. -/
theorem entries_discovered_once_iff {session : Session}
    (absolute : Path.isAbsolute session.directory = true) :
    ∃ above, Path.Climbs session.directory above ∧ FindsOnce session above := by
  obtain ⟨above, climbs, searched⟩ :=
    searched_directories_eq absolute session.settings.rootDirectory
  have exactly : NamesOnce session.files session.discovered ↔
      (searchedDirectories session.settings.rootDirectory session.directory).Pairwise
        (ListsApart session.files) := names_once_iff _ _
  rw [searched] at exactly
  have unlinked (direct : session.files.tree.Direct (Path.names session.directory)) :=
    exactly.trans (searched_apart_iff climbs absolute direct)
  refine ⟨above, climbs, exactly, unlinked, ?_, fun once _ => fragments_held_once once⟩
  intro rooted straight direct
  refine (unlinked direct).mpr fun directory member different => ?_
  rw [Path.same_comm] at different
  exact lists_apart_of_direct rooted (climbs.absolute absolute _ member) straight
    (direct.ahead (climbs.ahead _ member)) different

def workFiles : Files where
  tree := (FileTree.empty.set ["work"] .directory).set ["work", "web.dbx.yaml"]
    (.file "applets:\n  web:\n    image: nginx\n    ports: ['80:80']\n" false)
  here := []

/-- Works in a directory of which this path is given as the root directory. -/
def workSession (root : String) : Session where
  settings := ⟨root, "/work/bin", "--", "docker", .replace⟩
  directory := "/work"
  lookup := fun _ => none
  files := workFiles

def workPorts (root : String) : Option (List String) :=
  (workSession root).table.toOption.bind fun table =>
    (table.applets.get? "web").map fun applet => applet.list .ports

theorem work_fragment_found_once :
    Path.isAbsolute "/work" = true ∧ workPorts "/work/" = some ["80:80"] ∧
    NamesOnce workFiles (workSession "/work/").discovered := by
  have absolute : Path.isAbsolute (workSession "/work/").directory = true := by decide
  have straight : workFiles.tree.Direct (Path.names "/work/") := by decide
  have direct : workFiles.tree.Direct (Path.names "/work") := by decide
  obtain ⟨_, _, finds⟩ := entries_discovered_once_iff absolute
  exact ⟨absolute, by decide +kernel, finds.straight (by decide) straight direct⟩

/-- The working directory is the root directory by a path that goes up and down again. -/
theorem respelled_root_found_twice :
    Path.isAbsolute "/work" = true ∧
    (workSession "/work/../work").discovered =
      ["/work/../work/web.dbx.yaml", "/work/web.dbx.yaml"] ∧
    workFiles.entryOf? "/work/../work/web.dbx.yaml" = some ["work", "web.dbx.yaml"] ∧
    workFiles.entryOf? "/work/web.dbx.yaml" = some ["work", "web.dbx.yaml"] ∧
    ¬NamesOnce workFiles (workSession "/work/../work").discovered ∧
    workPorts "/work/../work" = some ["80:80", "80:80"] := by
  have evaluated : (workSession "/work/../work").discovered =
      ["/work/../work/web.dbx.yaml", "/work/web.dbx.yaml"] ∧
    workFiles.entryOf? "/work/../work/web.dbx.yaml" = some ["work", "web.dbx.yaml"] ∧
    workFiles.entryOf? "/work/web.dbx.yaml" = some ["work", "web.dbx.yaml"] ∧
    workPorts "/work/../work" = some ["80:80", "80:80"] := by decide +kernel
  obtain ⟨discovered, first, second, ports⟩ := evaluated
  refine ⟨by decide, discovered, first, second, ?_, ports⟩
  intro once
  have apart := once.apart
  rw [discovered, List.pairwise_pair, first, second] at apart
  exact apart rfl

end ContainerApplets
