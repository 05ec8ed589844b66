import ContainerApplets.Discovery
import ContainerApplets.Proofs.Files.Ancestors
import ContainerApplets.Proofs.Files.Listing
import Mathlib.Data.List.Sort

/-!
What discovery finds, and in which order: the fragment files of the root directory, and then those
of the working directory and of all directories above it, where the root directory is passed over
and the root of the file system is not searched.
-/

namespace ContainerApplets

variable {files : Files} {directory root here name : String} {above : List String}

/-! ### One directory -/

/-- The directory can be read, and it lists a file whose name is more than one of the endings. -/
structure IsFragmentIn (files : Files) (directory name : String) : Prop where
  listed : ∃ place, files.placeOf? directory = some place ∧
    (files.tree.node? (place ++ [name])).isSome
  file : files.isFile (Path.join directory name) = true
  ending : ∃ stem, stem ≠ "" ∧ (name = stem ++ ".dbx.yaml" ∨ name = stem ++ ".dbx.yml")

/-- The names of all fragment files of a directory, in the order of their bytes. -/
structure Lists (files : Files) (directory : String) (names : List String) : Prop where
  increasing : names.Pairwise fun name next => bytes name < bytes next
  all : ∀ name, name ∈ names ↔ IsFragmentIn files directory name

theorem longer_and_ends_iff {ending : String} :
    (ending.length < name.length && name.endsWith ending) = true ↔
      ∃ stem, stem ≠ "" ∧ name = stem ++ ending := by
  rw [Bool.and_eq_true, decide_eq_true_eq, String.endsWith_eq_endsWith_toSlice,
    String.Slice.endsWith_string_iff, String.copy_toSlice]
  constructor
  · rintro ⟨longer, front, whole⟩
    have written : name = String.ofList front ++ ending := String.toList_injective (by simp [whole])
    refine ⟨String.ofList front, fun empty => ?_, written⟩
    rw [written, empty, String.empty_append] at longer
    exact Nat.lt_irrefl _ longer
  · rintro ⟨stem, some, rfl⟩
    have longer : 0 < stem.length := Nat.pos_of_ne_zero (by simpa using some)
    rw [String.length_append, String.toList_append]
    exact ⟨Nat.lt_add_of_pos_left longer, stem.toList, rfl⟩

theorem is_fragment_name_iff : isFragmentName name = true ↔
    ∃ stem, stem ≠ "" ∧ (name = stem ++ ".dbx.yaml" ∨ name = stem ++ ".dbx.yml") := by
  rw [isFragmentName, fragmentEndings, List.any_cons, List.any_cons, List.any_nil, Bool.or_false,
    Bool.or_eq_true, longer_and_ends_iff, longer_and_ends_iff]
  simp only [and_or_left, exists_or]

theorem plain_of_listed {place : Place} (listed : (files.tree.node? (place ++ [name])).isSome) :
    Path.IsPlain name := by
  obtain ⟨node, present⟩ := Option.isSome_iff_exists.mp listed
  have proper := FileTree.proper_of_node present
  simp only [Place.isProper, isFileName, List.all_append, List.all_cons, List.all_nil,
    Bool.and_eq_true, decide_eq_true_eq, Bool.not_eq_true', List.contains_eq_mem,
    decide_eq_false_iff_not] at proper
  exact ⟨proper.2.1.1.2, proper.2.1.1.1⟩

theorem IsFragmentIn.plain (fragment : IsFragmentIn files directory name) : Path.IsPlain name := by
  obtain ⟨_, _, listed⟩ := fragment.listed
  exact plain_of_listed listed

theorem is_fragment_in_iff {place : Place} (leads : files.placeOf? directory = some place) :
    IsFragmentIn files directory name ↔ name ∈ files.tree.names place ∧
      (files.isFile (Path.join directory name) &&
        isFragment (Path.join directory name)) = true := by
  rw [FileTree.mem_names, Bool.and_eq_true]
  constructor
  · intro fragment
    obtain ⟨_, again, listed⟩ := fragment.listed
    cases leads.symm.trans again
    rw [isFragment, Path.file_name_join directory fragment.plain]
    exact ⟨listed, fragment.file, is_fragment_name_iff.mpr fragment.ending⟩
  · rintro ⟨listed, file, ending⟩
    rw [isFragment, Path.file_name_join directory (plain_of_listed listed)] at ending
    exact ⟨⟨place, leads, listed⟩, file, is_fragment_name_iff.mp ending⟩

theorem fragments_in_lists (files : Files) (directory : String) :
    ∃ names, Lists files directory names ∧
      fragmentsIn files directory = names.map (Path.join directory) := by
  cases reads : files.readNames directory with
  | error fault =>
      refine ⟨[], ⟨.nil, fun name => ⟨nofun, fun fragment => ?_⟩⟩, by rw [fragmentsIn, reads]; rfl⟩
      obtain ⟨place, leads, _⟩ := fragment.listed
      cases reads.symm.trans (Files.read_names_eq_ok_iff.mpr ⟨place, leads, rfl⟩)
  | ok names =>
      obtain ⟨place, leads, rfl⟩ := Files.read_names_eq_ok_iff.mp reads
      refine ⟨_, ⟨sorted_increases ((files.tree.names_nodup place).filter _), fun name => ?_⟩,
        by rw [fragmentsIn, reads]⟩
      rw [List.mem_mergeSort, List.mem_filter, is_fragment_in_iff leads]

theorem mem_fragments_in {path : String} : path ∈ fragmentsIn files directory ↔
    ∃ name, IsFragmentIn files directory name ∧ path = Path.join directory name := by
  obtain ⟨names, lists, found⟩ := fragments_in_lists files directory
  rw [found, List.mem_map]
  exact exists_congr fun name => and_congr (lists.all name) eq_comm

/-! ### The directories -/

theorem fold_new (found above : List String)
    (apart : above.Pairwise fun directory further => Path.same directory further = false) :
    (above.foldl (fun found directory =>
        if found.any (Path.same directory) then found else found ++ [directory]) found) =
      found ++ above.filter fun directory => !found.any (Path.same directory) := by
  induction above generalizing found with
  | nil => simp
  | cons directory rest induction =>
      obtain ⟨other, later⟩ := List.pairwise_cons.mp apart
      rw [List.foldl_cons, List.filter_cons]
      by_cases known : found.any (Path.same directory) = true
      · rw [if_pos known, if_neg (by simp [known]), induction found later]
      · rw [if_neg known, if_pos (by simp [known]), induction _ later, List.append_assoc]
        refine congrArg (found ++ directory :: ·) (List.filter_congr fun further member => ?_)
        rw [List.any_append, List.any_cons, List.any_nil, Path.same_comm further directory,
          other further member]
        simp

theorem searched_directories_eq (absolute : Path.isAbsolute here = true) (root : String) :
    ∃ above, Path.Climbs here above ∧
      searchedDirectories root here = root :: above.filter (!Path.same · root) := by
  have climbs := Path.climbs_ancestors absolute
  refine ⟨_, climbs, ?_⟩
  rw [searchedDirectories, fold_new _ _ climbs.apart]
  simp

/-! ### The search -/

/-- What is found where these directories are above, the working directory included. -/
structure Finds (files : Files) (root : String) (above found : List String) : Prop where
  order : found = fragmentsIn files root ++
    (above.filter (!Path.same · root)).flatMap (fragmentsIn files)
  sorted : ∀ directory, ∃ names, Lists files directory names ∧
    fragmentsIn files directory = names.map (Path.join directory)
  complete : ∀ path, path ∈ found ↔ ∃ directory name,
    (directory = root ∨ directory ∈ above ∧ Path.same directory root = false) ∧
      IsFragmentIn files directory name ∧ path = Path.join directory name
  once : found.Pairwise fun path other => Path.same path other = false

/-- What sets the fragments of one directory apart sets all apart, if it does so between any two
directories. -/
theorem pairwise_fragments_iff {apart : String → String → Prop} {directories : List String}
    (inside : ∀ directory name next, IsFragmentIn files directory name →
      IsFragmentIn files directory next → name ≠ next →
        apart (Path.join directory name) (Path.join directory next)) :
    (directories.flatMap (fragmentsIn files)).Pairwise apart ↔
      directories.Pairwise fun directory further => ∀ name last,
        IsFragmentIn files directory name → IsFragmentIn files further last →
          apart (Path.join directory name) (Path.join further last) := by
  have within (directory : String) : (fragmentsIn files directory).Pairwise apart := by
    obtain ⟨names, lists, found⟩ := fragments_in_lists files directory
    rw [found, List.pairwise_map]
    refine lists.increasing.imp_of_mem fun {name next} member among before => ?_
    refine inside directory name next ((lists.all name).mp member) ((lists.all next).mp among) ?_
    rintro rfl
    exact List.lt_irrefl _ before
  rw [List.pairwise_flatMap, and_iff_right fun directory _ => within directory]
  refine List.Pairwise.iff fun directory further => ?_
  constructor
  · intro all name last fragment again
    exact all _ (mem_fragments_in.mpr ⟨name, fragment, rfl⟩) _
      (mem_fragments_in.mpr ⟨last, again, rfl⟩)
  · intro all path member other among
    obtain ⟨name, fragment, rfl⟩ := mem_fragments_in.mp member
    obtain ⟨last, again, rfl⟩ := mem_fragments_in.mp among
    exact all name last fragment again

theorem fragments_apart (files : Files) {directories : List String}
    (apart : directories.Pairwise fun directory further => Path.same directory further = false) :
    (directories.flatMap (fragmentsIn files)).Pairwise fun path other =>
      Path.same path other = false := by
  rw [pairwise_fragments_iff]
  · refine apart.imp fun {directory further} different name last fragment again => ?_
    rw [← Bool.not_eq_true, Path.same_join_iff fragment.plain again.plain]
    intro same
    cases different.symm.trans same.1
  · intro directory name next fragment again other
    rw [← Bool.not_eq_true, Path.same_join_iff fragment.plain again.plain]
    exact fun same => other same.2

theorem discover_finds (absolute : Path.isAbsolute here = true) (files : Files) (root : String) :
    ∃ above, Path.Climbs here above ∧ Finds files root above (discover files root here) := by
  obtain ⟨above, climbs, searched⟩ := searched_directories_eq absolute root
  refine ⟨above, climbs, ?_, fragments_in_lists files, fun path => ?_, ?_⟩
  · rw [discover, searched, List.flatMap_cons]
  · rw [discover, searched, List.mem_flatMap]
    refine exists_congr fun directory => ?_
    rw [mem_fragments_in, exists_and_left, List.mem_cons, List.mem_filter, Bool.not_eq_true']
  · rw [discover, searched]
    refine fragments_apart files (.cons (fun directory member => ?_) (climbs.apart.filter _))
    rw [Path.same_comm]
    simpa using (List.mem_filter.mp member).2

/-! ### Below the root directory -/

/-- Sorting by insertion gives the same order, and it can be evaluated. -/
theorem fragments_in_by_insertion (files : Files) :
    fragmentsIn files = fun directory => match files.readNames directory with
      | .error _ => []
      | .ok names =>
          let found := names.filter fun name =>
            files.isFile (Path.join directory name) && isFragment (Path.join directory name)
          (found.insertionSort (· ≤ ·)).map (Path.join directory) := by
  funext directory
  unfold fragmentsIn
  cases files.readNames directory with
  | error => rfl
  | ok names => exact congrArg _ (List.mergeSort_eq_insertionSort _ _)

/-- Entries are in the order in which they came to be, the last one first. -/
def sharedFiles : Files where
  tree := ((((((FileTree.empty.set ["shared"] .directory).set ["shared", "cache.dbx.yml"]
    (.file "" false)).set ["shared", "web.dbx.yaml"] (.file "" false)).set ["shared", "notes"]
    (.file "" false)).set ["shared", "team"] .directory).set ["shared", "team", "api.dbx.yaml"]
    (.file "" false)).set ["shared", "team", "db.dbx.yml"] (.link "/shared/notes")
  here := []

/-- The working directory is in the root directory and cannot be read, and the directory above it
holds a link to a file of another name. -/
theorem shared_files_found_in_order :
    Path.isAbsolute "/shared/team/gone" = true ∧
    sharedFiles.readNames "/shared" =
      .ok ["team", "notes", "web.dbx.yaml", "cache.dbx.yml"] ∧
    discover sharedFiles "/shared/" "/shared/team/gone" = [
      "/shared/cache.dbx.yml", "/shared/web.dbx.yaml",
      "/shared/team/api.dbx.yaml", "/shared/team/db.dbx.yml"] ∧
    ∃ above, Path.Climbs "/shared/team/gone" above ∧
      Finds sharedFiles "/shared/" above (discover sharedFiles "/shared/" "/shared/team/gone") := by
  have absolute : Path.isAbsolute "/shared/team/gone" = true := by decide
  have listed : sharedFiles.readNames "/shared" =
      .ok ["team", "notes", "web.dbx.yaml", "cache.dbx.yml"] := by decide +kernel
  have found : discover sharedFiles "/shared/" "/shared/team/gone" = [
      "/shared/cache.dbx.yml", "/shared/web.dbx.yaml",
      "/shared/team/api.dbx.yaml", "/shared/team/db.dbx.yml"] := by
    rw [discover, fragments_in_by_insertion]
    decide +kernel
  exact ⟨absolute, listed, found, discover_finds absolute sharedFiles "/shared/"⟩

end ContainerApplets
