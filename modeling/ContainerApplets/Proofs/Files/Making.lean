import ContainerApplets.Proofs.Files.Calls

/-!
Making a directory with the directories above it. It only adds directories. A refusal leaves the
directory unmade; and unless the path goes up again, a directory that had to be made has nothing in
it.
-/

namespace ContainerApplets.Files

open FileTree (steps startOf linkLimit Found)

variable {files made between : Files} {path parent : String} {fault : Option FileFault}

/-- Files as a system keeps them, seen from a directory. -/
structure Sound (files : Files) : Prop where
  tree : files.tree.Sound
  here : files.tree.node? files.here = some .directory

/-! ### One directory -/

theorem find_new_eq_ok_iff {found : Found} :
    files.tree.findNew files.here path = .ok found ↔
      FileTree.checkPath path = .ok () ∧
        files.tree.Walks false linkLimit (startOf files.here path) ((steps path).filter (· ≠ ""))
          found := by
  rw [FileTree.findNew, check_bind_eq_ok, FileTree.walk_eq_ok_iff]

theorem make_directory_eq_ok_iff :
    files.makeDirectory path = .ok made ↔
      ∃ directory name, files.tree.findNew files.here path = .ok (.vacant directory name) ∧
        made = { files with tree := files.tree.set (directory ++ [name]) .directory } := by
  rw [makeDirectory, bind_eq_ok]
  constructor
  · intro passed
    obtain ⟨found, leads, result⟩ := passed
    cases found with
    | present => cases result
    | vacant directory name => exact ⟨directory, name, leads, (Except.ok.inj result).symm⟩
  · intro vacant
    obtain ⟨directory, name, leads, rfl⟩ := vacant
    exact ⟨_, leads, rfl⟩

theorem make_directory_of_is_directory (present : files.isDirectory path = true) :
    files.makeDirectory path = .error .exists := by
  obtain ⟨checked, place, arrives⟩ := is_directory_iff.mp present
  obtain ⟨way, last, written, _, whole, _⟩ := Path.steps_eq path
  have unslashed : ((steps path).filter (· ≠ "")).filter (!FileTree.isBlankStep ·) =
      Path.names path := by
    rw [whole, ← written, List.filter_filter]
    congr 1
    funext step
    by_cases empty : step = "" <;> simp [empty, FileTree.isBlankStep]
  rw [Arrives, ← unslashed, ← FileTree.arrives_iff_unblanked] at arrives
  obtain ⟨stop, node, walks⟩ := arrives.unfollowed
  rw [makeDirectory, find_new_eq_ok_iff.mpr ⟨checked, walks⟩]
  rfl

theorem is_directory_of_no_names (checked : FileTree.checkPath path = .ok ())
    (empty : Path.names path = []) : files.isDirectory path = true := by
  have arrives : files.Arrives path (startOf files.here path) := by
    rw [Arrives, empty]
    exact .done
  exact is_directory_iff.mpr ⟨checked, _, arrives⟩

theorem names_of_made (makes : files.makeDirectory path = .ok made) : Path.names path ≠ [] := by
  intro empty
  obtain ⟨_, _, leads, _⟩ := make_directory_eq_ok_iff.mp makes
  rw [make_directory_of_is_directory
    (is_directory_of_no_names (find_new_eq_ok_iff.mp leads).1 empty)] at makes
  cases makes

/-! ### What making directories does -/

/-- `Makes files path made fault`: with these files left, the directory is made or refused. -/
inductive Makes : Files → String → Files → Option FileFault → Prop
  | nothing {files : Files} : Makes files "" files none
  | there {files : Files} {path : String} (present : files.isDirectory path = true) :
      Makes files path files none
  | refused {files : Files} {path : String} {fault : FileFault} (named : path ≠ "")
      (absent : ¬files.isDirectory path = true) : Makes files path files (some fault)
  | made {files made : Files} {path : String} (makes : files.makeDirectory path = .ok made) :
      Makes files path made none
  | refusedAbove {files made : Files} {path parent : String} {fault : FileFault}
      (missing : files.makeDirectory path = .error .missing)
      (above : Path.parent? path = some parent)
      (makes : Makes files parent made (some fault)) :
      Makes files path made (some fault)
  | behind {files between made : Files} {path parent : String} {fault : Option FileFault}
      (missing : files.makeDirectory path = .error .missing)
      (above : Path.parent? path = some parent) (makes : Makes files parent between none)
      (last : Makes between path made fault) : Makes files path made fault

theorem last_directory_makes (named : path ≠ "") :
    Makes files path (files.lastDirectory path).1 (files.lastDirectory path).2 := by
  rw [lastDirectory]
  split
  · next makes => exact .made makes
  · split
    · next present => exact .there present
    · next absent => exact .refused named absent

theorem not_directory_of_missing (missing : files.makeDirectory path = .error .missing) :
    ¬files.isDirectory path = true := by
  intro present
  rw [make_directory_of_is_directory present] at missing
  cases missing

theorem make_directories_makes (files : Files) (path : String) :
    Makes files path (files.makeDirectories path).1 (files.makeDirectories path).2 := by
  fun_induction files.makeDirectories path with
  | case1 path empty =>
      have same : path = "" := by simpa using empty
      exact same ▸ .nothing
  | case2 path _ made makes => exact .made makes
  | case3 path named missing _ =>
      exact .refused (by simpa using named) (not_directory_of_missing missing)
  | case4 path _ missing parent above _ made fault result induction =>
      rw [result] at induction
      exact .refusedAbove missing above induction
  | case5 path named missing parent above _ between result induction =>
      rw [result] at induction
      exact .behind missing above induction (last_directory_makes (by simpa using named))
  | case6 path named missing =>
      exact .refused (by simpa using named) (not_directory_of_missing missing)
  | case7 path _ _ _ _ present => exact .there present
  | case8 path named _ _ _ absent => exact .refused (by simpa using named) absent

/-! ### What is kept -/

theorem Sound.found {follow : Bool} {found : Found} (sound : files.Sound)
    (leads : files.tree.find follow files.here path = .ok found) : found.Stands files.tree := by
  obtain ⟨checked, walks⟩ := find_eq_ok_iff.mp leads
  exact walks.stands sound.tree (FileTree.start_of_stands sound.here path)
    (FileTree.steps_clean (check_eq_ok_iff.mp checked).1)

theorem Sound.found_new {found : Found} (sound : files.Sound)
    (leads : files.tree.findNew files.here path = .ok found) : found.Stands files.tree := by
  obtain ⟨checked, walks⟩ := find_new_eq_ok_iff.mp leads
  refine walks.stands sound.tree (FileTree.start_of_stands sound.here path) ?_
  intro step member
  exact FileTree.steps_clean (check_eq_ok_iff.mp checked).1 step (List.mem_filter.mp member).1

theorem Sound.set_vacant (sound : files.Sound) {directory : Place} {name : String}
    (stands : Found.Stands files.tree (.vacant directory name)) {node : FileNode}
    (clean : ∀ target, node = .link target → '\x00' ∉ target.toList) :
    Sound { files with tree := files.tree.set (directory ++ [name]) node } := by
  obtain ⟨inside, vacant, named⟩ := stands
  have proper := FileTree.proper_append (FileTree.proper_of_node inside) named
  have flat : files.tree.node? (directory ++ [name]) ≠ some .directory := by simp [vacant]
  exact ⟨sound.tree.set proper inside flat clean,
    FileTree.grows_set vacant node _ _ sound.here⟩

theorem make_directory_keeps (sound : files.Sound) (makes : files.makeDirectory path = .ok made) :
    made.Sound ∧ files.tree.Grows made.tree ∧ made.here = files.here := by
  obtain ⟨directory, name, leads, rfl⟩ := make_directory_eq_ok_iff.mp makes
  have stands := sound.found_new leads
  exact ⟨sound.set_vacant stands nofun, FileTree.grows_set stands.2.1 _, rfl⟩

theorem Makes.keeps (makes : Makes files path made fault) (sound : files.Sound) :
    made.Sound ∧ files.tree.Grows made.tree ∧ made.here = files.here := by
  induction makes with
  | nothing => exact ⟨sound, .refl _, rfl⟩
  | there => exact ⟨sound, .refl _, rfl⟩
  | refused => exact ⟨sound, .refl _, rfl⟩
  | made makes => exact make_directory_keeps sound makes
  | refusedAbove _ _ _ induction => exact induction sound
  | behind _ _ _ _ above last =>
      obtain ⟨soundBetween, grown, here⟩ := above sound
      obtain ⟨soundMade, further, sameHere⟩ := last soundBetween
      exact ⟨soundMade, grown.trans further, sameHere.trans here⟩

theorem Arrives.grows {place : Place} (arrives : files.Arrives path place)
    (grows : files.tree.Grows made.tree) (here : made.here = files.here) :
    made.Arrives path place := by
  rw [Arrives, here]
  exact FileTree.Walks.grows arrives grows rfl

theorem is_directory_grows (present : files.isDirectory path = true)
    (grows : files.tree.Grows made.tree) (here : made.here = files.here) :
    made.isDirectory path = true := by
  obtain ⟨checked, place, arrives⟩ := is_directory_iff.mp present
  exact is_directory_iff.mpr ⟨checked, place, arrives.grows grows here⟩

theorem make_directories_of_is_directory (present : files.isDirectory path = true) :
    files.makeDirectories path = (files, none) := by
  have named := (check_eq_ok_iff.mp (is_directory_iff.mp present).1).2.1
  rw [makeDirectories, if_neg (by simpa using named), make_directory_of_is_directory present]
  simp [present]

/-! ### A refusal -/

theorem parent_of_empty : Path.parent? "" = none := by decide

theorem named_of_parent (above : Path.parent? path = some parent) : path ≠ "" := by
  intro same
  rw [same, parent_of_empty] at above
  cases above

theorem names_of_missing (missing : files.makeDirectory path = .error .missing)
    (above : Path.parent? path = some parent) : Path.names path ≠ [] := by
  intro empty
  cases checked : FileTree.checkPath path with
  | ok => exact not_directory_of_missing missing (is_directory_of_no_names checked empty)
  | error fault =>
      have refused : files.makeDirectory path = .error fault := by
        rw [makeDirectory, FileTree.findNew, checked]
        rfl
      have same : fault = .missing := Except.error.inj (refused.symm.trans missing)
      have named := named_of_parent above
      rw [FileTree.checkPath] at checked
      split at checked
      · simp_all
      · split at checked
        · simp_all
        · split at checked <;> simp_all

theorem is_directory_parent {last : String} (below : Path.IsBelow parent path last)
    (named : parent ≠ "") (present : files.isDirectory path = true) :
    files.isDirectory parent = true := by
  obtain ⟨checked, place, arrives⟩ := is_directory_iff.mp present
  rw [Arrives, below.names] at arrives
  obtain ⟨left, between, leads, _⟩ := arrives.cut rfl
  rw [start_of_below below] at leads
  exact is_directory_iff.mpr ⟨check_of_below below named checked, between, leads.arrives⟩

theorem Makes.empty (makes : Makes files path made fault) (empty : path = "") :
    fault = none ∧ made = files := by
  cases makes with
  | nothing => exact ⟨rfl, rfl⟩
  | there => exact ⟨rfl, rfl⟩
  | refused named => exact absurd empty named
  | made makes =>
      obtain ⟨directory, name, leads, _⟩ := make_directory_eq_ok_iff.mp makes
      exact absurd empty (check_eq_ok_iff.mp (find_new_eq_ok_iff.mp leads).1).2.1
  | refusedAbove _ above => exact absurd empty (named_of_parent above)
  | behind _ above => exact absurd empty (named_of_parent above)

theorem Makes.not_directory {found : FileFault} (makes : Makes files path made fault)
    (refused : fault = some found) : ¬made.isDirectory path = true := by
  induction makes with
  | nothing => cases refused
  | there => cases refused
  | refused _ absent => exact absent
  | made => cases refused
  | @refusedAbove _ _ _ parent _ missing above makes induction =>
      obtain ⟨_, last, same, below, _⟩ := Path.parent_of_names (names_of_missing missing above)
      rw [above] at same
      cases same
      have named : parent ≠ "" := fun empty => by cases (makes.empty empty).1
      exact fun present => induction refused (is_directory_parent below named present)
  | behind _ _ _ _ _ last => exact last refused

/-! ### A new directory -/

/-- The path leads to a directory with nothing in it. -/
def LeadsToEmpty (files : Files) (path : String) : Prop :=
  ∃ place, files.Arrives path place ∧ ∀ name, files.tree.node? (place ++ [name]) = none

theorem leads_to_empty_of_made (sound : files.Sound) (ends : Path.EndsInName path)
    (makes : files.makeDirectory path = .ok made) : made.LeadsToEmpty path := by
  obtain ⟨_, grows, here⟩ := make_directory_keeps sound makes
  obtain ⟨directory, name, leads, rfl⟩ := make_directory_eq_ok_iff.mp makes
  have stands := sound.found_new leads
  have proper := FileTree.proper_append (FileTree.proper_of_node stands.1) stands.2.2
  obtain ⟨parent, last, _, below, _⟩ := Path.parent_of_names ends.names_ne_nil
  rw [find_new_eq below ends] at leads
  obtain ⟨_, place, arrives, final⟩ := find_below below ends leads
  obtain ⟨rfl, rfl, named, _⟩ := final.vacant_here
  obtain ⟨left, onward⟩ := (arrives.grows grows here).leads rfl
  refine ⟨directory ++ [name], ?_, ?_⟩
  · rw [Arrives, below.names, start_of_below below]
    exact onward.goes (.down named (by rw [FileTree.node_set proper, if_pos rfl]) .done)
  · intro inner
    have nothing : files.tree.node? (directory ++ [name] ++ [inner]) = none :=
      sound.tree.closed.nothing_below (by simp [stands.2.1]) (by simp)
    rw [FileTree.node_set proper, if_neg (by simp), nothing]

/-- Nothing is below an empty directory, as long as a path goes down. -/
theorem LeadsToEmpty.not_below {last : String} (empty : files.LeadsToEmpty parent)
    (below : Path.IsBelow parent path last) (down : ".." ∉ Path.names path) {place : Place} :
    ¬files.Arrives path place := by
  intro arrives
  obtain ⟨directory, leads, nothing⟩ := empty
  rw [Arrives, below.names, start_of_below below] at arrives
  obtain ⟨left, between, onward, final⟩ := arrives.cut rfl
  cases Arrives.unique leads onward.arrives
  have member : last ∈ Path.names path := below.names ▸ List.mem_concat_self
  cases final with
  | blank blank =>
      have named := Path.not_blank_of_mem_names member
      rw [FileTree.is_blank_step_iff.mpr blank] at named
      cases named
  | up => exact down member
  | down _ stands => simp [nothing last] at stands
  | follows _ stands => simp [nothing last] at stands

/-- A plain name in an empty directory leads to where it could be. -/
theorem vacant_of_empty {follow : Bool} {found : Found} {name : String} {place : Place}
    (arrives : files.Arrives parent place)
    (nothing : ∀ name, files.tree.node? (place ++ [name]) = none)
    (below : Path.IsBelow parent path name) (ends : Path.EndsInName path)
    (plain : Path.IsPlain name) (leads : files.tree.find follow files.here path = .ok found) :
    found = .vacant place name := by
  obtain ⟨left, between, again, final⟩ := find_below below ends leads
  cases arrives.unique again
  have proper := plain.proper
  cases final with
  | blank blank => exact absurd blank (by simp_all)
  | up => exact absurd proper (by decide)
  | vacant => rfl
  | down _ stands => simp [nothing name] at stands
  | file _ stands => simp [nothing name] at stands
  | link _ stands => simp [nothing name] at stands
  | follows _ stands => simp [nothing name] at stands

theorem Makes.is_directory (makes : Makes files path made fault) (sound : files.Sound)
    (tidy : Path.names path ≠ [] → Path.EndsInName path) (named : path ≠ "")
    (accepted : fault = none) : made.isDirectory path = true := by
  induction makes with
  | nothing => exact absurd rfl named
  | there present => exact present
  | refused => cases accepted
  | made makes =>
      obtain ⟨place, arrives, _⟩ := leads_to_empty_of_made sound (tidy (names_of_made makes)) makes
      obtain ⟨_, _, leads, _⟩ := make_directory_eq_ok_iff.mp makes
      exact is_directory_iff.mpr ⟨(find_new_eq_ok_iff.mp leads).1, place, arrives⟩
  | refusedAbove => cases accepted
  | behind _ _ above _ _ inLast => exact inLast (above.keeps sound).1 tidy named accepted

/-- A directory that is made was there, or is empty. -/
theorem Makes.leads_to_empty (makes : Makes files path made fault) (sound : files.Sound)
    (down : ".." ∉ Path.names path) (tidy : Path.names path ≠ [] → Path.EndsInName path)
    (accepted : fault = none) :
    made = files ∨ made.LeadsToEmpty path := by
  induction makes with
  | nothing => exact .inl rfl
  | there => exact .inl rfl
  | refused => cases accepted
  | made makes => exact .inr (leads_to_empty_of_made sound (tidy (names_of_made makes)) makes)
  | refusedAbove => cases accepted
  | @behind files between made path parent _ missing above makes last inAbove inLast =>
      obtain ⟨_, name, same, below, tidyAbove, _⟩ :=
        Path.parent_of_names (names_of_missing missing above)
      rw [above] at same
      cases same
      have downAbove : ".." ∉ Path.names parent :=
        fun member => down (below.names ▸ List.mem_append_left _ member)
      rcases inLast (makes.keeps sound).1 down tidy accepted with same | empty
      · rcases inAbove sound downAbove tidyAbove rfl with unchanged | emptyAbove
        · exact .inl (same.trans unchanged)
        · have present :=
            last.is_directory (makes.keeps sound).1 tidy (named_of_parent above) accepted
          obtain ⟨place, arrives⟩ := (is_directory_iff.mp present).2
          exact absurd (same ▸ arrives) (emptyAbove.not_below below down)
      · exact .inr empty

end ContainerApplets.Files
