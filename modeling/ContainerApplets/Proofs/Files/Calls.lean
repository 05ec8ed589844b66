import ContainerApplets.Files.Calls
import ContainerApplets.Proofs.Checked
import ContainerApplets.Proofs.Files.Walk

/-!
What paths lead to. A path below a directory leads to an entry of the directory that the path of the
directory leads to, and without that directory it leads nowhere.
-/

namespace ContainerApplets

/-! ### The last step of a path -/

namespace Path

open FileTree (steps isBlankStep)

theorem blank_step_of_piece (piece : List Char) :
    isBlankStep (String.ofList piece) = isBlankPiece piece := by
  have empty : String.ofList piece = "" ↔ piece = [] :=
    ⟨fun same => by simpa using congrArg String.toList same, fun same => same ▸ rfl⟩
  have dot : String.ofList piece = "." ↔ piece = ['.'] :=
    ⟨fun same => by simpa using congrArg String.toList same, fun same => same ▸ rfl⟩
  rw [Bool.eq_iff_iff, FileTree.is_blank_step_iff, empty, dot]
  simp [isBlankPiece]

theorem steps_of_pieces {path : String} {front : List (List Char)} {last : List Char}
    (whole : pieces path.toList = front ++ [last]) :
    steps path = (front.map String.ofList).filter (· ≠ "") ++ [String.ofList last] := by
  simp [steps, whole]

theorem named_eq_filter (parts : List (List Char)) :
    named parts = (parts.map String.ofList).filter (!isBlankStep ·) := by
  simp [named, List.filter_map, Function.comp_def, blank_step_of_piece]

theorem steps_eq (path : String) :
    ∃ way last, steps path = way ++ [last] ∧ (∀ step ∈ way, step ≠ "") ∧
      names path = (way ++ [last]).filter (!isBlankStep ·) ∧
      (isBlankStep last = false → EndsInName path) := by
  obtain ⟨front, last, whole⟩ := (List.eq_nil_or_concat _).resolve_left (pieces_ne_nil path.toList)
  rw [List.concat_eq_append] at whole
  refine ⟨_, _, steps_of_pieces whole, ?_, ?_, ?_⟩
  · intro step member
    simpa using (List.mem_filter.mp member).2
  · rw [names, whole, named_eq_filter, List.map_append, List.filter_append, List.filter_append,
      List.filter_filter]
    congr 2
    funext step
    by_cases empty : step = "" <;> simp [empty, isBlankStep]
  · intro lastNamed
    exact ⟨front, last, whole, (blank_step_of_piece last).symm.trans lastNamed⟩

theorem EndsInName.steps_eq {path : String} (ends : EndsInName path) :
    ∃ way last, steps path = way ++ [last] ∧ (∀ step ∈ way, step ≠ "") ∧
      names path = way.filter (!isBlankStep ·) ++ [last] ∧ isBlankStep last = false := by
  obtain ⟨way, last, written, some, whole, _⟩ := Path.steps_eq path
  obtain ⟨front, piece, pieces_eq, lastNamed⟩ := ends
  have same : last = String.ofList piece := by
    rw [steps_of_pieces pieces_eq] at written
    exact (List.singleton_inj.mp (List.append_inj' written rfl).2).symm
  have named : isBlankStep last = false := by rw [same, blank_step_of_piece, lastNamed]
  refine ⟨way, last, written, some, ?_, named⟩
  rw [whole, List.filter_append]
  simp [named]

theorem not_blank_of_mem_names {path step : String} (member : step ∈ names path) :
    isBlankStep step = false := by
  rw [names, named_eq_filter] at member
  simpa using (List.mem_filter.mp member).2

theorem EndsInName.names_ne_nil {path : String} (ends : EndsInName path) : names path ≠ [] := by
  obtain ⟨way, last, _, _, whole, _⟩ := ends.steps_eq
  simp [whole]

end Path

/-! ### Looking -/

namespace Files

open FileTree (steps startOf linkLimit Found)

variable {files : Files} {path directory last : String} {follow : Bool} {found : Found}

/-- The names of a path lead to a directory. -/
def Arrives (files : Files) (path : String) (place : Place) : Prop :=
  files.tree.Walks true linkLimit (startOf files.here path) (Path.names path)
    (.present place .directory)

theorem Arrives.unique {first second : Place} (arrives : files.Arrives path first)
    (again : files.Arrives path second) : first = second := by
  cases FileTree.Walks.unique arrives again
  rfl

theorem find_eq_ok_iff :
    files.tree.find follow files.here path = .ok found ↔
      FileTree.checkPath path = .ok () ∧
        files.tree.Walks follow linkLimit (startOf files.here path) (steps path) found := by
  rw [FileTree.find, check_bind_eq_ok, FileTree.walk_eq_ok_iff]

theorem arrives_iff {place : Place} :
    files.Arrives path place ↔
      files.tree.Walks true linkLimit (startOf files.here path) (steps path)
        (.present place .directory) := by
  obtain ⟨way, ending, written, _, whole, _⟩ := Path.steps_eq path
  rw [Arrives, whole, written, ← FileTree.arrives_iff_unblanked]

theorem node_eq_some_iff {node : FileNode} :
    files.node? path = some node ↔
      ∃ place, files.tree.find true files.here path = .ok (.present place node) := by
  rw [node?]
  split
  · next place found same => simp [same, eq_comm]
  · next other =>
    refine ⟨nofun, fun present => ?_⟩
    obtain ⟨place, same⟩ := present
    exact absurd same (other place node)

theorem is_directory_iff :
    files.isDirectory path = true ↔
      FileTree.checkPath path = .ok () ∧ ∃ place, files.Arrives path place := by
  rw [isDirectory, beq_iff_eq, node_eq_some_iff]
  simp only [find_eq_ok_iff, arrives_iff, exists_and_left]

theorem place_of_eq_some_iff {place : Place} :
    files.placeOf? path = some place ↔
      FileTree.checkPath path = .ok () ∧ files.Arrives path place := by
  rw [arrives_iff, ← find_eq_ok_iff, placeOf?]
  split
  · next other same => simp [same]
  · next other => exact ⟨nofun, fun same => absurd same (other place)⟩

/-- Where a path leads, if something is or could be there. -/
def leadsTo? (files : Files) (path : String) : Option Place :=
  match files.tree.find true files.here path with
  | .ok found => some found.place
  | .error _ => none

theorem leads_to_eq_some_iff {place : Place} :
    files.leadsTo? path = some place ↔
      ∃ found, files.tree.find true files.here path = .ok found ∧ found.place = place := by
  rw [leadsTo?]
  split
  · next found same => simp [same]
  · next fault same => simp [same]

/-! ### Below a directory -/

section Below

open ContainerApplets.Path (IsBelow EndsInName)

theorem check_eq_ok_iff :
    FileTree.checkPath path = .ok () ↔
      '\x00' ∉ path.toList ∧ path ≠ "" ∧ path.utf8ByteSize ≤ FileTree.longestPath := by
  rw [FileTree.checkPath]
  split
  · simp_all
  · split
    · simp_all
    · split
      · next long => simpa using fun _ _ => long
      · simp_all

theorem check_of_below (below : IsBelow directory path last) (some : directory ≠ "")
    (checked : FileTree.checkPath path = .ok ()) : FileTree.checkPath directory = .ok () := by
  obtain ⟨behind, whole⟩ := below.ahead
  have written : path = directory ++ String.ofList behind := by
    apply String.toList_injective
    simp [whole]
  obtain ⟨clean, _, short⟩ := check_eq_ok_iff.mp checked
  rw [written, String.utf8ByteSize_append] at short
  refine check_eq_ok_iff.mpr ⟨?_, some, by omega⟩
  intro nul
  exact clean (whole ▸ List.mem_append_left behind nul)

theorem start_of_below (below : IsBelow directory path last) :
    startOf files.here path = startOf files.here directory := by
  rw [startOf, startOf, below.absolute]

theorem steps_of_below (below : IsBelow directory path last) (ends : EndsInName path) :
    ∃ way, steps path = way ++ [last] ∧ (∀ step ∈ way ++ [last], step ≠ "") ∧
      way.filter (!FileTree.isBlankStep ·) = Path.names directory ∧
      FileTree.isBlankStep last = false := by
  obtain ⟨way, ending, written, some, whole, named⟩ := ends.steps_eq
  obtain ⟨same, alike⟩ := List.append_inj' (below.names.symm.trans whole) rfl
  cases alike
  refine ⟨way, written, ?_, same.symm, named⟩
  simp only [List.mem_append, List.mem_singleton]
  rintro step (early | rfl)
  · exact some step early
  · intro empty
    simp [empty, FileTree.isBlankStep] at named

/-- What is found is found by the last name in the directory, and so is what else is there. -/
theorem find_through (below : IsBelow directory path last) (ends : EndsInName path)
    (leads : files.tree.find follow files.here path = .ok found) :
    ∃ left place, files.Arrives directory place ∧
      files.tree.Walks follow left place [last] found ∧
      ∀ {follow found}, files.tree.Walks follow left place [last] found →
        files.tree.find follow files.here path = .ok found := by
  obtain ⟨way, written, _, unblanked, _⟩ := steps_of_below below ends
  obtain ⟨checked, walks⟩ := find_eq_ok_iff.mp leads
  rw [written] at walks
  obtain ⟨left, place, onward, final⟩ := walks.cut rfl
  refine ⟨left, place, ?_, final, fun other => ?_⟩
  · rw [Arrives, ← unblanked, ← FileTree.arrives_iff_unblanked, ← start_of_below below]
    exact onward.arrives
  · rw [find_eq_ok_iff, written]
    exact ⟨checked, onward.goes other⟩

/-- What the last name leads to in the directory is what the path leads to. -/
theorem find_of_arrives {place : Place} (below : IsBelow directory path last)
    (ends : EndsInName path) (checked : FileTree.checkPath path = .ok ())
    (arrives : files.Arrives directory place)
    (walks : ∀ left, files.tree.Walks follow left place [last] found) :
    files.tree.find follow files.here path = .ok found := by
  obtain ⟨way, written, _, unblanked, _⟩ := steps_of_below below ends
  rw [Arrives, ← unblanked, ← FileTree.arrives_iff_unblanked, ← start_of_below below] at arrives
  obtain ⟨left, onward⟩ := arrives.leads rfl
  rw [find_eq_ok_iff, written]
  exact ⟨checked, onward.goes (walks left)⟩

theorem unslashed_of_ends (ends : EndsInName path) : endsInSlash path = false := by
  obtain ⟨front, last, whole, named⟩ := ends
  rw [endsInSlash, beq_eq_false_iff_ne]
  intro slashed
  obtain ⟨before, written⟩ := List.getLast?_eq_some_iff.mp slashed
  rw [written, Path.pieces_append] at whole
  cases List.append_inj' whole rfl |>.2
  cases named

theorem find_below (below : IsBelow directory path last) (ends : EndsInName path)
    (leads : files.tree.find follow files.here path = .ok found) :
    ∃ left place, files.Arrives directory place ∧
      files.tree.Walks follow left place [last] found := by
  obtain ⟨left, place, arrives, final, _⟩ := find_through below ends leads
  exact ⟨left, place, arrives, final⟩

theorem find_new_eq (below : IsBelow directory path last) (ends : EndsInName path) :
    files.tree.findNew files.here path = files.tree.find false files.here path := by
  obtain ⟨way, written, some, _⟩ := steps_of_below below ends
  rw [FileTree.findNew, FileTree.find, List.filter_eq_self.mpr]
  intro step member
  simpa using some step (written ▸ member)

theorem is_directory_of_found (below : IsBelow directory path last) (ends : EndsInName path)
    (some : directory ≠ "") (leads : files.tree.find follow files.here path = .ok found) :
    files.isDirectory directory = true := by
  obtain ⟨left, place, arrives, _⟩ := find_below below ends leads
  exact is_directory_iff.mpr
    ⟨check_of_below below some (find_eq_ok_iff.mp leads).1, place, arrives⟩

/-- Without its directory a path leads nowhere. -/
theorem unreached (below : IsBelow directory path last) (ends : EndsInName path)
    (named : directory ≠ "") (absent : ¬files.isDirectory directory = true) :
    files.node? path = none ∧ files.leadsTo? path = none := by
  constructor
  · rw [Option.eq_none_iff_forall_ne_some]
    intro node present
    obtain ⟨place, leads⟩ := node_eq_some_iff.mp present
    exact absent (is_directory_of_found below ends named leads)
  · rw [Option.eq_none_iff_forall_ne_some]
    intro place led
    obtain ⟨found, leads, _⟩ := leads_to_eq_some_iff.mp led
    exact absent (is_directory_of_found below ends named leads)

end Below

end Files

end ContainerApplets
