import ContainerApplets.Proofs.Files.Making

/-!
Writing a text. The text stands at the place that its path leads to, where nothing or a file stood,
and nothing else changes; so every path leads where it led before.
-/

namespace ContainerApplets.Files

open FileTree (AlikeBut Found linkLimit startOf steps)

variable {files written : Files} {path other text : String} {place : Place}

theorem read_text_eq_ok_iff :
    files.readText path = .ok text ↔
      ∃ isExecutable, files.node? path = some (.file text isExecutable) := by
  simp only [node_eq_some_iff]
  rw [readText, bind_eq_ok]
  constructor
  · intro passed
    obtain ⟨found, leads, result⟩ := passed
    match found with
    | .present place (.file content isExecutable) =>
        cases result
        exact ⟨isExecutable, place, leads⟩
    | .present _ .directory => cases result
    | .present _ (.link _) => cases result
    | .vacant _ _ => cases result
  · intro passed
    obtain ⟨isExecutable, place, leads⟩ := passed
    exact ⟨_, leads, rfl⟩

theorem exists_of_read_text (reads : files.readText path = .ok text) :
    files.exists? path = true := by
  obtain ⟨_, present⟩ := read_text_eq_ok_iff.mp reads
  rw [exists?, present, Option.isSome_some]

/-! ### Files that differ at one place -/

section Alike

variable (alike : AlikeBut place files.tree written.tree) (here : written.here = files.here)

include alike here

theorem find_alike {follow : Bool} {found : Found}
    (leads : files.tree.find follow files.here path = .ok found) :
    ∃ last, written.tree.find follow written.here path = .ok last ∧ last.place = found.place ∧
      (found.place ≠ place → last = found) := by
  obtain ⟨checked, walks⟩ := find_eq_ok_iff.mp leads
  obtain ⟨last, again, same⟩ := walks.alike alike
  exact ⟨last, find_eq_ok_iff.mpr ⟨checked, here ▸ again⟩, same⟩

theorem leads_to_alike (path : String) : written.leadsTo? path = files.leadsTo? path := by
  apply Option.ext
  intro spot
  rw [leads_to_eq_some_iff, leads_to_eq_some_iff]
  constructor
  · intro led
    obtain ⟨found, leads, rfl⟩ := led
    obtain ⟨last, again, same, _⟩ := find_alike alike.symm here.symm leads
    exact ⟨last, again, same⟩
  · intro led
    obtain ⟨found, leads, rfl⟩ := led
    obtain ⟨last, again, same, _⟩ := find_alike alike here leads
    exact ⟨last, again, same⟩

theorem node_of_node_alike {node : FileNode} (elsewhere : files.leadsTo? path ≠ some place)
    (present : files.node? path = some node) : written.node? path = some node := by
  obtain ⟨spot, leads⟩ := node_eq_some_iff.mp present
  obtain ⟨last, again, _, same⟩ := find_alike alike here leads
  have apart : spot ≠ place :=
    fun reached => elsewhere (leads_to_eq_some_iff.mpr ⟨_, leads, reached⟩)
  cases same apart
  exact node_eq_some_iff.mpr ⟨spot, again⟩

theorem node_alike (elsewhere : files.leadsTo? path ≠ some place) :
    written.node? path = files.node? path := by
  apply Option.ext
  intro node
  refine ⟨fun present => ?_, node_of_node_alike alike here elsewhere⟩
  rw [← leads_to_alike alike here] at elsewhere
  exact node_of_node_alike alike.symm here.symm elsewhere present

theorem is_directory_alike (sound : files.Sound) (present : files.isDirectory path = true) :
    written.isDirectory path = true := by
  rw [isDirectory, beq_iff_eq] at present ⊢
  refine node_of_node_alike alike here ?_ present
  intro led
  obtain ⟨spot, leads⟩ := node_eq_some_iff.mp present
  obtain ⟨found, again, reached⟩ := leads_to_eq_some_iff.mp led
  cases leads.symm.trans again
  obtain ⟨_, _, file⟩ := alike.here .directory (reached ▸ sound.found leads)
  cases file

end Alike

/-! ### The effect -/

/-- What writing a text changes. -/
structure Holds (files : Files) (path text : String) (written : Files) (place : Place) : Prop where
  leads : files.leadsTo? path = some place
  alike : AlikeBut place files.tree written.tree
  here : written.here = files.here
  sound : written.Sound
  stands : ∃ isExecutable, written.tree.node? place = some (.file text isExecutable)

theorem holds_of_set (sound : files.Sound) {directory : Place} {name : String} {isExecutable : Bool}
    (leads : files.leadsTo? path = some (directory ++ [name]))
    (proper : Place.isProper (directory ++ [name]) = true)
    (inside : files.tree.node? directory = some .directory)
    (ends : files.tree.IsEnd (directory ++ [name])) :
    files.Holds path text
      { files with tree := files.tree.set (directory ++ [name]) (.file text isExecutable) }
      (directory ++ [name]) := by
  have flat : files.tree.node? (directory ++ [name]) ≠ some .directory := by
    intro stands
    obtain ⟨_, _, file⟩ := ends _ stands
    cases file
  have stands : (files.tree.set (directory ++ [name]) (.file text isExecutable)).node?
      (directory ++ [name]) = some (.file text isExecutable) := by
    rw [FileTree.node_set proper, if_pos rfl]
  refine ⟨leads, ⟨?_, ends, ?_⟩, rfl, ⟨sound.tree.set proper inside flat nofun, ?_⟩, _, stands⟩
  · intro place different
    rw [FileTree.node_set proper, if_neg different]
  · intro node found
    rw [stands] at found
    exact ⟨text, isExecutable, (Option.some.inj found).symm⟩
  · rw [FileTree.node_set proper, if_neg]
    · exact sound.here
    · intro same
      exact flat (same ▸ sound.here)

theorem write_text_holds (sound : files.Sound) (writes : files.writeText path text = .ok written) :
    ∃ place, files.Holds path text written place := by
  rw [writeText] at writes
  split at writes
  · obtain ⟨_, _, result⟩ := bind_eq_ok.mp writes
    cases result
  split at writes
  · next place content isExecutable leads =>
    cases writes
    have stands := sound.found leads
    rcases List.eq_nil_or_concat place with rfl | ⟨directory, name, rfl⟩
    · cases stands
    · rw [List.concat_eq_append] at leads stands ⊢
      refine ⟨directory ++ [name], holds_of_set sound ?_ (FileTree.proper_of_node stands)
        (sound.tree.closed _ _ _ stands) ?_⟩
      · exact leads_to_eq_some_iff.mpr ⟨_, leads, rfl⟩
      · intro node found
        rw [stands] at found
        exact ⟨content, isExecutable, (Option.some.inj found).symm⟩
  · cases writes
  · cases writes
  · next directory name leads =>
    cases writes
    obtain ⟨inside, vacant, named⟩ := sound.found leads
    refine ⟨directory ++ [name], holds_of_set sound ?_
      (FileTree.proper_append (FileTree.proper_of_node inside) named) inside ?_⟩
    · exact leads_to_eq_some_iff.mpr ⟨_, leads, rfl⟩
    · intro node found
      rw [vacant] at found
      cases found
  · cases writes

/-- What has been written is read back. -/
theorem Holds.read_text (holds : files.Holds path text written place) :
    written.readText path = .ok text := by
  obtain ⟨isExecutable, stands⟩ := holds.stands
  have led := (leads_to_alike holds.alike holds.here path).trans holds.leads
  obtain ⟨found, leads, reached⟩ := leads_to_eq_some_iff.mp led
  have there := holds.sound.found leads
  cases found with
  | present spot node =>
      cases reached
      cases stands.symm.trans there
      exact read_text_eq_ok_iff.mpr ⟨isExecutable, node_eq_some_iff.mpr ⟨spot, leads⟩⟩
  | vacant directory name =>
      cases reached
      cases stands.symm.trans there.2.1

/-- What cannot be written is no text. -/
theorem not_text_of_unwritten {fault : FileFault} {content : String} (ends : Path.EndsInName path)
    (refused : files.writeText path text = .error fault) : files.readText path ≠ .ok content := by
  intro reads
  obtain ⟨isExecutable, present⟩ := read_text_eq_ok_iff.mp reads
  obtain ⟨place, leads⟩ := node_eq_some_iff.mp present
  rw [writeText, unslashed_of_ends ends, if_neg (by simp), leads] at refused
  cases refused

end ContainerApplets.Files
