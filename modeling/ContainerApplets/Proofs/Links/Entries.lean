import ContainerApplets.Links
import ContainerApplets.Proofs.Files.Ancestors

/-!
Which names make a link an entry of the install directory. A name is joined as a path, so it is one
that leads to a single entry from wherever it is read.
-/

namespace ContainerApplets.Path

variable {directory path other : String}

/-! ### Entries -/

/-- The path is a direct child of a directory, with a name of its own. -/
def LiesIn (directory path : String) : Prop :=
  ∃ parent, parent? path = some parent ∧ same parent directory = true ∧
    (fileName? path).isSome = true

/-- From wherever it is read, the path leads to a single entry. -/
structure NamesEntry (path entry : String) : Prop where
  relative : isAbsolute path = false
  single : names path = [entry]
  proper : entry ≠ ".."

theorem lies_in_iff (absolute : isAbsolute directory = true) (too : isAbsolute path = true) :
    LiesIn directory path ↔ ∃ entry, names path = names directory ++ [entry] ∧ entry ≠ ".." := by
  by_cases rooted : names path = []
  · refine ⟨fun lies => ?_, fun entries => ?_⟩
    · obtain ⟨parent, above, _⟩ := lies
      rw [parent_of_no_names too rooted] at above
      cases above
    · obtain ⟨entry, whole, _⟩ := entries
      simp [rooted] at whole
  obtain ⟨parent, last, above, below, _, ends⟩ := parent_of_names rooted
  have parentAbsolute : isAbsolute parent = true := below.absolute.trans too
  constructor
  · intro lies
    obtain ⟨_, again, alike, proper⟩ := lies
    cases above.symm.trans again
    rw [same_iff_names parentAbsolute absolute] at alike
    refine ⟨last, alike ▸ below.names, fun up => ?_⟩
    rw [ends, if_pos up] at proper
    cases proper
  · intro entries
    obtain ⟨entry, whole, proper⟩ := entries
    obtain ⟨alike, same⟩ := List.append_inj' (below.names.symm.trans whole) rfl
    cases same
    exact ⟨parent, above, (same_iff_names parentAbsolute absolute).mpr alike,
      by rw [ends, if_neg proper]; rfl⟩

/-- The links that lie in the install directory, wherever that is. -/
theorem link_lies_in_iff (name : String) :
    (∀ directory, isAbsolute directory = true → LiesIn directory (linkPath directory name)) ↔
      ∃ entry, NamesEntry name entry := by
  constructor
  · intro lies
    have relative : isAbsolute name = false := by
      rw [← Bool.not_eq_true]
      intro absolute
      have alone (directory : String) : linkPath directory name = name := if_pos absolute
      have atRoot := alone "/" ▸ lies "/" (by decide)
      have below := alone "/a" ▸ lies "/a" (by decide)
      obtain ⟨_, whole, _⟩ := (lies_in_iff (by decide) absolute).mp atRoot
      obtain ⟨_, again, _⟩ := (lies_in_iff (by decide) absolute).mp below
      have lengths := congrArg List.length (whole.symm.trans again)
      rw [List.length_append, List.length_append] at lengths
      exact absurd (Nat.add_right_cancel lengths) (by decide)
    have absolute : isAbsolute (linkPath "/" name) = true := absolute_join "/" relative
    obtain ⟨entry, whole, proper⟩ :=
      (lies_in_iff (by decide) absolute).mp (lies "/" (by decide))
    rw [linkPath, names_join "/" relative] at whole
    exact ⟨entry, relative, List.append_cancel_left whole, proper⟩
  · intro names directory absolute
    obtain ⟨entry, relative, single, proper⟩ := names
    refine (lies_in_iff absolute ((absolute_join directory relative).trans absolute)).mpr ?_
    exact ⟨entry, by rw [names_join directory relative, single], proper⟩

end ContainerApplets.Path
