import ContainerApplets.Proofs.Files.Making

/-!
Links below a directory. A link is found, removed and made by its own name only, so that a path
below a directory reaches an entry of the directory and nothing else.
-/

namespace ContainerApplets

namespace Path

theorem join_pieces_concat {front : List (List Char)} (some : front ≠ []) (last : List Char) :
    joinPieces (front ++ [last]) = joinPieces front ++ '/' :: last := by
  induction front with
  | nil => exact absurd rfl some
  | cons part rest induction =>
      rw [List.cons_append, join_pieces_cons part (by simp)]
      cases rest with
      | nil => rfl
      | cons next rest =>
          rw [induction (by simp), join_pieces_cons part (by simp), List.append_assoc,
            List.cons_append]

/-- Only a path that ends in a slash has an empty last step. -/
theorem last_step_ne_empty {path last : String} {way : List String} (named : path ≠ "")
    (unslashed : Files.endsInSlash path = false) (written : FileTree.steps path = way ++ [last]) :
    last ≠ "" := by
  obtain ⟨front, piece, whole⟩ := (List.eq_nil_or_concat _).resolve_left (pieces_ne_nil path.toList)
  rw [List.concat_eq_append] at whole
  rw [steps_of_pieces whole] at written
  cases (List.append_inj' written rfl).2
  intro empty
  have nothing : piece = [] := by simpa using congrArg String.toList empty
  have text := join_pieces path.toList
  rw [whole, nothing] at text
  by_cases alone : front = []
  · rw [alone] at text
    exact named (String.toList_injective text.symm)
  · rw [join_pieces_concat alone] at text
    rw [Files.endsInSlash, ← text, List.getLast?_concat] at unslashed
    cases unslashed

end Path

namespace Files

open FileTree (Found IsEntryName)
open ContainerApplets.Path (IsBelow EndsInName)

variable {files after : Files} {path directory last : String}

theorem ends_in_name_of_link {place : Place} {target : String}
    (leads : files.tree.find false files.here path = .ok (.present place (.link target))) :
    EndsInName path := by
  obtain ⟨way, ending, written, _, _, ends⟩ := Path.steps_eq path
  have walks := (find_eq_ok_iff.mp leads).2
  rw [written] at walks
  obtain ⟨_, _, _, final⟩ := walks.cut rfl
  refine ends (Bool.eq_false_iff.mpr fun blank => ?_)
  cases final.behind_blank (FileTree.is_blank_step_iff.mp blank)

theorem ends_in_name_of_new {inside : Place} {name : String}
    (leads : files.tree.findNew files.here path = .ok (.vacant inside name))
    (unslashed : endsInSlash path = false) : EndsInName path := by
  obtain ⟨way, ending, written, _, _, ends⟩ := Path.steps_eq path
  obtain ⟨checked, walks⟩ := find_new_eq_ok_iff.mp leads
  have some := Path.last_step_ne_empty (check_eq_ok_iff.mp checked).2.1 unslashed written
  rw [written, List.filter_append, List.filter_cons_of_pos (by simpa using some)] at walks
  obtain ⟨_, _, _, final⟩ := walks.cut rfl
  refine ends (Bool.eq_false_iff.mpr fun blank => ?_)
  cases final.behind_blank (FileTree.is_blank_step_iff.mp blank)

theorem is_link_iff :
    files.isLink path = true ↔ ∃ place target,
      files.tree.find false files.here path = .ok (.present place (.link target)) := by
  rw [isLink]
  split
  · next place target same => simp [same]
  · next other =>
    refine ⟨nofun, fun link => ?_⟩
    obtain ⟨place, target, same⟩ := link
    exact absurd same (other place target)

theorem place_of_below (below : IsBelow directory path last) (named : directory ≠ "")
    (checked : FileTree.checkPath path = .ok ()) {inside : Place}
    (arrives : files.Arrives directory inside) : files.placeOf? directory = some inside :=
  place_of_eq_some_iff.mpr ⟨check_of_below below named checked, arrives⟩

/-- A link can be removed, and it is an entry of the directory. -/
theorem remove_link_below (below : IsBelow directory path last) (named : directory ≠ "")
    (link : files.isLink path = true) :
    ∃ inside target, files.placeOf? directory = some inside ∧
      files.tree.node? (inside ++ [last]) = some (.link target) ∧
      files.removeFile path = .ok { files with tree := files.tree.remove (inside ++ [last]) } := by
  obtain ⟨place, target, leads⟩ := is_link_iff.mp link
  obtain ⟨_, inside, arrives, final⟩ := find_below below (ends_in_name_of_link leads) leads
  obtain ⟨rfl, _, stands⟩ := final.link_here
  refine ⟨inside, target, ?_, stands, ?_⟩
  · exact place_of_below below named (find_eq_ok_iff.mp leads).1 arrives
  · rw [removeFile, leads]
    rfl

theorem make_link_eq_ok {target : String} (makes : files.makeLink target path = .ok after) :
    ∃ inside name, FileTree.checkPath target = .ok () ∧ endsInSlash path = false ∧
      files.tree.findNew files.here path = .ok (.vacant inside name) ∧
      after = { files with tree := files.tree.set (inside ++ [name]) (.link target) } := by
  rw [makeLink, check_bind_eq_ok] at makes
  obtain ⟨checked, makes⟩ := makes
  obtain ⟨found, leads, result⟩ := bind_eq_ok.mp makes
  cases found with
  | present => cases result
  | vacant inside name =>
      dsimp only at result
      split at result
      · cases result
      · next unslashed =>
        exact ⟨inside, name, checked, Bool.eq_false_iff.mpr unslashed, leads,
          (Except.ok.inj result).symm⟩

/-- A link is made where the directory has no such entry. -/
theorem make_link_below {target : String} (below : IsBelow directory path last)
    (named : directory ≠ "") (makes : files.makeLink target path = .ok after) :
    ∃ inside, files.placeOf? directory = some inside ∧
      files.tree.findNew files.here path = .ok (.vacant inside last) ∧ '\x00' ∉ target.toList ∧
      after = { files with tree := files.tree.set (inside ++ [last]) (.link target) } := by
  obtain ⟨place, name, checked, unslashed, leads, same⟩ := make_link_eq_ok makes
  have ends := ends_in_name_of_new leads unslashed
  have plain := leads
  rw [find_new_eq below ends] at plain
  obtain ⟨_, inside, arrives, final⟩ := find_below below ends plain
  obtain ⟨rfl, rfl, _⟩ := final.vacant_here
  refine ⟨place, ?_, leads, (check_eq_ok_iff.mp checked).1, same⟩
  exact place_of_below below named (find_new_eq_ok_iff.mp leads).1 arrives

theorem place_of_grows {inside : Place} (leads : files.placeOf? path = some inside)
    (grows : files.tree.Grows after.tree) (here : after.here = files.here) :
    after.placeOf? path = some inside := by
  obtain ⟨checked, arrives⟩ := place_of_eq_some_iff.mp leads
  exact place_of_eq_some_iff.mpr ⟨checked, arrives.grows grows here⟩

theorem Sound.remove_link (sound : files.Sound) {inside : Place} {target : String}
    (stands : files.tree.node? (inside ++ [last]) = some (.link target)) :
    Sound { files with tree := files.tree.remove (inside ++ [last]) } ∧
      (files.tree.remove (inside ++ [last])).Grows files.tree := by
  have some : inside ++ [last] ≠ [] := by simp
  have flat : files.tree.node? (inside ++ [last]) ≠ Option.some .directory := by simp [stands]
  refine ⟨⟨sound.tree.remove some flat, ?_⟩, sound.tree.closed.grows_of_remove some flat⟩
  rw [sound.tree.closed.node_remove some flat, if_neg]
  · exact sound.here
  · intro same
    exact flat (same ▸ sound.here)

end Files

end ContainerApplets
