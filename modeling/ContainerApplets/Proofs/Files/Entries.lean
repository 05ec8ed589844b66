import ContainerApplets.Proofs.Files.Ancestors
import ContainerApplets.Proofs.Files.Calls
import Mathlib.Data.List.Infix

/-!
Which entries paths name. A path below a directory names an entry of the place that the directory
is, however the directory is written; a path that passes no link and does not go up is written like
the place that it leads to.
-/

namespace ContainerApplets

namespace FileTree

variable {tree : FileTree} {links : Nat} {here : Place} {step : String}

theorem IsEntryName.walks (named : IsEntryName step) {node : FileNode}
    (stands : tree.node? (here ++ [step]) = some node) :
    tree.Walks false links here [step] (.present (here ++ [step]) node) := by
  cases node with
  | directory => exact .down named stands .done
  | file text isExecutable => exact .file named stands
  | link target => exact .link named stands rfl

/-- Something is found by a name only if there is such an entry. -/
theorem Walks.entry_here {follow : Bool} {place : Place} {node : FileNode}
    (walks : tree.Walks follow links here [step] (.present place node))
    (proper : step ∉ ["", ".", ".."]) :
    IsEntryName step ∧ ∃ entry, tree.node? (here ++ [step]) = some entry := by
  simp only [List.mem_cons, List.not_mem_nil, or_false, not_or] at proper
  cases walks with
  | blank nothing => exact (nothing.elim proper.1 proper.2.1).elim
  | up => exact absurd rfl proper.2.2
  | down named stands => exact ⟨named, _, stands⟩
  | file named stands => exact ⟨named, _, stands⟩
  | link named stands => exact ⟨named, _, stands⟩
  | follows named stands => exact ⟨named, _, stands⟩

end FileTree

/-! ### Ways without links -/

def FileNode.isLink : FileNode → Bool
  | .link _ => true
  | _ => false

namespace FileTree

variable {tree : FileTree} {links : Nat} {here : Place} {way : List String}

/-- The names go down from the root, and none of them is that of a link. -/
structure Direct (tree : FileTree) (way : List String) : Prop where
  down : ".." ∉ way
  unlinked : ∀ front ∈ way.inits, ∀ node ∈ tree.node? front, node.isLink = false

instance (tree : FileTree) (way : List String) : Decidable (tree.Direct way) :=
  decidable_of_iff (".." ∉ way ∧ ∀ front ∈ way.inits, ∀ node ∈ tree.node? front,
    node.isLink = false) ⟨fun both => ⟨both.1, both.2⟩, fun direct => ⟨direct.1, direct.2⟩⟩

theorem Direct.ahead (direct : tree.Direct way) {front : List String} (ahead : front <+: way) :
    tree.Direct front where
  down := fun up => direct.down (ahead.subset up)
  unlinked := by
    intro further member
    apply direct.unlinked
    rw [List.mem_inits] at member ⊢
    exact member.trans ahead

/-- The walk is at a place that is written like the way so far, and no link leads it elsewhere. -/
theorem Direct.walks {place : Place} (direct : tree.Direct (here ++ way))
    (named : ∀ step ∈ way, isBlankStep step = false)
    (walks : tree.Walks true links here way (.present place .directory)) : place = here ++ way := by
  generalize whole : Found.present place .directory = found at walks
  induction walks with
  | done =>
      cases whole
      exact (List.append_nil _).symm
  | blank nothing =>
      have blank := is_blank_step_iff.mpr nothing
      rw [named _ List.mem_cons_self] at blank
      cases blank
  | up => exact absurd (by simp) direct.down
  | vacant => cases whole
  | @down _ here step rest _ _ _ _ induction =>
      have same : here ++ step :: rest = here ++ [step] ++ rest := by simp
      rw [same] at direct ⊢
      exact induction direct (fun other member => named other (List.mem_cons_of_mem _ member)) whole
  | file => cases whole
  | link => cases whole
  | @follows _ here step target rest _ _ stands =>
      have among : here ++ [step] ∈ (here ++ step :: rest).inits := by
        rw [List.mem_inits]
        exact ⟨rest, by simp⟩
      have unlinked := direct.unlinked _ among _ stands
      cases unlinked

end FileTree

namespace Files

open FileTree (steps startOf)
open ContainerApplets.Path (IsPlain)

variable {files : Files} {directory path name : String} {inside : Place}

/-- The place of the entry that a path names. A link at its end is such an entry. -/
def entryOf? (files : Files) (path : String) : Option Place :=
  match files.tree.find false files.here path with
  | .ok (.present place _) => some place
  | _ => none

/-- How the directory is written has no say in which entry a path below it names. -/
theorem entry_of_join (plain : IsPlain name) (leads : files.placeOf? directory = some inside)
    {node : FileNode} (present : files.node? (Path.join directory name) = some node) :
    files.entryOf? (Path.join directory name) = some (inside ++ [name]) := by
  have below := Path.below_join directory plain.relative plain.names_eq
  have ends := Path.ends_in_name_join directory plain
  obtain ⟨place, found⟩ := node_eq_some_iff.mp present
  obtain ⟨left, between, arrives, final, through⟩ := find_through below ends found
  have same : between = inside := arrives.unique (place_of_eq_some_iff.mp leads).2
  subst same
  obtain ⟨named, entry, stands⟩ := final.entry_here plain.proper
  rw [entryOf?, through (named.walks stands)]

theorem place_of_direct (absolute : Path.isAbsolute path = true)
    (direct : files.tree.Direct (Path.names path)) (leads : files.placeOf? path = some inside) :
    inside = Path.names path := by
  have arrives := (place_of_eq_some_iff.mp leads).2
  unfold Arrives startOf at arrives
  rw [if_pos absolute] at arrives
  exact FileTree.Direct.walks direct (fun _ => Path.not_blank_of_mem_names) arrives

end Files

end ContainerApplets
