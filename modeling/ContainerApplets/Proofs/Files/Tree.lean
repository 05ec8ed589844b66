import ContainerApplets.Files.Tree
import Mathlib.Data.List.Induction

/-!
What stands where in a tree of files after a node has been put at a place or taken away. In a closed
tree everything stands in a directory; what is no directory then has nothing below it. A tree that
has grown holds all that it held before.
-/

namespace ContainerApplets.FileTree

variable {tree other : FileTree} {place directory : Place} {node : FileNode} {name : String}

theorem lookup_filter (test : Place → Bool) (entries : List (Place × FileNode)) (place : Place) :
    (entries.filter fun entry => test entry.1).lookup place =
      if test place then entries.lookup place else none := by
  induction entries with
  | nil => simp
  | cons entry rest induction =>
      obtain ⟨first, node⟩ := entry
      by_cases same : place = first
      · subst same
        cases kept : test place <;> simp [kept, induction]
      · have different : (place == first) = false := by simpa using same
        cases kept : test first <;> simp [kept, List.lookup_cons, different, induction]

theorem node_keep (some : place ≠ []) (test : Place → Bool) :
    (tree.keep test).node? place = if test place then tree.node? place else none := by
  have inside : place.isEmpty = false := by simpa using some
  simp only [node?, inside, Bool.false_eq_true, if_false, keep, lookup_filter]

theorem proper_of_node (present : tree.node? place = some node) : place.isProper = true := by
  cases place with
  | nil => rfl
  | cons first rest =>
      obtain ⟨before, after, same, _⟩ := List.lookup_eq_some_iff.mp present
      exact tree.proper (first :: rest, node) (by simp [same])

theorem proper_append (proper : directory.isProper = true) (named : isFileName name = true) :
    Place.isProper (directory ++ [name]) = true := by
  simp_all [Place.isProper]

theorem node_set (proper : Place.isProper (directory ++ [name]) = true) (node : FileNode)
    (place : Place) :
    (tree.set (directory ++ [name]) node).node? place =
      if place = directory ++ [name] then some node else tree.node? place := by
  rw [set, dif_pos proper]
  by_cases root : place = []
  · simp [root, node?]
  · have inside : place.isEmpty = false := by simpa using root
    have kept := lookup_filter (fun other => decide (other ≠ directory ++ [name])) tree.entries
      place
    simp only [node?, inside, Bool.false_eq_true, if_false, keep, List.lookup_cons, kept]
    by_cases same : place = directory ++ [name]
    · simp [same]
    · rw [beq_eq_false_iff_ne.mpr same, if_neg same, if_pos (decide_eq_true same)]

/-! ### Closed trees -/

def Closed (tree : FileTree) : Prop :=
  ∀ directory name node, tree.node? (directory ++ [name]) = some node →
    tree.node? directory = some .directory

theorem Closed.above (closed : tree.Closed) (present : tree.node? place = some node) :
    tree.node? place.dropLast = some .directory := by
  rcases List.eq_nil_or_concat place with rfl | ⟨directory, name, rfl⟩
  · rfl
  · rw [List.concat_eq_append] at present ⊢
    rw [List.dropLast_concat]
    exact closed directory name node present

theorem Closed.nothing_below (closed : tree.Closed) (flat : tree.node? place ≠ some .directory)
    {below : Place} (some : below ≠ []) : tree.node? (place ++ below) = none := by
  induction below using List.reverseRecOn with
  | nil => exact absurd rfl some
  | append_singleton between name induction =>
      rw [← List.append_assoc, Option.eq_none_iff_forall_ne_some]
      intro node present
      have inside := closed _ name node present
      by_cases here : between = []
      · rw [here, List.append_nil] at inside
        exact flat inside
      · rw [induction here] at inside
        cases inside

/-- In a closed tree only the place itself is lost. -/
theorem Closed.node_remove (closed : tree.Closed) {taken : Place} (some : taken ≠ [])
    (flat : tree.node? taken ≠ Option.some .directory) (place : Place) :
    (tree.remove taken).node? place = if place = taken then none else tree.node? place := by
  by_cases root : place = []
  · rw [root, if_neg some.symm]
    rfl
  · rw [remove, node_keep root]
    by_cases lost : taken <+: place
    · have below : isBelow taken place = true := List.isPrefixOf_iff_prefix.mpr lost
      rw [below, if_neg (by decide)]
      obtain ⟨below, rfl⟩ := lost
      split
      · rfl
      · next elsewhere => exact (closed.nothing_below flat (by simpa using elsewhere)).symm
    · have kept : isBelow taken place = false := by
        rw [isBelow, Bool.eq_false_iff]
        exact fun below => lost (List.isPrefixOf_iff_prefix.mp below)
      have elsewhere : place ≠ taken := fun same => lost (same ▸ List.prefix_refl place)
      rw [kept, if_pos (by decide), if_neg elsewhere]

/-- A node can be put where no directory stands. -/
theorem Closed.set (closed : tree.Closed) (proper : Place.isProper (directory ++ [name]) = true)
    (inside : tree.node? directory = some .directory)
    (flat : tree.node? (directory ++ [name]) ≠ some .directory) (node : FileNode) :
    (tree.set (directory ++ [name]) node).Closed := by
  intro above last found present
  rw [node_set proper] at present ⊢
  split at present
  · next same =>
    obtain ⟨rfl, _⟩ := List.append_inj' same rfl
    rw [if_neg (by simp)]
    exact inside
  · have stands := closed above last found present
    rw [if_neg]
    · exact stands
    · intro same
      exact flat (same ▸ stands)

theorem Closed.remove (closed : tree.Closed) {taken : Place} (some : taken ≠ [])
    (flat : tree.node? taken ≠ Option.some .directory) : (tree.remove taken).Closed := by
  intro above last found present
  rw [closed.node_remove some flat] at present ⊢
  split at present
  · cases present
  · have stands := closed above last found present
    rw [if_neg]
    · exact stands
    · intro same
      exact flat (same ▸ stands)

/-! ### Sound trees -/

/-- A tree as a system keeps it. -/
structure Sound (tree : FileTree) : Prop where
  closed : tree.Closed
  targets : ∀ place target, tree.node? place = some (.link target) → '\x00' ∉ target.toList

theorem empty_sound : empty.Sound := by
  constructor
  · intro directory name node present
    simp [node?, empty] at present
  · intro place target present
    simp only [node?] at present
    split at present <;> cases present

theorem Sound.set (sound : tree.Sound) (proper : Place.isProper (directory ++ [name]) = true)
    (inside : tree.node? directory = some .directory)
    (flat : tree.node? (directory ++ [name]) ≠ some .directory)
    (clean : ∀ target, node = .link target → '\x00' ∉ target.toList) :
    (tree.set (directory ++ [name]) node).Sound := by
  refine ⟨sound.closed.set proper inside flat node, ?_⟩
  intro place target present
  rw [node_set proper] at present
  split at present
  · exact clean target (Option.some.inj present)
  · exact sound.targets place target present

theorem Sound.remove (sound : tree.Sound) {taken : Place} (some : taken ≠ [])
    (flat : tree.node? taken ≠ Option.some .directory) : (tree.remove taken).Sound := by
  refine ⟨sound.closed.remove some flat, ?_⟩
  intro place target present
  rw [sound.closed.node_remove some flat] at present
  split at present
  · cases present
  · exact sound.targets place target present

/-! ### Growing trees -/

/-- All that stands in a tree stands in the other one, too. -/
def Grows (tree other : FileTree) : Prop :=
  ∀ place node, tree.node? place = some node → other.node? place = some node

theorem Grows.refl (tree : FileTree) : tree.Grows tree := fun _ _ present => present

theorem Grows.trans {last : FileTree} (first : tree.Grows other) (second : other.Grows last) :
    tree.Grows last :=
  fun place node present => second place node (first place node present)

theorem grows_set (vacant : tree.node? (directory ++ [name]) = none) (node : FileNode) :
    tree.Grows (tree.set (directory ++ [name]) node) := by
  intro place found present
  by_cases proper : Place.isProper (directory ++ [name]) = true
  · rw [node_set proper, if_neg]
    · exact present
    · intro same
      rw [same, vacant] at present
      cases present
  · rw [set, dif_neg proper]
    exact present

theorem Closed.grows_of_remove (closed : tree.Closed) {taken : Place} (some : taken ≠ [])
    (flat : tree.node? taken ≠ Option.some .directory) : (tree.remove taken).Grows tree := by
  intro place node present
  rw [closed.node_remove some flat] at present
  split at present
  · cases present
  · exact present

end ContainerApplets.FileTree
