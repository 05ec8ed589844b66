import ContainerApplets.Proofs.Hooks.Offence
import Mathlib.Data.Set.Finite.Basic

/-!
A root is resolved exactly if its unfolding is finite, finds every hook in the table and has no
name at two places. The commands are then those of the unfolding in order.
-/

namespace ContainerApplets

namespace AppletTable

/-- The applets at the paths of the root are finitely many, their hooks are all in the table and
their names are all different. -/
structure UnfoldsOnce (table : AppletTable) (root : Applet) : Prop where
  finite : {path | (table.follow root path).isSome}.Finite
  found : ∀ path applet, table.follow root path = some applet →
    ∀ side, ∀ name ∈ applet.hooks side, ∃ target, table.get? name = some target
  once : ∀ path other left right, table.follow root path = some left →
    table.follow root other = some right → left.appletName = right.appletName → path = other

variable {table : AppletTable}

theorem Unfolds.found {names : List String} {forest : HookForest}
    (unfolds : table.Unfolds names forest) {name : String} (listed : name ∈ names) :
    ∃ target, table.get? name = some target := by
  induction unfolds with
  | nil => simp at listed
  | cons same _ _ _ _ _ rest =>
      rcases List.mem_cons.mp listed with rfl | later
      · exact ⟨_, same⟩
      · exact rest later

theorem Unfolds.hooks_unfold {names : List String} {forest : HookForest}
    (unfolds : table.Unfolds names forest) {applet : Applet} (member : applet ∈ forest.inOrder)
    (side : HookSide) : ∃ inner, table.Unfolds (applet.hooks side) inner := by
  induction unfolds with
  | nil => simp [HookForest.inOrder] at member
  | cons _ unfoldBefore unfoldAfter _ inBefore inAfter inRest =>
      simp only [HookForest.inOrder, List.mem_append, List.mem_cons] at member
      rcases member with (early | rfl | late) | beyond
      · exact inBefore early
      · cases side with
        | before => exact ⟨_, unfoldBefore⟩
        | after => exact ⟨_, unfoldAfter⟩
      · exact inAfter late
      · exact inRest beyond

theorem IsUnfolding.hooks_unfold {root applet : Applet} {tree : HookTree}
    (unfolding : table.IsUnfolding root tree) (member : applet ∈ tree.inOrder) (side : HookSide) :
    ∃ inner, table.Unfolds (applet.hooks side) inner := by
  obtain ⟨rfl, before, after⟩ := unfolding
  rcases List.mem_append.mp member with early | later
  · exact before.hooks_unfold early side
  · rcases List.mem_cons.mp later with rfl | late
    · cases side with
      | before => exact ⟨_, before⟩
      | after => exact ⟨_, after⟩
    · exact after.hooks_unfold late side

theorem IsUnfolding.unfolds_once {root : Applet} {tree : HookTree}
    (unfolding : table.IsUnfolding root tree) (distinct : tree.names.Nodup) :
    table.UnfoldsOnce root := by
  constructor
  · apply (List.finite_toSet (tree.nodes.map Prod.fst)).subset
    intro path follows
    obtain ⟨last, follows⟩ := Option.isSome_iff_exists.mp follows
    change path ∈ tree.nodes.map Prod.fst
    exact List.mem_map_of_mem (unfolding.mem_nodes follows)
  · intro path applet follows side name listed
    have member : applet ∈ tree.inOrder := by
      rw [← tree.nodes_applets]
      exact List.mem_map_of_mem (unfolding.mem_nodes follows)
    obtain ⟨inner, unfolds⟩ := unfolding.hooks_unfold member side
    exact unfolds.found listed
  · intro path other left right follows again same
    exact unfolding.path_unique distinct follows again same

theorem UnfoldsOnce.walk_ok {root : Applet} (once : table.UnfoldsOnce root) :
    ∃ last, table.walk root = .ok last := by
  cases outcome : table.walk root with
  | ok last => exact ⟨last, rfl⟩
  | error failure =>
      rcases walk_error outcome with
        ⟨name, _, path, other, left, right, different, follows, leftNamed, again, rightNamed⟩ |
        ⟨side, name, path, applet, _, follows, listed, absent⟩
      · have same := leftNamed.trans rightNamed.symm
        exact absurd (once.once path other left right follows again same) different
      · obtain ⟨target, present⟩ := once.found path applet follows side name listed
        simp [absent] at present

theorem unfolds_once_iff {root : Applet} :
    table.UnfoldsOnce root ↔ ∃ tree, table.IsUnfolding root tree ∧ tree.names.Nodup := by
  constructor
  · intro once
    obtain ⟨last, walked⟩ := once.walk_ok
    obtain ⟨tree, unfolding, distinct, _⟩ := walk_eq_ok_iff.mp walked
    exact ⟨tree, unfolding, distinct⟩
  · intro unfolds
    obtain ⟨tree, unfolding, distinct⟩ := unfolds
    exact unfolding.unfolds_once distinct

/-- A copy with other settings unfolds as the applet does. -/
theorem UnfoldsOnce.copy {applet other : Applet} (once : table.UnfoldsOnce applet)
    (named : other.appletName = applet.appletName) (hooks : other.hooks = applet.hooks) :
    table.UnfoldsOnce other := by
  obtain ⟨tree, ⟨rfl, before, after⟩, distinct⟩ := unfolds_once_iff.mp once
  rw [← hooks] at before after
  refine unfolds_once_iff.mpr ⟨⟨other, tree.before, tree.after⟩, ⟨rfl, before, after⟩, ?_⟩
  rw [HookTree.names_eq] at distinct ⊢
  rw [named]
  exact distinct

theorem resolve_ok_iff_unfolds_once {root : Applet} {extra : List String} {options : RunOptions} :
    (∃ commands, table.resolve root extra options = .ok commands) ↔ table.UnfoldsOnce root := by
  rw [unfolds_once_iff]
  constructor
  · intro resolves
    obtain ⟨commands, resolved⟩ := resolves
    obtain ⟨tree, unfolding, distinct, _⟩ := resolve_eq_ok_iff.mp resolved
    exact ⟨tree, unfolding, distinct⟩
  · intro unfolds
    obtain ⟨tree, unfolding, distinct⟩ := unfolds
    exact ⟨_, resolve_eq_ok_iff.mpr ⟨tree, unfolding, distinct, rfl⟩⟩

theorem resolve_error {root : Applet} {failure : Failure}
    (refused : table.closure root = .error failure) (extra : List String) (options : RunOptions) :
    table.resolve root extra options = .error failure := by
  rw [resolve, refused, error_bind]

/-- Resolving is unfolding. The walk ends, with one outcome, on every table; what is run is the
in-order list of the unfolding, where the root alone is given the extra arguments; and a root that
does not unfold once has no commands. -/
theorem resolve_computes_unfolding (table : AppletTable) (root : Applet) (extra : List String)
    (options : RunOptions) :
    (table.Runs (.visit root) .start (table.walk root) ∧
      ∀ outcome, table.Runs (.visit root) .start outcome → outcome = table.walk root) ∧
    ((∃ commands, table.resolve root extra options = .ok commands) ↔ table.UnfoldsOnce root) ∧
    (table.UnfoldsOnce root → ∃ tree, table.IsUnfolding root tree ∧
      (∀ other, table.IsUnfolding root other → other = tree) ∧
      table.closure root = .ok tree.inOrder ∧
      (tree.inOrder.map Applet.appletName).Nodup ∧
      table.resolve root extra options = .ok (tree.commands extra options)) ∧
    (¬table.UnfoldsOnce root → ∃ failure, table.closure root = .error failure ∧
      table.resolve root extra options = .error failure) := by
  refine ⟨⟨runs_walk table root, fun outcome run => run.unique (runs_walk table root)⟩,
    resolve_ok_iff_unfolds_once, ?_, ?_⟩
  · intro once
    obtain ⟨tree, unfolding, distinct⟩ := unfolds_once_iff.mp once
    exact ⟨tree, unfolding, fun other also => also.unique unfolding,
      closure_eq_ok_iff.mpr ⟨tree, unfolding, distinct, rfl⟩, distinct,
      resolve_eq_ok_iff.mpr ⟨tree, unfolding, distinct, rfl⟩⟩
  · intro twice
    cases closed : table.closure root with
    | ok order =>
        obtain ⟨tree, unfolding, distinct, _⟩ := closure_eq_ok_iff.mp closed
        exact absurd (unfolding.unfolds_once distinct) twice
    | error failure => exact ⟨failure, rfl, resolve_error closed extra options⟩

end AppletTable

end ContainerApplets
