import ContainerApplets.Plan
import ContainerApplets.Proofs.Hooks.Run
import Mathlib.Data.List.Nodup

/-!
The tree that an applet unfolds to when every hook is replaced by the applet that it names. A walk
succeeds exactly on the finite unfoldings in which no name occurs twice, and then it has passed
their applets in order.
-/

namespace ContainerApplets

/-- What a list of hooks unfolds to: the applet of each hook, with what its own hooks unfold to. -/
inductive HookForest
  | nil
  | cons (applet : Applet) (before after rest : HookForest)

/-- A root applet with what its hooks unfold to. -/
structure HookTree where
  applet : Applet
  before : HookForest
  after : HookForest

namespace HookForest

/-- Every applet stands after its before hooks and ahead of its after hooks. -/
def inOrder : HookForest → List Applet
  | .nil => []
  | .cons applet before after rest =>
      before.inOrder ++ applet :: after.inOrder ++ rest.inOrder

def names (forest : HookForest) : List String := forest.inOrder.map Applet.appletName

@[simp] theorem names_nil : nil.names = [] := rfl

@[simp] theorem names_cons (applet : Applet) (before after rest : HookForest) :
    (cons applet before after rest).names =
      before.names ++ applet.appletName :: (after.names ++ rest.names) := by
  simp [names, inOrder]

/-- The walk after all applets of a forest. -/
def pass : HookForest → Walk → Walk
  | .nil, walk => walk
  | .cons applet before after rest, walk =>
      rest.pass (after.pass ((before.pass (walk.enter applet.appletName)).note applet))

theorem pass_order (forest : HookForest) (walk : Walk) :
    (forest.pass walk).order = walk.order ++ forest.inOrder := by
  induction forest generalizing walk with
  | nil => simp [pass, inOrder]
  | cons applet before after rest beforeOrder afterOrder restOrder =>
      rw [pass, restOrder, afterOrder, Walk.note, beforeOrder, Walk.enter]
      simp [inOrder]

theorem mem_pass_entered (forest : HookForest) (walk : Walk) (name : String) :
    name ∈ (forest.pass walk).entered ↔ name ∈ forest.names ∨ name ∈ walk.entered := by
  induction forest generalizing walk with
  | nil => simp [pass]
  | cons applet before after rest beforeEntered afterEntered restEntered =>
      rw [pass, restEntered, afterEntered, Walk.note, beforeEntered, Walk.enter]
      simp only [names_cons, List.mem_append, List.mem_cons]
      tauto

end HookForest

namespace HookTree

def forest (tree : HookTree) : HookForest := .cons tree.applet tree.before tree.after .nil

def inOrder (tree : HookTree) : List Applet :=
  tree.before.inOrder ++ tree.applet :: tree.after.inOrder

def names (tree : HookTree) : List String := tree.inOrder.map Applet.appletName

/-- The extra arguments are for the root alone. -/
def commands (tree : HookTree) (extra : List String) (options : RunOptions) : List Command :=
  tree.before.inOrder.flatMap (fun applet => applet.commands [] options) ++
    tree.applet.commands extra options ++
    tree.after.inOrder.flatMap fun applet => applet.commands [] options

theorem forest_in_order (tree : HookTree) : tree.forest.inOrder = tree.inOrder := by
  simp [forest, inOrder, HookForest.inOrder]

theorem forest_names (tree : HookTree) : tree.forest.names = tree.names := by
  rw [HookForest.names, forest_in_order, names]

theorem names_eq (tree : HookTree) :
    tree.names = tree.before.names ++ tree.applet.appletName :: tree.after.names := by
  simp [names, inOrder, HookForest.names]

end HookTree

/-! ### Names that have not been met -/

/-- The names can be entered one after the other: they are distinct and none has been entered. -/
structure Unmet (entered names : List String) : Prop where
  distinct : names.Nodup
  apart : ∀ name ∈ names, name ∉ entered

theorem unmet_perm {entered left right : List String} (perm : left.Perm right) :
    Unmet entered left ↔ Unmet entered right := by
  constructor
  · intro unmet
    obtain ⟨distinct, apart⟩ := unmet
    exact ⟨perm.nodup distinct, fun name member => apart name (perm.symm.subset member)⟩
  · intro unmet
    obtain ⟨distinct, apart⟩ := unmet
    exact ⟨perm.symm.nodup distinct, fun name member => apart name (perm.subset member)⟩

theorem unmet_singleton {entered : List String} {name : String} :
    Unmet entered [name] ↔ name ∉ entered :=
  ⟨fun unmet => unmet.apart name (by simp), fun fresh => ⟨by simp, by simpa using fresh⟩⟩

theorem unmet_append {entered grown first later : List String}
    (grows : ∀ name, name ∈ grown ↔ name ∈ first ∨ name ∈ entered) :
    Unmet entered (first ++ later) ↔ Unmet entered first ∧ Unmet grown later := by
  constructor
  · intro unmet
    obtain ⟨distinct, apart⟩ := unmet
    have ⟨firstDistinct, laterDistinct, disjoint⟩ := List.nodup_append'.mp distinct
    refine ⟨⟨firstDistinct, fun name member => apart name (List.mem_append_left _ member)⟩,
      ⟨laterDistinct, fun name member => ?_⟩⟩
    rw [grows]
    intro known
    rcases known with earlier | earlier
    · exact disjoint earlier member
    · exact apart name (List.mem_append_right _ member) earlier
  · intro unmet
    obtain ⟨firstUnmet, laterUnmet⟩ := unmet
    constructor
    · refine List.nodup_append'.mpr ⟨firstUnmet.distinct, laterUnmet.distinct, ?_⟩
      intro name earlier member
      exact laterUnmet.apart name member ((grows name).mpr (.inl earlier))
    · intro name member
      rcases List.mem_append.mp member with early | late
      · exact firstUnmet.apart name early
      · exact fun known => laterUnmet.apart name late ((grows name).mpr (.inr known))

/-- The names of a forest are unmet if each is when the walk comes to it. -/
theorem unmet_forest {walk : Walk} {applet : Applet} {before after rest : HookForest} :
    Unmet walk.entered (HookForest.cons applet before after rest).names ↔
      applet.appletName ∉ walk.entered ∧
      Unmet (walk.enter applet.appletName).entered before.names ∧
      Unmet ((before.pass (walk.enter applet.appletName)).note applet).entered after.names ∧
      Unmet (after.pass ((before.pass (walk.enter applet.appletName)).note applet)).entered
        rest.names := by
  let inside := walk.enter applet.appletName
  let between := (before.pass inside).note applet
  have entering : (HookForest.cons applet before after rest).names.Perm
      ([applet.appletName] ++ (before.names ++ (after.names ++ rest.names))) := by
    simp
  have atApplet : Unmet walk.entered
        ([applet.appletName] ++ (before.names ++ (after.names ++ rest.names))) ↔
      Unmet walk.entered [applet.appletName] ∧
        Unmet inside.entered (before.names ++ (after.names ++ rest.names)) :=
    unmet_append (by simp [inside, Walk.enter])
  have atBefore : Unmet inside.entered (before.names ++ (after.names ++ rest.names)) ↔
      Unmet inside.entered before.names ∧ Unmet between.entered (after.names ++ rest.names) :=
    unmet_append (before.mem_pass_entered inside)
  have atAfter : Unmet between.entered (after.names ++ rest.names) ↔
      Unmet between.entered after.names ∧ Unmet (after.pass between).entered rest.names :=
    unmet_append (after.mem_pass_entered between)
  rw [unmet_perm entering, atApplet, unmet_singleton, atBefore, atAfter]

/-! ### Unfoldings -/

namespace AppletTable

/-- Every hook of the list is found in the table, and so are all hooks below it. -/
inductive Unfolds (table : AppletTable) : List String → HookForest → Prop
  | nil : Unfolds table [] .nil
  | cons {name : String} {names : List String} {applet : Applet}
      {before after rest : HookForest} (found : table.get? name = some applet)
      (unfoldBefore : Unfolds table (applet.hooks .before) before)
      (unfoldAfter : Unfolds table (applet.hooks .after) after)
      (unfoldRest : Unfolds table names rest) :
      Unfolds table (name :: names) (.cons applet before after rest)

/-- The tree is what the root unfolds to. The root itself is not looked up. -/
structure IsUnfolding (table : AppletTable) (root : Applet) (tree : HookTree) : Prop where
  applet : tree.applet = root
  before : table.Unfolds (root.hooks .before) tree.before
  after : table.Unfolds (root.hooks .after) tree.after

variable {table : AppletTable}

theorem Unfolds.unique {names : List String} {left right : HookForest}
    (first : table.Unfolds names left) (second : table.Unfolds names right) : left = right := by
  induction first generalizing right with
  | nil => cases second with | nil => rfl
  | cons found _ _ _ before after rest =>
      cases second with
      | cons same otherBefore otherAfter otherRest =>
          cases found.symm.trans same
          rw [before otherBefore, after otherAfter, rest otherRest]

theorem IsUnfolding.unique {root : Applet} {left right : HookTree}
    (first : table.IsUnfolding root left) (second : table.IsUnfolding root right) :
    left = right := by
  cases left
  cases right
  rw [HookTree.mk.injEq]
  exact ⟨first.applet.trans second.applet.symm, first.before.unique second.before,
    first.after.unique second.after⟩

/-- What the applets of an errand unfold to. -/
def Expands (table : AppletTable) : Errand → HookForest → Prop
  | .visit applet, forest => ∃ tree, table.IsUnfolding applet tree ∧ tree.forest = forest
  | .hooks _ _ names, forest => table.Unfolds names forest

/-- A run that succeeds has passed an unfolding whose names were unmet. -/
theorem Runs.expands {errand : Errand} {walk last : Walk} {outcome : Except Failure Walk}
    (run : table.Runs errand walk outcome) (ends : outcome = .ok last) :
    ∃ forest, table.Expands errand forest ∧ Unmet walk.entered forest.names ∧
      last = forest.pass walk := by
  induction run generalizing last with
  | again _ => cases ends
  | failsBefore _ _ _ => cases ends
  | @passes applet walk between outcome fresh _ _ before after =>
      obtain ⟨beforeForest, unfoldBefore, beforeUnmet, rfl⟩ := before rfl
      obtain ⟨afterForest, unfoldAfter, afterUnmet, rfl⟩ := after ends
      let tree : HookTree := ⟨applet, beforeForest, afterForest⟩
      refine ⟨tree.forest, ⟨tree, ⟨rfl, unfoldBefore, unfoldAfter⟩, rfl⟩, ?_, rfl⟩
      exact unmet_forest.mpr ⟨fresh, beforeUnmet, afterUnmet, List.nodup_nil, by simp⟩
  | done =>
      cases ends
      exact ⟨.nil, .nil, ⟨List.nodup_nil, by simp⟩, rfl⟩
  | missing _ => cases ends
  | targetFails _ _ _ => cases ends
  | next found _ _ visit later =>
      obtain ⟨_, ⟨tree, ⟨rfl, unfoldBefore, unfoldAfter⟩, rfl⟩, targetUnmet, rfl⟩ := visit rfl
      obtain ⟨rest, unfoldRest, restUnmet, rfl⟩ := later ends
      refine ⟨.cons tree.applet tree.before tree.after rest,
        .cons found unfoldBefore unfoldAfter unfoldRest, ?_, rfl⟩
      have ⟨fresh, beforeUnmet, afterUnmet, _⟩ := unmet_forest.mp targetUnmet
      exact unmet_forest.mpr ⟨fresh, beforeUnmet, afterUnmet, restUnmet⟩

/-- Hooks whose unfolding has only unmet names are followed to the end. -/
theorem Unfolds.runs {names : List String} {forest : HookForest}
    (unfolds : table.Unfolds names forest) (referrer : Applet) (side : HookSide) {walk : Walk}
    (unmet : Unmet walk.entered forest.names) :
    table.Runs (.hooks referrer side names) walk (.ok (forest.pass walk)) := by
  induction unfolds generalizing referrer side walk with
  | nil => exact .done
  | @cons name names applet before after rest found _ _ _ runBefore runAfter runRest =>
      have ⟨fresh, beforeUnmet, afterUnmet, restUnmet⟩ := unmet_forest.mp unmet
      have visit : table.Runs (.visit applet) walk (.ok (after.pass
          ((before.pass (walk.enter applet.appletName)).note applet))) :=
        .passes fresh (runBefore applet .before beforeUnmet) (runAfter applet .after afterUnmet)
      exact .next found visit (runRest referrer side restUnmet)

theorem IsUnfolding.runs {root : Applet} {tree : HookTree} {walk : Walk}
    (unfolding : table.IsUnfolding root tree) (unmet : Unmet walk.entered tree.names) :
    table.Runs (.visit root) walk (.ok (tree.forest.pass walk)) := by
  obtain ⟨rfl, before, after⟩ := unfolding
  rw [← tree.forest_names] at unmet
  have ⟨fresh, beforeUnmet, afterUnmet, _⟩ := unmet_forest.mp unmet
  exact .passes fresh (before.runs _ _ beforeUnmet) (after.runs _ _ afterUnmet)

theorem unmet_start {names : List String} : Unmet Walk.start.entered names ↔ names.Nodup :=
  ⟨Unmet.distinct, fun distinct => ⟨distinct, by simp [Walk.start]⟩⟩

/-- A walk succeeds exactly if the root has a finite unfolding in which no name occurs twice. -/
theorem walk_eq_ok_iff {root : Applet} {last : Walk} :
    table.walk root = .ok last ↔
      ∃ tree, table.IsUnfolding root tree ∧ tree.names.Nodup ∧ last = tree.forest.pass .start := by
  rw [walk_eq_iff_runs]
  constructor
  · intro run
    obtain ⟨_, ⟨tree, unfolding, rfl⟩, unmet, same⟩ := run.expands rfl
    rw [tree.forest_names] at unmet
    exact ⟨tree, unfolding, unmet.distinct, same⟩
  · intro unfolds
    obtain ⟨tree, unfolding, distinct, rfl⟩ := unfolds
    exact unfolding.runs (unmet_start.mpr distinct)

theorem closure_eq_ok_iff {root : Applet} {order : List Applet} :
    table.closure root = .ok order ↔
      ∃ tree, table.IsUnfolding root tree ∧ tree.names.Nodup ∧ order = tree.inOrder := by
  have passed (tree : HookTree) : (tree.forest.pass .start).order = tree.inOrder := by
    rw [HookForest.pass_order, tree.forest_in_order]
    rfl
  rw [closure, map_eq_ok]
  constructor
  · intro walks
    obtain ⟨last, walked, rfl⟩ := walks
    obtain ⟨tree, unfolding, distinct, rfl⟩ := walk_eq_ok_iff.mp walked
    exact ⟨tree, unfolding, distinct, passed tree⟩
  · intro unfolds
    obtain ⟨tree, unfolding, distinct, rfl⟩ := unfolds
    exact ⟨_, walk_eq_ok_iff.mpr ⟨tree, unfolding, distinct, rfl⟩, passed tree⟩

/-- In a tree without repeated names the root is known by its name. -/
theorem hook_commands_eq {tree : HookTree} (distinct : tree.names.Nodup) (extra : List String)
    (options : RunOptions) :
    hookCommands tree.applet tree.inOrder extra options = tree.commands extra options := by
  rw [tree.names_eq, List.nodup_append', List.nodup_cons, List.disjoint_cons_right] at distinct
  obtain ⟨_, ⟨notAfter, _⟩, notBefore, _⟩ := distinct
  have other {applets : List Applet}
      (absent : tree.applet.appletName ∉ applets.map Applet.appletName) :
      applets.flatMap (fun applet => applet.commands
          (if applet.appletName = tree.applet.appletName then extra else []) options) =
        applets.flatMap fun applet => applet.commands [] options := by
    apply List.flatMap_congr
    intro applet member
    have different : applet.appletName ≠ tree.applet.appletName :=
      fun same => absent (same ▸ List.mem_map_of_mem member)
    rw [if_neg different]
  rw [hookCommands, HookTree.inOrder, List.flatMap_append, List.flatMap_cons, if_pos rfl,
    other notBefore, other notAfter, HookTree.commands, List.append_assoc]

theorem resolve_eq_ok_iff {root : Applet} {extra : List String} {options : RunOptions}
    {commands : List Command} :
    table.resolve root extra options = .ok commands ↔
      ∃ tree, table.IsUnfolding root tree ∧ tree.names.Nodup ∧
        commands = tree.commands extra options := by
  rw [resolve, bind_eq_ok]
  constructor
  · intro resolved
    obtain ⟨order, closed, same⟩ := resolved
    obtain ⟨tree, unfolding, distinct, rfl⟩ := closure_eq_ok_iff.mp closed
    cases unfolding.applet
    rw [hook_commands_eq distinct] at same
    cases same
    exact ⟨tree, unfolding, distinct, rfl⟩
  · intro unfolds
    obtain ⟨tree, unfolding, distinct, rfl⟩ := unfolds
    refine ⟨tree.inOrder, closure_eq_ok_iff.mpr ⟨tree, unfolding, distinct, rfl⟩, ?_⟩
    cases unfolding.applet
    rw [hook_commands_eq distinct, pure_eq_ok]

end AppletTable

end ContainerApplets
