import ContainerApplets.Proofs.Hooks.Unfolding

/-!
Paths along hooks, each step being one position in a list of hooks. The applets of an unfolding are
found at its paths, and a walk that is refused has come to something that is true of the paths: a
name at the ends of two of them, or a hook at the end of one that names nothing.
-/

namespace ContainerApplets

/-- Where a hook stands in its applet. The same name at two positions is two hooks. -/
@[ext]
structure HookPosition where
  side : HookSide
  index : Nat
  deriving DecidableEq

namespace HookForest

/-- The applets of a forest with the paths to them, in order, if the hooks of the forest stand from
this index on. -/
def nodes : HookForest → HookSide → Nat → List (List HookPosition × Applet)
  | .nil, _, _ => []
  | .cons applet before after rest, side, index =>
      let inside (node : List HookPosition × Applet) := (⟨side, index⟩ :: node.1, node.2)
      (before.nodes .before 0).map inside ++ ([⟨side, index⟩], applet) ::
        (after.nodes .after 0).map inside ++ rest.nodes side (index + 1)

theorem nodes_applets (forest : HookForest) (side : HookSide) (index : Nat) :
    (forest.nodes side index).map Prod.snd = forest.inOrder := by
  induction forest generalizing side index with
  | nil => rfl
  | cons applet before after rest beforeNodes afterNodes restNodes =>
      have keeps : (Prod.snd ∘ fun node : List HookPosition × Applet =>
          ((⟨side, index⟩ :: node.1 : List HookPosition), node.2)) = Prod.snd := rfl
      simp [nodes, inOrder, keeps, beforeNodes, afterNodes, restNodes]

end HookForest

namespace HookTree

def nodes (tree : HookTree) : List (List HookPosition × Applet) :=
  tree.before.nodes .before 0 ++ ([], tree.applet) :: tree.after.nodes .after 0

theorem nodes_applets (tree : HookTree) : tree.nodes.map Prod.snd = tree.inOrder := by
  simp [nodes, inOrder, HookForest.nodes_applets]

theorem nodes_names (tree : HookTree) :
    tree.nodes.map (fun node => node.2.appletName) = tree.names := by
  rw [names, ← nodes_applets, List.map_map]
  rfl

end HookTree

namespace AppletTable

/-- The applet that the hook at a position names. -/
def target? (table : AppletTable) (applet : Applet) (position : HookPosition) : Option Applet :=
  (applet.hooks position.side)[position.index]?.bind table.get?

/-- The applet at the end of a path of hooks. -/
def follow (table : AppletTable) : Applet → List HookPosition → Option Applet
  | applet, [] => some applet
  | applet, position :: rest =>
      (table.target? applet position).bind fun target => table.follow target rest

/-- The paths along which an errand comes to an applet. In a list of hooks the first one has index
zero. -/
inductive Leads (table : AppletTable) : Errand → List HookPosition → Applet → Prop
  | here {applet : Applet} : Leads table (.visit applet) [] applet
  | inside {applet last : Applet} {side : HookSide} {path : List HookPosition}
      (along : Leads table (.hooks applet side (applet.hooks side)) path last) :
      Leads table (.visit applet) path last
  | first {referrer target last : Applet} {side : HookSide} {name : String} {rest : List String}
      {path : List HookPosition} (found : table.get? name = some target)
      (along : Leads table (.visit target) path last) :
      Leads table (.hooks referrer side (name :: rest)) (⟨side, 0⟩ :: path) last
  | later {referrer last : Applet} {side : HookSide} {name : String} {rest : List String}
      {index : Nat} {path : List HookPosition}
      (along : Leads table (.hooks referrer side rest) (⟨side, index⟩ :: path) last) :
      Leads table (.hooks referrer side (name :: rest)) (⟨side, index + 1⟩ :: path) last

variable {table : AppletTable}

theorem Leads.hook_path {referrer last : Applet} {side : HookSide} {names : List String}
    {path : List HookPosition} (leads : table.Leads (.hooks referrer side names) path last) :
    ∃ index rest, path = ⟨side, index⟩ :: rest := by
  cases leads with
  | first _ _ => exact ⟨_, _, rfl⟩
  | later _ => exact ⟨_, _, rfl⟩

theorem leads_hooks_of_getElem {referrer target last : Applet} {side : HookSide}
    {names : List String} {name : String} {index : Nat} {path : List HookPosition}
    (listed : names[index]? = some name) (found : table.get? name = some target)
    (along : table.Leads (.visit target) path last) :
    table.Leads (.hooks referrer side names) (⟨side, index⟩ :: path) last := by
  induction names generalizing index with
  | nil => simp at listed
  | cons head rest induction =>
      cases index with
      | zero =>
          cases listed
          exact .first found along
      | succ index => exact .later (induction (by simpa using listed))

/-- Every path that can be followed is one that a visit takes. -/
theorem leads_of_follow {applet last : Applet} {path : List HookPosition}
    (follows : table.follow applet path = some last) : table.Leads (.visit applet) path last := by
  induction path generalizing applet with
  | nil =>
      cases follows
      exact .here
  | cons position rest induction =>
      simp only [follow, target?, Option.bind_eq_some_iff] at follows
      obtain ⟨target, ⟨name, listed, found⟩, along⟩ := follows
      exact .inside (leads_hooks_of_getElem listed found (induction along))

def Arrives (table : AppletTable) : Errand → List HookPosition → Applet → Prop
  | .visit applet, path, last => table.follow applet path = some last
  | .hooks _ _ _, [], _ => False
  | .hooks _ _ names, position :: rest, last =>
      ∃ name target, names[position.index]? = some name ∧ table.get? name = some target ∧
        table.follow target rest = some last

theorem Leads.arrives {errand : Errand} {path : List HookPosition} {last : Applet}
    (leads : table.Leads errand path last) : table.Arrives errand path last := by
  induction leads with
  | here => rfl
  | inside along arrives =>
      obtain ⟨index, rest, rfl⟩ := along.hook_path
      obtain ⟨name, target, listed, found, follows⟩ := arrives
      change table.follow _ (_ :: rest) = _
      simp only [follow, target?, listed, found, Option.bind_some]
      exact follows
  | first found _ follows => exact ⟨_, _, rfl, found, follows⟩
  | later _ arrives => exact arrives

theorem follow_eq_some_iff {applet last : Applet} {path : List HookPosition} :
    table.follow applet path = some last ↔ table.Leads (.visit applet) path last :=
  ⟨leads_of_follow, Leads.arrives⟩

/-! ### The paths of an unfolding -/

/-- An unfolding leaves out no path. -/
theorem Unfolds.mem_nodes {names : List String} {forest : HookForest}
    (unfolds : table.Unfolds names forest) {referrer last : Applet} {side : HookSide}
    {index : Nat} {path : List HookPosition}
    (leads : table.Leads (.hooks referrer side names) (⟨side, index⟩ :: path) last)
    (start : Nat) : (⟨side, start + index⟩ :: path, last) ∈ forest.nodes side start := by
  induction unfolds generalizing referrer last side index path start with
  | nil => cases leads
  | @cons name names applet before after rest found _ _ _ inBefore inAfter inRest =>
      simp only [HookForest.nodes, List.mem_append, List.mem_cons, List.mem_map]
      cases leads with
      | first same along =>
          cases found.symm.trans same
          cases along with
          | here => exact .inl (.inr (.inl rfl))
          | @inside _ _ deeper _ along =>
              obtain ⟨place, rest, rfl⟩ := along.hook_path
              cases deeper with
              | before =>
                  have node := inBefore along 0
                  rw [Nat.zero_add] at node
                  exact .inl (.inl ⟨_, node, rfl⟩)
              | after =>
                  have node := inAfter along 0
                  rw [Nat.zero_add] at node
                  exact .inl (.inr (.inr ⟨_, node, rfl⟩))
      | @later _ _ _ _ _ place _ along =>
          have node := inRest along (start + 1)
          rw [show start + 1 + place = start + (place + 1) by omega] at node
          exact .inr node

theorem IsUnfolding.mem_nodes {root last : Applet} {tree : HookTree} {path : List HookPosition}
    (unfolding : table.IsUnfolding root tree) (follows : table.follow root path = some last) :
    (path, last) ∈ tree.nodes := by
  obtain ⟨rfl, before, after⟩ := unfolding
  rw [HookTree.nodes, List.mem_append, List.mem_cons]
  cases leads_of_follow follows with
  | here => exact .inr (.inl rfl)
  | @inside _ _ side _ along =>
      obtain ⟨index, rest, rfl⟩ := along.hook_path
      cases side with
      | before =>
          have node := before.mem_nodes along 0
          rw [Nat.zero_add] at node
          exact .inl node
      | after =>
          have node := after.mem_nodes along 0
          rw [Nat.zero_add] at node
          exact .inr (.inr node)

/-- Without a repeated name, applets of one name stand at one path. -/
theorem IsUnfolding.path_unique {root left right : Applet} {tree : HookTree}
    {path other : List HookPosition} (unfolding : table.IsUnfolding root tree)
    (distinct : tree.names.Nodup) (follows : table.follow root path = some left)
    (again : table.follow root other = some right) (same : left.appletName = right.appletName) :
    path = other := by
  rw [← tree.nodes_names] at distinct
  have equal := List.inj_on_of_nodup_map distinct (unfolding.mem_nodes follows)
    (unfolding.mem_nodes again) same
  exact congrArg Prod.fst equal

end AppletTable

end ContainerApplets
