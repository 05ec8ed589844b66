import ContainerApplets.Proofs.Hooks.Graph

/-!
Unfoldings carried from one table to another. A table that has the same applets and more unfolds
them alike, and so does a table in which an applet differs that the unfolding does not come to. The
order in which applets list their hooks decides only the order of an unfolding, not the names in it.
-/

namespace ContainerApplets

namespace AppletTable

variable {table other : AppletTable}

/-! ### More applets -/

/-- The other table has every applet of this one. -/
def IncludedIn (table other : AppletTable) : Prop :=
  ∀ name applet, table.get? name = some applet → other.get? name = some applet

theorem IncludedIn.unfolds (included : table.IncludedIn other) {names : List String}
    {forest : HookForest} (unfolds : table.Unfolds names forest) : other.Unfolds names forest := by
  induction unfolds with
  | nil => exact .nil
  | cons found _ _ _ before after rest => exact .cons (included _ _ found) before after rest

theorem IncludedIn.is_unfolding (included : table.IncludedIn other) {root : Applet}
    {tree : HookTree} (unfolding : table.IsUnfolding root tree) : other.IsUnfolding root tree :=
  ⟨unfolding.applet, included.unfolds unfolding.before, included.unfolds unfolding.after⟩

theorem IncludedIn.unfolds_once (included : table.IncludedIn other) {root : Applet}
    (once : table.UnfoldsOnce root) : other.UnfoldsOnce root := by
  obtain ⟨tree, unfolding, distinct⟩ := unfolds_once_iff.mp once
  exact (included.is_unfolding unfolding).unfolds_once distinct

theorem IncludedIn.closure_eq (included : table.IncludedIn other) {root : Applet}
    (once : table.UnfoldsOnce root) : other.closure root = table.closure root := by
  obtain ⟨tree, unfolding, distinct⟩ := unfolds_once_iff.mp once
  have here := closure_eq_ok_iff.mpr ⟨tree, unfolding, distinct, rfl⟩
  have there := closure_eq_ok_iff.mpr ⟨tree, included.is_unfolding unfolding, distinct, rfl⟩
  rw [here, there]

theorem IncludedIn.resolve_eq (included : table.IncludedIn other) {root : Applet}
    (once : table.UnfoldsOnce root) (extra : List String) (options : RunOptions) :
    other.resolve root extra options = table.resolve root extra options := by
  rw [resolve, resolve, included.closure_eq once]

/-! ### All applets but one -/

/-- Under every other name stands the same applet in both tables. -/
def AlikeBut (name : String) (table other : AppletTable) : Prop :=
  ∀ key, key ≠ name → other.get? key = table.get? key

theorem AlikeBut.unfolds {name : String} (alike : AlikeBut name table other)
    (keyed : table.Keyed) {names : List String} {forest : HookForest}
    (unfolds : table.Unfolds names forest) (apart : name ∉ forest.names) :
    other.Unfolds names forest := by
  induction unfolds with
  | nil => exact .nil
  | @cons key names applet before after rest found _ _ _ inBefore inAfter inRest =>
      simp only [HookForest.names_cons, List.mem_append, List.mem_cons, not_or] at apart
      obtain ⟨notBefore, notHere, notAfter, notRest⟩ := apart
      rw [keyed key applet found] at notHere
      have present : other.get? key = some applet := (alike key (Ne.symm notHere)).trans found
      exact .cons present (inBefore notBefore) (inAfter notAfter) (inRest notRest)

/-- A root that unfolds once does not come to its own name again, so it may differ from the applet
that the other table has under that name. -/
theorem AlikeBut.closure_eq {root : Applet} (alike : AlikeBut root.appletName table other)
    (keyed : table.Keyed) (once : table.UnfoldsOnce root) :
    other.closure root = table.closure root := by
  obtain ⟨tree, ⟨rfl, before, after⟩, distinct⟩ := unfolds_once_iff.mp once
  have names := distinct
  rw [tree.names_eq, List.nodup_append', List.nodup_cons, List.disjoint_cons_right] at names
  obtain ⟨_, ⟨notAfter, _⟩, notBefore, _⟩ := names
  have elsewhere : other.IsUnfolding tree.applet tree :=
    ⟨rfl, alike.unfolds keyed before notBefore, alike.unfolds keyed after notAfter⟩
  have here := closure_eq_ok_iff.mpr ⟨tree, ⟨rfl, before, after⟩, distinct, rfl⟩
  have there := closure_eq_ok_iff.mpr ⟨tree, elsewhere, distinct, rfl⟩
  rw [here, there]

/-! ### Hooks in another order -/

/-- The applets have one name and list the same hooks on each side, in some order. -/
structure SameHooks (left right : Applet) : Prop where
  named : left.appletName = right.appletName
  hooks : ∀ side, (left.hooks side).Perm (right.hooks side)

/-- The names unfold, up to the order of the names in it, to this forest. -/
def UnfoldsReordered (table : AppletTable) (names : List String) (forest : HookForest) : Prop :=
  ∃ moved, table.Unfolds names moved ∧ forest.names.Perm moved.names

theorem Unfolds.perm {names more : List String} (perm : names.Perm more) {forest : HookForest}
    (unfolds : table.Unfolds names forest) : table.UnfoldsReordered more forest := by
  induction perm generalizing forest with
  | nil => exact ⟨forest, unfolds, .refl _⟩
  | cons name _ induction =>
      cases unfolds with
      | cons found before after rest =>
          obtain ⟨moved, unfoldsRest, same⟩ := induction rest
          refine ⟨_, .cons found before after unfoldsRest, ?_⟩
          rw [HookForest.names_cons, HookForest.names_cons]
          exact .append_left _ (.cons _ (.append_left _ same))
  | swap first second names =>
      cases unfolds with
      | cons foundSecond beforeSecond afterSecond unfoldsRest =>
          cases unfoldsRest with
          | cons foundFirst beforeFirst afterFirst rest =>
              refine ⟨_, .cons foundFirst beforeFirst afterFirst
                (.cons foundSecond beforeSecond afterSecond rest), ?_⟩
              rw [List.perm_iff_count]
              intro name
              simp only [HookForest.names_cons, List.count_append, List.count_cons]
              omega
  | trans _ _ first second =>
      obtain ⟨between, unfoldsBetween, same⟩ := first unfolds
      obtain ⟨moved, unfoldsMoved, again⟩ := second unfoldsBetween
      exact ⟨moved, unfoldsMoved, same.trans again⟩

/-- The copy lists the hooks in its own order, which moves their unfolding once more. -/
theorem SameHooks.unfolds {applet copy : Applet} (same : SameHooks applet copy) (side : HookSide)
    {forest : HookForest} (unfolds : table.UnfoldsReordered (applet.hooks side) forest) :
    table.UnfoldsReordered (copy.hooks side) forest := by
  obtain ⟨listed, unfoldsListed, permListed⟩ := unfolds
  obtain ⟨moved, unfoldsMoved, permMoved⟩ := unfoldsListed.perm (same.hooks side)
  exact ⟨moved, unfoldsMoved, permListed.trans permMoved⟩

/-- Under each name of this table the other one has an applet with the same hooks. -/
def HooksIncludedIn (table other : AppletTable) : Prop :=
  ∀ name applet, table.get? name = some applet →
    ∃ copy, other.get? name = some copy ∧ SameHooks applet copy

theorem HooksIncludedIn.unfolds (included : table.HooksIncludedIn other) {names : List String}
    {forest : HookForest} (unfolds : table.Unfolds names forest) :
    other.UnfoldsReordered names forest := by
  induction unfolds with
  | nil => exact ⟨.nil, .nil, .refl _⟩
  | @cons name names applet before after rest found _ _ _ movesBefore movesAfter movesRest =>
      obtain ⟨copy, present, same⟩ := included name applet found
      obtain ⟨movedBefore, unfoldsBefore, permBefore⟩ := same.unfolds .before movesBefore
      obtain ⟨movedAfter, unfoldsAfter, permAfter⟩ := same.unfolds .after movesAfter
      obtain ⟨movedRest, unfoldsRest, permRest⟩ := movesRest
      refine ⟨_, .cons present unfoldsBefore unfoldsAfter unfoldsRest, ?_⟩
      rw [HookForest.names_cons, HookForest.names_cons, same.named]
      exact permBefore.append (.cons _ (permAfter.append permRest))

theorem HooksIncludedIn.unfolds_once (included : table.HooksIncludedIn other)
    {root copy : Applet} (same : SameHooks root copy) (once : table.UnfoldsOnce root) :
    other.UnfoldsOnce copy := by
  obtain ⟨tree, ⟨rfl, before, after⟩, distinct⟩ := unfolds_once_iff.mp once
  obtain ⟨movedBefore, unfoldsBefore, permBefore⟩ :=
    same.unfolds .before (included.unfolds before)
  obtain ⟨movedAfter, unfoldsAfter, permAfter⟩ := same.unfolds .after (included.unfolds after)
  let moved : HookTree := ⟨copy, movedBefore, movedAfter⟩
  have perm : tree.names.Perm moved.names := by
    rw [HookTree.names_eq, HookTree.names_eq, same.named]
    exact permBefore.append (.cons _ permAfter)
  have unfolding : other.IsUnfolding copy moved := ⟨rfl, unfoldsBefore, unfoldsAfter⟩
  exact unfolding.unfolds_once (perm.nodup distinct)

/-- Whether a table is accepted depends on the hooks of its applets alone, and not on the order in
which they are listed. -/
theorem HooksIncludedIn.accepted (included : table.HooksIncludedIn other)
    (names : ∀ name, name ∈ other.applets.names → name ∈ table.applets.names)
    (accepted : table.validate = .ok ()) : other.validate = .ok () := by
  refine validate_eq_ok_iff.mpr fun copy member => ?_
  obtain ⟨name, present⟩ := Catalog.mem_values.mp member
  obtain ⟨applet, found⟩ :=
    Catalog.mem_names.mp (names name (Catalog.mem_names.mpr ⟨copy, present⟩))
  obtain ⟨hooked, again, alike⟩ := included name applet found
  cases present.symm.trans again
  have once := validate_eq_ok_iff.mp accepted applet (mem_values_of_get found)
  exact included.unfolds_once alike once

end AppletTable

end ContainerApplets
