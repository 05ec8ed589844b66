import ContainerApplets.Proofs.Hooks.Resolution

/-!
The tables that are accepted, as graphs. An edge is one hook of one applet; a table is accepted
exactly if every edge ends in the table and no two applets are joined by two paths.
-/

namespace ContainerApplets

namespace AppletTable

variable {table : AppletTable}

/-- Every hook of every applet names an applet of the table. -/
def HooksFound (table : AppletTable) : Prop :=
  ∀ applet ∈ table.applets.values, ∀ side, ∀ name ∈ applet.hooks side,
    ∃ target, table.get? name = some target

/-- Two applets of the table are joined by at most one path, the empty one included. -/
def PathsUnique (table : AppletTable) : Prop :=
  ∀ first ∈ table.applets.values, ∀ last ∈ table.applets.values, ∀ path other,
    table.follow first path = some last → table.follow first other = some last → path = other

theorem validate_eq_ok_iff_walks :
    table.validate = .ok () ↔
      ∀ applet ∈ table.applets.values, ∃ last, table.walk applet = .ok last := by
  rw [validate, for_each_eq_ok]
  refine forall₂_congr fun applet _ => ?_
  change Function.const Walk () <$> table.walk applet = .ok () ↔ _
  simp [map_eq_ok]

/-- In an accepted table every applet unfolds once. -/
theorem validate_eq_ok_iff :
    table.validate = .ok () ↔ ∀ applet ∈ table.applets.values, table.UnfoldsOnce applet := by
  rw [validate_eq_ok_iff_walks]
  refine forall₂_congr fun applet _ => ⟨?_, UnfoldsOnce.walk_ok⟩
  intro walks
  obtain ⟨last, walked⟩ := walks
  obtain ⟨tree, unfolding, distinct, _⟩ := walk_eq_ok_iff.mp walked
  exact unfolding.unfolds_once distinct

theorem mem_values_of_get {name : String} {applet : Applet}
    (found : table.get? name = some applet) : applet ∈ table.applets.values :=
  Catalog.mem_values.mpr ⟨name, found⟩

/-- Paths that begin in the table stay in it. -/
theorem mem_values_of_follow {first last : Applet} {path : List HookPosition}
    (member : first ∈ table.applets.values) (follows : table.follow first path = some last) :
    last ∈ table.applets.values := by
  induction path generalizing first with
  | nil =>
      cases follows
      exact member
  | cons position rest induction =>
      simp only [follow, target?, Option.bind_eq_some_iff] at follows
      obtain ⟨target, ⟨name, _, found⟩, along⟩ := follows
      exact induction (mem_values_of_get found) along

theorem Keyed.eq_of_name (keyed : table.Keyed) {left right : Applet}
    (leftMember : left ∈ table.applets.values) (rightMember : right ∈ table.applets.values)
    (same : left.appletName = right.appletName) : left = right := by
  obtain ⟨name, leftFound⟩ := Catalog.mem_values.mp leftMember
  obtain ⟨other, rightFound⟩ := Catalog.mem_values.mp rightMember
  have names : name = other := by
    rw [← keyed name left leftFound, ← keyed other right rightFound, same]
  subst names
  exact Option.some.inj (leftFound.symm.trans rightFound)

theorem UnfoldsOnce.hooks_found {applet : Applet} (once : table.UnfoldsOnce applet)
    (side : HookSide) {name : String} (listed : name ∈ applet.hooks side) :
    ∃ target, table.get? name = some target :=
  once.found [] applet rfl side name listed

theorem walk_ok_of_unique (keyed : table.Keyed) (found : table.HooksFound)
    (unique : table.PathsUnique) {applet : Applet} (member : applet ∈ table.applets.values) :
    ∃ last, table.walk applet = .ok last := by
  cases outcome : table.walk applet with
  | ok last => exact ⟨last, rfl⟩
  | error failure =>
      rcases walk_error outcome with
        ⟨name, _, path, other, left, right, different, follows, leftNamed, again, rightNamed⟩ |
        ⟨side, name, path, last, _, follows, listed, absent⟩
      · have leftMember := mem_values_of_follow member follows
        have rightMember := mem_values_of_follow member again
        have same := keyed.eq_of_name leftMember rightMember (leftNamed.trans rightNamed.symm)
        subst same
        exact absurd (unique applet member left leftMember path other follows again) different
      · obtain ⟨target, present⟩ :=
          found last (mem_values_of_follow member follows) side name listed
        simp [absent] at present

/-- A step along a hook that is in the table. -/
theorem follow_hook {applet target : Applet} {side : HookSide} {index : Nat} {name : String}
    (listed : (applet.hooks side)[index]? = some name) (found : table.get? name = some target) :
    table.follow applet [⟨side, index⟩] = some target := by
  simp [follow, target?, listed, found]

/-- An applet that unfolds once lists no hook twice, on one side or on both. -/
theorem UnfoldsOnce.hooks_nodup {applet : Applet} (once : table.UnfoldsOnce applet) :
    (applet.hooks .before ++ applet.hooks .after).Nodup := by
  have place {side other : HookSide} {index again : Nat} {name : String}
      (listed : (applet.hooks side)[index]? = some name)
      (repeated : (applet.hooks other)[again]? = some name) :
      (⟨side, index⟩ : HookPosition) = ⟨other, again⟩ := by
    obtain ⟨target, found⟩ := once.hooks_found side (List.mem_of_getElem? listed)
    have same := once.once _ _ _ _ (follow_hook listed found) (follow_hook repeated found) rfl
    simpa using same
  have oneSide (side : HookSide) : (applet.hooks side).Nodup := by
    rw [List.nodup_iff_getElem?_ne_getElem?]
    intro index again earlier bound same
    have listed : (applet.hooks side)[again]? = some (applet.hooks side)[again] := by simp
    have positions := place (same.trans listed) listed
    simp only [HookPosition.mk.injEq] at positions
    omega
  refine List.nodup_append'.mpr ⟨oneSide .before, oneSide .after, ?_⟩
  intro name before after
  obtain ⟨index, listed⟩ := List.getElem?_of_mem before
  obtain ⟨again, repeated⟩ := List.getElem?_of_mem after
  exact nomatch place listed repeated

theorem UnfoldsOnce.no_cycle {applet : Applet} (once : table.UnfoldsOnce applet)
    {path : List HookPosition} (follows : table.follow applet path = some applet) : path = [] :=
  once.once path [] applet applet follows rfl rfl

theorem UnfoldsOnce.no_self_hook (keyed : table.Keyed) {applet : Applet}
    (member : applet ∈ table.applets.values) (once : table.UnfoldsOnce applet) (side : HookSide) :
    applet.appletName ∉ applet.hooks side := by
  intro listed
  obtain ⟨index, place⟩ := List.getElem?_of_mem listed
  obtain ⟨target, found⟩ := once.hooks_found side listed
  have same := keyed.eq_of_name (mem_values_of_get found) member (keyed _ _ found)
  subst same
  simpa using once.no_cycle (follow_hook place found)

/-- A table is accepted exactly if its hooks are found and its paths are unique. Accepted tables
have no cycle, no applet that names itself, no two ways from one applet to another and no hook
twice, and all of their applets can be resolved. -/
theorem validate_accepts_unique_paths (table : AppletTable) (keyed : table.Keyed) :
    (table.validate = .ok () ↔ table.HooksFound ∧ table.PathsUnique) ∧
    (table.validate = .ok () → ∀ applet ∈ table.applets.values,
      (∀ path, table.follow applet path = some applet → path = []) ∧
      (∀ side, applet.appletName ∉ applet.hooks side) ∧
      (∀ position other left right last, table.follow applet (position :: left) = some last →
        table.follow applet (other :: right) = some last → position = other) ∧
      (applet.hooks .before ++ applet.hooks .after).Nodup ∧
      ∀ extra options, ∃ commands, table.resolve applet extra options = .ok commands) := by
  constructor
  · constructor
    · intro accepted
      have once := validate_eq_ok_iff.mp accepted
      constructor
      · intro applet member side name listed
        exact (once applet member).hooks_found side listed
      · intro first member last _ path other follows again
        exact (once first member).once path other last last follows again rfl
    · intro graph
      obtain ⟨found, unique⟩ := graph
      exact validate_eq_ok_iff_walks.mpr fun applet member =>
        walk_ok_of_unique keyed found unique member
  · intro accepted applet member
    have once := validate_eq_ok_iff.mp accepted applet member
    refine ⟨fun path => once.no_cycle, once.no_self_hook keyed member, ?_, once.hooks_nodup,
      fun extra options => resolve_ok_iff_unfolds_once.mpr once⟩
    intro position other left right last follows again
    have paths := once.once _ _ last last follows again rfl
    exact (List.cons.inj paths).1

/-- A database runs before the web server and a log after it. -/
def hooked : AppletTable :=
  let web := { Applet.ofImage "web" "nginx" with
    hooks := fun
      | .before => ["db"]
      | .after => ["log"] }
  ((empty.insert web).insert (.ofImage "db" "postgres")).insert (.ofImage "log" "fluentd")

theorem hooked_keyed : hooked.Keyed :=
  keyed_insert (keyed_insert (keyed_insert keyed_empty _) _) _

theorem validate_accepts_hooked :
    hooked.Keyed ∧ hooked.validate = .ok () ∧ hooked.HooksFound ∧ hooked.PathsUnique := by
  have accepted : hooked.validate = .ok () := by rfl
  have graph := validate_accepts_unique_paths hooked hooked_keyed
  exact ⟨hooked_keyed, accepted, graph.1.mp accepted⟩

end AppletTable

end ContainerApplets
