import ContainerApplets.Invocation
import ContainerApplets.Proofs.Hooks.Graph
import ContainerApplets.Proofs.Merge.Unification

/-!
A table that fragments merge into can be invoked. Overrides leave the hooks of the table alone, so
only a hook that they add can close a cycle, be reached a second time or be unknown.
-/

namespace ContainerApplets

theorem mem_add_hooks {hooks more : List String} {hook : String} :
    hook ∈ addHooks hooks more ↔ hook ∈ hooks ∨ hook ∈ more := by
  induction more generalizing hooks with
  | nil => simp [addHooks]
  | cons first rest induction =>
      change hook ∈ addHooks (if first ∈ hooks then hooks else hooks ++ [first]) rest ↔ _
      rw [induction, List.mem_cons]
      by_cases known : first ∈ hooks
      · rw [if_pos known]
        constructor
        · intro either
          rcases either with present | later
          · exact .inl present
          · exact .inr (.inr later)
        · intro either
          rcases either with present | rfl | later
          · exact .inl present
          · exact .inl known
          · exact .inr later
      · rw [if_neg known, List.mem_append, List.mem_singleton, or_assoc]

theorem add_hooks_of_subset {hooks more : List String} (known : ∀ hook ∈ more, hook ∈ hooks) :
    addHooks hooks more = hooks := by
  induction more with
  | nil => rfl
  | cons first rest induction =>
      have firstKnown := known first (by simp)
      change addHooks (if first ∈ hooks then hooks else hooks ++ [first]) rest = hooks
      rw [if_pos firstKnown]
      exact induction fun hook member => known hook (List.mem_cons_of_mem _ member)

namespace AppletTable

variable {table : AppletTable} {name separator : String} {arguments : List String}
  {options : RunOptions} {base : Applet} {overrides : Overrides}

theorem prepare_eq (present : table.get? name = some base)
    (parsed : Overrides.ofFlags name (splitArguments separator arguments).flags = .ok overrides)
    (imaged : (overrides.apply base).image ≠ "") :
    table.prepare name arguments separator options =
      Outcome.ofResult (table.plan (overrides.apply base)
        (splitArguments separator arguments).extra options) := by
  have checked : checkOverridden name (overrides.apply base) = .ok () := by
    unfold checkOverridden
    simp [imaged]
  simp only [prepare, named, present, parsed, Outcome.ofResult, Outcome.ofUsage, ok_bind, checked]

theorem plan_eq_ok {root : Applet} {extra : List String} (once : table.UnfoldsOnce root) :
    ∃ commands, table.plan root extra options = .ok commands := by
  obtain ⟨last, walked⟩ := once.walk_ok
  rw [plan, closure, walked]
  exact ⟨_, rfl⟩

theorem plan_error {root : Applet} {extra : List String} {failure : Failure}
    (refused : table.plan root extra options = .error failure) :
    table.walk root = .error failure := by
  rw [plan, closure] at refused
  cases walked : table.walk root with
  | ok last =>
      rw [walked] at refused
      cases refused
  | error other =>
      rw [walked] at refused
      cases refused
      rfl

/-- In an accepted table a hook that is not found is one of the root's own. -/
theorem missing_hook_of_root (accepted : table.validate = .ok ()) {root applet : Applet}
    {path : List HookPosition} {side : HookSide} {hook : String}
    (follows : table.follow root path = some applet) (listed : hook ∈ applet.hooks side)
    (absent : table.get? hook = none) : applet = root := by
  cases path with
  | nil => exact (Option.some.inj follows).symm
  | cons position rest =>
      simp only [follow, target?, Option.bind_eq_some_iff] at follows
      obtain ⟨target, ⟨name, _, found⟩, along⟩ := follows
      have member := mem_values_of_follow (mem_values_of_get found) along
      obtain ⟨present, stands⟩ :=
        (validate_eq_ok_iff.mp accepted applet member).hooks_found side listed
      rw [absent] at stands
      cases stands

/-- A merged table can be invoked with any arguments that parse and leave an image. If the hooks
that are asked for are configured already, commands come out; if not, one of them closes a cycle, or
one of them is unknown. -/
theorem merged_table_invocable {fragments : List Fragment}
    (merged : merge fragments = .ok table) (present : table.get? name = some base)
    (parsed : Overrides.ofFlags name (splitArguments separator arguments).flags = .ok overrides)
    (imaged : (overrides.apply base).image ≠ "") :
    ((∀ side, ∀ hook ∈ overrides.hooks side, hook ∈ base.hooks side) →
      ∃ commands, table.prepare name arguments separator options = .ok commands) ∧
    (∀ refusal, table.prepare name arguments separator options = .error refusal →
      (∃ applet, refusal = .ofFailure (.cycle applet)) ∨
      ∃ side hook, refusal = .ofFailure (.missingHook side hook name) ∧
        hook ∈ overrides.hooks side ∧ table.get? hook = none) := by
  obtain ⟨keyed, accepted⟩ := merge_accepted merged
  have once := validate_eq_ok_iff.mp accepted base (mem_values_of_get present)
  rw [prepare_eq present parsed imaged]
  constructor
  · intro configured
    have hooks : (overrides.apply base).hooks = base.hooks := by
      funext side
      exact add_hooks_of_subset (configured side)
    have copied : table.UnfoldsOnce (overrides.apply base) := once.copy rfl hooks
    obtain ⟨commands, planned⟩ := plan_eq_ok copied
    exact ⟨commands, by rw [planned, Outcome.ofResult]⟩
  · intro refusal refused
    cases planned : table.plan (overrides.apply base) (splitArguments separator arguments).extra
        options with
    | ok commands =>
        rw [planned] at refused
        cases refused
    | error failure =>
        rw [planned] at refused
        cases refused
        rcases walk_error (plan_error planned) with
          ⟨applet, rfl, _⟩ | ⟨side, hook, path, applet, rfl, follows, listed, absent⟩
        · exact .inl ⟨applet, rfl⟩
        · have root := missing_hook_of_root accepted follows listed absent
          subst root
          have referrer : (overrides.apply base).appletName = name := keyed name base present
          have added : hook ∈ overrides.hooks side := by
            rcases mem_add_hooks.mp listed with configured | added
            · obtain ⟨target, found⟩ := once.hooks_found side configured
              exact nomatch absent.symm.trans found
            · exact added
          exact .inr ⟨side, hook, by rw [referrer], added, absent⟩

/-- A web server that a database runs before. -/
def served : List Fragment :=
  let imaged (image : String) (before : List String) : AppletFragment :=
    { AppletFragment.unset with
      text := fun field => if field = .image then some image else none
      hooks := fun
        | .before => before
        | .after => [] }
  let only (name : String) (entry : AppletFragment) : FragmentDocument :=
    { FragmentDocument.empty with applets := Catalog.empty.insert name entry }
  [⟨"base", only "db" (imaged "postgres" [])⟩, ⟨"site", only "web" (imaged "nginx" ["db"])⟩]

def servedTable : AppletTable :=
  match merge served with
  | .ok table => table
  | .error _ => .empty

theorem served_table_invocable :
    merge served = .ok servedTable ∧
    ∃ commands, servedTable.prepare "web" ["--before-hook", "db", "--", "sh"] "--"
      ⟨"docker", true, .replace⟩ = .ok commands := by
  have merged : merge served = .ok servedTable := by rfl
  let web := (servedTable.get? "web").getD (.bare "web")
  have present : servedTable.get? "web" = some web := by rfl
  let again := Overrides.none.addHook .before "db"
  have parsed : Overrides.ofFlags "web"
      (splitArguments "--" ["--before-hook", "db", "--", "sh"]).flags = .ok again := by rfl
  have imaged : (again.apply web).image ≠ "" := by decide
  have configured : ∀ side, ∀ hook ∈ again.hooks side, hook ∈ web.hooks side := by
    intro side
    cases side <;> decide
  exact ⟨merged, (merged_table_invocable merged present parsed imaged).1 configured⟩

end AppletTable

end ContainerApplets
