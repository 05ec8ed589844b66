import ContainerApplets.HookWalk
import ContainerApplets.Proofs.Checked
import Mathlib.Data.Finset.Card
import Mathlib.Data.List.Dedup

/-!
The walk along the hooks as a relation that knows no bound on its depth. A run of the relation is
finite by its nature; that `AppletTable.walk` is one shows that the walk ends on every table, cyclic
or not, and that its bound is never what stops it.
-/

namespace ContainerApplets

/-- What is left to do: to visit an applet, or to follow hooks that it lists on one side. -/
inductive Errand
  | visit (applet : Applet)
  | hooks (referrer : Applet) (side : HookSide) (names : List String)

namespace AppletTable

/-- `table.Runs errand walk outcome`: the errand, begun with this much walked, has this outcome. -/
inductive Runs (table : AppletTable) : Errand → Walk → Except Failure Walk → Prop
  | again {applet : Applet} {walk : Walk} (entered : applet.appletName ∈ walk.entered) :
      Runs table (.visit applet) walk (.error (.cycle applet.appletName))
  | failsBefore {applet : Applet} {walk : Walk} {failure : Failure}
      (fresh : applet.appletName ∉ walk.entered)
      (before : Runs table (.hooks applet .before (applet.hooks .before))
        (walk.enter applet.appletName) (.error failure)) :
      Runs table (.visit applet) walk (.error failure)
  | passes {applet : Applet} {walk between : Walk} {outcome : Except Failure Walk}
      (fresh : applet.appletName ∉ walk.entered)
      (before : Runs table (.hooks applet .before (applet.hooks .before))
        (walk.enter applet.appletName) (.ok between))
      (after : Runs table (.hooks applet .after (applet.hooks .after))
        (between.note applet) outcome) :
      Runs table (.visit applet) walk outcome
  | done {referrer : Applet} {side : HookSide} {walk : Walk} :
      Runs table (.hooks referrer side []) walk (.ok walk)
  | missing {referrer : Applet} {side : HookSide} {name : String} {rest : List String}
      {walk : Walk} (absent : table.get? name = none) :
      Runs table (.hooks referrer side (name :: rest)) walk
        (.error (.missingHook side name referrer.appletName))
  | targetFails {referrer target : Applet} {side : HookSide} {name : String} {rest : List String}
      {walk : Walk} {failure : Failure} (found : table.get? name = some target)
      (visit : Runs table (.visit target) walk (.error failure)) :
      Runs table (.hooks referrer side (name :: rest)) walk (.error failure)
  | next {referrer target : Applet} {side : HookSide} {name : String} {rest : List String}
      {walk between : Walk} {outcome : Except Failure Walk}
      (found : table.get? name = some target)
      (visit : Runs table (.visit target) walk (.ok between))
      (later : Runs table (.hooks referrer side rest) between outcome) :
      Runs table (.hooks referrer side (name :: rest)) walk outcome

variable {table : AppletTable}

theorem Runs.unique {errand : Errand} {walk : Walk} {left right : Except Failure Walk}
    (first : table.Runs errand walk left) (second : table.Runs errand walk right) :
    left = right := by
  induction first generalizing right with
  | again entered =>
      cases second with
      | again _ => rfl
      | failsBefore fresh _ => exact absurd entered fresh
      | passes fresh _ _ => exact absurd entered fresh
  | failsBefore fresh _ before =>
      cases second with
      | again entered => exact absurd entered fresh
      | failsBefore _ other => exact before other
      | passes _ other _ => exact nomatch before other
  | passes fresh _ _ before after =>
      cases second with
      | again entered => exact absurd entered fresh
      | failsBefore _ other => exact nomatch before other
      | passes _ other later =>
          cases before other
          exact after later
  | done => cases second with | done => rfl
  | missing absent =>
      cases second with
      | missing _ => rfl
      | targetFails found _ => simp [absent] at found
      | next found _ _ => simp [absent] at found
  | targetFails found _ visit =>
      cases second with
      | missing absent => simp [absent] at found
      | targetFails same other =>
          cases found.symm.trans same
          exact visit other
      | next same other _ =>
          cases found.symm.trans same
          exact nomatch visit other
  | next found _ _ visit later =>
      cases second with
      | missing absent => simp [absent] at found
      | targetFails same other =>
          cases found.symm.trans same
          exact nomatch visit other
      | next same other last =>
          cases found.symm.trans same
          cases visit other
          exact later last

theorem Runs.entered_subset {errand : Errand} {walk : Walk} {outcome : Except Failure Walk}
    (run : table.Runs errand walk outcome) {last : Walk} (ends : outcome = .ok last) :
    walk.entered ⊆ last.entered := by
  induction run generalizing last with
  | again _ => cases ends
  | failsBefore _ _ _ => cases ends
  | passes _ _ _ before after =>
      intro name member
      exact after ends (before rfl (List.mem_cons_of_mem _ member))
  | done =>
      cases ends
      exact List.Subset.refl _
  | missing _ => cases ends
  | targetFails _ _ _ => cases ends
  | next _ _ _ visit later => exact List.Subset.trans (visit rfl) (later ends)

/-! ### The bound on the depth -/

/-- The names of applets of the table that have not been entered. -/
def unentered (table : AppletTable) (walk : Walk) : Finset String :=
  (table.applets.values.map Applet.appletName).toFinset \ walk.entered.toFinset

theorem unentered_start_card (table : AppletTable) :
    (table.unentered .start).card ≤ table.applets.size := by
  have bound := List.toFinset_card_le (table.applets.values.map Applet.appletName)
  simpa [unentered, Walk.start, Catalog.values, Catalog.size] using bound

theorem unentered_card_le {walk last : Walk} (grows : walk.entered ⊆ last.entered) :
    (table.unentered last).card ≤ (table.unentered walk).card := by
  apply Finset.card_le_card
  apply Finset.sdiff_subset_sdiff (Finset.Subset.refl _)
  intro name member
  exact List.mem_toFinset.mpr (grows (List.mem_toFinset.mp member))

/-- Entering an applet of the table uses up one unit of depth. -/
theorem unentered_enter_card_lt {walk : Walk} {applet : Applet}
    (member : applet ∈ table.applets.values) (fresh : applet.appletName ∉ walk.entered) :
    (table.unentered (walk.enter applet.appletName)).card < (table.unentered walk).card := by
  apply Finset.card_lt_card
  refine Finset.ssubset_iff_subset_ne.mpr ⟨?_, ?_⟩
  · intro name left
    simp only [unentered, Walk.enter, Finset.mem_sdiff, List.mem_toFinset, List.mem_cons,
      not_or] at left ⊢
    exact ⟨left.1, left.2.2⟩
  · intro same
    have before : applet.appletName ∈ table.unentered walk := by
      simp only [unentered, Finset.mem_sdiff, List.mem_toFinset]
      exact ⟨List.mem_map_of_mem member, fresh⟩
    rw [← same] at before
    simp [unentered, Walk.enter] at before

/-- Following hooks is a run if visiting each target is one. -/
theorem runs_hooks {depth : Nat}
    (visits : ∀ target ∈ table.applets.values, ∀ walk, (table.unentered walk).card ≤ depth →
      table.Runs (.visit target) walk (table.visit depth target walk))
    (referrer : Applet) (side : HookSide) (names : List String) (walk : Walk)
    (room : (table.unentered walk).card ≤ depth) :
    table.Runs (.hooks referrer side names) walk (names.foldlM (fun walk name => do
      let target ← table.hook referrer side name
      table.visit depth target walk) walk) := by
  induction names generalizing walk with
  | nil => exact .done
  | cons name rest induction =>
      rw [List.foldlM_cons, hook]
      cases found : table.get? name with
      | none => exact .missing found
      | some target =>
          have visited := visits target (Catalog.mem_values.mpr ⟨name, found⟩) walk room
          rw [ok_bind]
          cases outcome : table.visit depth target walk with
          | error failure =>
              rw [outcome] at visited
              exact .targetFails found visited
          | ok between =>
              rw [outcome] at visited
              have roomLeft := (unentered_card_le (visited.entered_subset rfl)).trans room
              exact .next found visited (induction between roomLeft)

theorem runs_visit_succ {depth : Nat}
    (visits : ∀ target ∈ table.applets.values, ∀ walk, (table.unentered walk).card ≤ depth →
      table.Runs (.visit target) walk (table.visit depth target walk))
    (applet : Applet) (walk : Walk)
    (room : applet.appletName ∉ walk.entered →
      (table.unentered (walk.enter applet.appletName)).card ≤ depth) :
    table.Runs (.visit applet) walk (table.visit (depth + 1) applet walk) := by
  rw [visit]
  split
  · next entered => exact .again entered
  · next fresh =>
    have before := runs_hooks visits applet .before (applet.hooks .before) _ (room fresh)
    dsimp only
    cases outcome : (applet.hooks .before).foldlM (fun walk name => do
        let target ← table.hook applet .before name
        table.visit depth target walk) (walk.enter applet.appletName) with
    | error failure =>
        rw [outcome] at before
        exact .failsBefore fresh before
    | ok between =>
        rw [outcome] at before
        have roomLeft := (unentered_card_le (before.entered_subset rfl)).trans (room fresh)
        have after := runs_hooks visits applet .after (applet.hooks .after)
          (between.note applet) roomLeft
        exact .passes fresh before after

/-- While as many levels are left as names of the table are unentered, a visit is a run. -/
theorem runs_visit (depth : Nat) :
    ∀ target ∈ table.applets.values, ∀ walk, (table.unentered walk).card ≤ depth →
      table.Runs (.visit target) walk (table.visit depth target walk) := by
  induction depth with
  | zero =>
      intro target member walk room
      -- No name of the table is left to enter, so the target has been entered.
      apply Runs.again
      by_contra fresh
      have shrinks := unentered_enter_card_lt member fresh
      omega
  | succ depth induction =>
      intro target member walk room
      apply runs_visit_succ induction
      intro fresh
      have shrinks := unentered_enter_card_lt member fresh
      omega

/-- The root need not be an applet of the table. -/
theorem runs_walk (table : AppletTable) (root : Applet) :
    table.Runs (.visit root) .start (table.walk root) := by
  apply runs_visit_succ (runs_visit table.applets.size)
  intro _
  have grows : Walk.start.entered ⊆ (Walk.start.enter root.appletName).entered :=
    List.subset_cons_self _ _
  exact (unentered_card_le grows).trans table.unentered_start_card

theorem walk_eq_iff_runs {root : Applet} {outcome : Except Failure Walk} :
    table.walk root = outcome ↔ table.Runs (.visit root) .start outcome := by
  constructor
  · intro same
    exact same ▸ runs_walk table root
  · intro run
    exact (runs_walk table root).unique run

end AppletTable

end ContainerApplets
