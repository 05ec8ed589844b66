import ContainerApplets.Overrides.Basic
import ContainerApplets.Proofs.Hooks.Transfer
import ContainerApplets.Proofs.Invocation

/-!
Overrides as one more fragment. Where the fragments have left a setting open, giving it at the
invocation and writing it into a further fragment come to the same applet and to the same plan.
-/

namespace ContainerApplets

namespace Overrides

/-- An entry that sets exactly what is given. -/
def entry (overrides : Overrides) : AppletFragment where
  appletName := Option.none
  text := overrides.text
  switch := overrides.switch
  list := overrides.list
  hooks := overrides.hooks
  command := Option.none

/-- A fragment with nothing but these settings for one applet. -/
def fragment (overrides : Overrides) (origin name : String) : Fragment :=
  ⟨origin, .ofApplet name overrides.entry⟩

/-- The single values that are given are set by none of the entries. -/
structure Opens (overrides : Overrides) (entries : List AppletFragment) : Prop where
  text : ∀ field, overrides.text field ≠ Option.none →
    ∀ entry ∈ entries, entry.text field = Option.none
  switch : ∀ field, overrides.switch field ≠ Option.none →
    ∀ entry ∈ entries, entry.switch field = Option.none

end Overrides

section Settings

variable {Value : Type} {settings : List (Option Value)} {default value : Value}

/-- A value that is given where none is set takes the place of the default. -/
theorem IsCommon.given (common : IsCommon settings default value) {given : Option Value}
    (opens : given ≠ none → ∀ setting ∈ settings, setting = none) :
    IsCommon (settings ++ [given]) default (given.getD value) := by
  cases given with
  | none =>
      constructor
      · intro set member
        rcases List.mem_append.mp member with earlier | last
        · exact common.1 set earlier
        · simp at last
      · intro unset
        exact common.2 fun setting member => unset setting (List.mem_append_left _ member)
  | some given =>
      have unset := opens (by simp)
      constructor
      · intro set member
        rcases List.mem_append.mp member with earlier | last
        · exact nomatch unset _ earlier
        · exact (Option.some.inj (List.mem_singleton.mp last)).symm
      · intro none
        exact nomatch none (some given) (by simp)

end Settings

/-- With one more entry the union of the others is overridden. -/
theorem AppletUnion.override {key : String} {entries : List AppletFragment} {applet : Applet}
    (union : AppletUnion key entries applet) {overrides : Overrides}
    (opens : overrides.Opens entries) :
    AppletUnion key (entries ++ [overrides.entry]) (overrides.apply applet) where
  named := union.named
  text := fun field => by
    rw [List.map_append]
    exact (union.text field).given fun given => by simpa using opens.text field given
  switch := fun field => by
    rw [List.map_append]
    exact (union.switch field).given fun given => by simpa using opens.switch field given
  command := by
    rw [List.map_append]
    exact union.command.given fun given => absurd rfl given
  list := fun field => by
    simp [Overrides.apply, Overrides.entry, union.list field]
  hooks := fun side => by
    simp only [Overrides.apply, Overrides.entry, union.hooks side, add_hooks_erase_dups,
      List.flatMap_append, List.flatMap_cons, List.flatMap_nil, List.append_nil]

section Fragments

variable {fragments : List Fragment} {table other : AppletTable} {name origin : String}
  {base : Applet} {overrides : Overrides}

/-- A fragment that says nothing in a part leaves the union of that part as it is. -/
theorem CatalogUnion.append_silent {Entry Record : Type}
    {part : FragmentDocument → Catalog Entry} {union : String → List Entry → Record → Prop}
    {catalog : Catalog Record} (united : CatalogUnion part union fragments catalog)
    {fragment : Fragment} (silent : part fragment.document = .empty) :
    CatalogUnion part union (fragments ++ [fragment]) catalog where
  names := fun key => by
    rw [united.names]
    simp [or_and_right, exists_or, silent, Catalog.empty, Catalog.names]
  records := fun key record found => by
    rw [Absorption.entries_of_append, silent]
    exact (List.append_nil _).symm ▸ united.records key record found

theorem names_of_applet (name : String) (entry : AppletFragment) (key : String) :
    key ∈ (FragmentDocument.ofApplet name entry).applets.names ↔ key = name := by
  change key ∈ (Catalog.empty.insert name entry).names ↔ _
  rw [Catalog.mem_names, Catalog.get_insert]
  by_cases same : key = name
  · simp [same]
  · simp [same, Catalog.get?, Catalog.empty, findEntry]

theorem entries_of_fragment (key : String) :
    entriesOf FragmentDocument.applets (fragments ++ [overrides.fragment origin name]) key =
      entriesOf FragmentDocument.applets fragments key ++
        if key = name then [overrides.entry] else [] := by
  have found : findEntry key (overrides.fragment origin name).document.applets.entries =
      if key = name then some overrides.entry else none :=
    Catalog.get_insert .empty name key overrides.entry
  rw [Absorption.entries_of_append, found]
  by_cases same : key = name <;> simp [same]

/-- The further fragment changes the record of its applet and nothing else. -/
theorem TableUnion.override (union : TableUnion fragments table)
    (present : table.get? name = some base)
    (opens : overrides.Opens (entriesOf FragmentDocument.applets fragments name)) :
    TableUnion (fragments ++ [overrides.fragment origin name])
      { table with applets := table.applets.insert name (overrides.apply base) } where
  applets := by
    constructor
    · intro key
      have kept : key ∈ (table.applets.insert name (overrides.apply base)).names ↔
          key ∈ table.applets.names ∨ key = name := by
        rw [Catalog.mem_names, Catalog.mem_names, Catalog.get_insert]
        by_cases same : key = name <;> simp [same]
      rw [kept, union.applets.names]
      simp only [List.mem_append, List.mem_singleton, or_and_right, exists_or, exists_eq_left]
      exact or_congr_right (names_of_applet name overrides.entry key).symm
    · intro key record found
      rw [entries_of_fragment]
      rw [Catalog.get_insert] at found
      by_cases same : key = name
      · rw [if_pos same] at found ⊢
        cases found
        subst same
        exact (union.applets.records key base present).override opens
      · rw [if_neg same] at found ⊢
        rw [List.append_nil]
        exact union.applets.records key record found
  volumes := union.volumes.append_silent rfl
  networks := union.networks.append_silent rfl
  ignored := fun key => by
    rw [union.ignored]
    simp [or_and_right, exists_or, Overrides.fragment, FragmentDocument.ofApplet,
      FragmentDocument.empty]

/-- Overrides of settings that the fragments leave open act as one more fragment would that sets
them. If it can be merged, it changes the record of the applet to the overridden one and nothing
else, and the overridden applet has a plan, the same without the fragment as with it. -/
theorem overrides_act_as_fragment (merged : merge fragments = .ok table)
    (present : table.get? name = some base)
    (opens : overrides.Opens (entriesOf FragmentDocument.applets fragments name))
    (extended : merge (fragments ++ [overrides.fragment origin name]) = .ok other) :
    other = { table with applets := table.applets.insert name (overrides.apply base) } ∧
    other.get? name = some (overrides.apply base) ∧
    ∀ extra options, ∃ commands,
      other.plan (overrides.apply base) extra options = .ok commands ∧
      table.plan (overrides.apply base) extra options = .ok commands := by
  have described : TableUnion (fragments ++ [overrides.fragment origin name])
      { table with applets := table.applets.insert name (overrides.apply base) } :=
    (merged_union merged).2.override present opens
  have same := (merged_union extended).2.unique described
  have found : other.get? name = some (overrides.apply base) := by
    rw [same]
    exact (Catalog.get_insert _ _ _ _).trans (if_pos rfl)
  obtain ⟨keyed, accepted⟩ := merge_accepted extended
  have once := AppletTable.validate_eq_ok_iff.mp accepted _ (AppletTable.mem_values_of_get found)
  have alike : AppletTable.AlikeBut (overrides.apply base).appletName other table := by
    intro key different
    rw [keyed name _ found] at different
    rw [same]
    exact ((Catalog.get_insert _ _ _ _).trans (if_neg different)).symm
  have resources : table.resourceCommands = other.resourceCommands := by
    rw [same]
    rfl
  refine ⟨same, found, ?_⟩
  intro extra options
  obtain ⟨commands, planned⟩ :
      ∃ commands, other.plan (overrides.apply base) extra options = .ok commands :=
    AppletTable.plan_eq_ok once
  refine ⟨commands, planned, ?_⟩
  rw [AppletTable.plan, alike.closure_eq keyed once, resources]
  exact planned

/-- A database runs before a web server, which listens on one port. -/
def listening : List Fragment :=
  let listens (entry : AppletFragment) : AppletFragment :=
    { entry with list := fun field => if field = .ports then ["80:80"] else [] }
  [⟨"base", .ofApplet "db" (.ofImage "postgres" [])⟩,
    ⟨"log", .ofApplet "log" (.ofImage "fluentd" [])⟩,
    ⟨"site", .ofApplet "web" (listens (.ofImage "nginx" ["db"]))⟩]

/-- Another port, a working directory, no removal, and two hooks, of which one is there already. -/
def secured : Overrides where
  text := fun field => if field = .workDir then some "/srv" else none
  switch := fun field => if field = .rm then some false else none
  list := fun field => if field = .ports then ["443:443"] else []
  hooks := fun side => if side = .before then ["db", "log"] else []

theorem secured_acts_as_fragment :
    let web := (mergedTable listening).applets.get? "web" |>.getD (.bare "web")
    let further := listening ++ [secured.fragment "<invocation>" "web"]
    merge listening = .ok (mergedTable listening) ∧
    (mergedTable listening).get? "web" = some web ∧
    secured.Opens (entriesOf FragmentDocument.applets listening "web") ∧
    merge further = .ok (mergedTable further) ∧
    (mergedTable further).get? "web" = some (secured.apply web) ∧
    (secured.apply web).hooks .before = ["db", "log"] ∧
    ∀ extra options, (mergedTable listening).plan (secured.apply web) extra options =
      (mergedTable further).plan (secured.apply web) extra options := by
  intro web further
  have merged : merge listening = .ok (mergedTable listening) := by rfl
  have present : (mergedTable listening).get? "web" = some web := by rfl
  have opens : secured.Opens (entriesOf FragmentDocument.applets listening "web") := by
    constructor
    · intro field given
      by_cases same : field = .workDir
      · subst same
        decide
      · exact absurd (if_neg same) given
    · intro field given
      by_cases same : field = .rm
      · subst same
        decide
      · exact absurd (if_neg same) given
  have extended : merge further = .ok (mergedTable further) := by rfl
  obtain ⟨_, found, plans⟩ := overrides_act_as_fragment merged present opens extended
  refine ⟨merged, present, opens, extended, found, by decide, ?_⟩
  intro extra options
  obtain ⟨commands, planned, same⟩ := plans extra options
  exact same.trans planned.symm

end Fragments

end ContainerApplets
