import ContainerApplets.Proofs.Hooks.Transfer
import ContainerApplets.Proofs.Merge.Unification

/-!
Configurations that share no name. However their fragments are interleaved, they merge into the
union of the two tables, and an applet runs in the union what it runs in its own table.
-/

namespace ContainerApplets

/-- A list made of two others, each of which keeps its order. -/
inductive Interleaving {Item : Type} : List Item → List Item → List Item → Prop
  | nil : Interleaving [] [] []
  | left (item : Item) {first second all : List Item} (rest : Interleaving first second all) :
      Interleaving (item :: first) second (item :: all)
  | right (item : Item) {first second all : List Item} (rest : Interleaving first second all) :
      Interleaving first (item :: second) (item :: all)

namespace Interleaving

variable {Item Other : Type} {first second all : List Item}

theorem symm (interleaved : Interleaving first second all) : Interleaving second first all := by
  induction interleaved with
  | nil => exact .nil
  | left item _ rest => exact .right item rest
  | right item _ rest => exact .left item rest

theorem mem_iff (interleaved : Interleaving first second all) {item : Item} :
    item ∈ all ↔ item ∈ first ∨ item ∈ second := by
  induction interleaved with
  | nil => simp
  | left other _ rest => rw [List.mem_cons, List.mem_cons, rest, or_assoc]
  | right other _ rest => rw [List.mem_cons, List.mem_cons, rest, or_left_comm]

theorem filter_map (interleaved : Interleaving first second all) (choose : Item → Option Other) :
    Interleaving (first.filterMap choose) (second.filterMap choose) (all.filterMap choose) := by
  induction interleaved with
  | nil => exact .nil
  | left item _ rest =>
      rw [List.filterMap_cons, List.filterMap_cons]
      cases choose item with
      | none => exact rest
      | some chosen => exact .left chosen rest
  | right item _ rest =>
      rw [List.filterMap_cons, List.filterMap_cons]
      cases choose item with
      | none => exact rest
      | some chosen => exact .right chosen rest

theorem eq_of_left_nil (interleaved : Interleaving [] second all) : all = second := by
  induction second generalizing all with
  | nil => cases interleaved with | nil => rfl
  | cons item rest induction =>
      cases interleaved with
      | right _ further => rw [induction further]

end Interleaving

/-! ### Fragments -/

/-- The tables have no name of one kind in common. -/
structure AppletTable.Apart (first second : AppletTable) : Prop where
  applets : first.applets.names.Disjoint second.applets.names
  volumes : first.volumes.names.Disjoint second.volumes.names
  networks : first.networks.names.Disjoint second.networks.names

def AppletTable.union (first second : AppletTable) : AppletTable where
  applets := first.applets.union second.applets
  volumes := first.volumes.union second.volumes
  networks := first.networks.union second.networks
  ignored := first.ignored.union second.ignored

section Catalogs

variable {Entry Record : Type} {part : FragmentDocument → Catalog Entry}
  {union : String → List Entry → Record → Prop} {first second all : List Fragment}
  {firstCatalog secondCatalog : Catalog Record}

theorem CatalogUnion.entries_of_absent (united : CatalogUnion part union first firstCatalog)
    {key : String} (absent : key ∉ firstCatalog.names) : entriesOf part first key = [] := by
  by_contra mentioned
  exact absent ((united.names key).mpr (entries_of_ne_nil.mp mentioned))

theorem Interleaving.entries_of_right (interleaved : Interleaving first second all) {key : String}
    (unmentioned : entriesOf part first key = []) :
    entriesOf part all key = entriesOf part second key := by
  have chosen := interleaved.filter_map fun fragment => (part fragment.document).get? key
  change Interleaving (entriesOf part first key) (entriesOf part second key)
    (entriesOf part all key) at chosen
  rw [unmentioned] at chosen
  exact chosen.eq_of_left_nil

/-- What all fragments say about a name is what one of the two lists says about it. -/
theorem Interleaving.entries_of_apart (interleaved : Interleaving first second all)
    (firstUnited : CatalogUnion part union first firstCatalog)
    (secondUnited : CatalogUnion part union second secondCatalog)
    (apart : firstCatalog.names.Disjoint secondCatalog.names) (key : String) :
    entriesOf part all key = entriesOf part first key ∨
      entriesOf part all key = entriesOf part second key := by
  by_cases present : key ∈ firstCatalog.names
  · exact .inl (interleaved.symm.entries_of_right (secondUnited.entries_of_absent (apart present)))
  · exact .inr (interleaved.entries_of_right (firstUnited.entries_of_absent present))

theorem CatalogUnion.interleaved (interleaved : Interleaving first second all)
    (firstUnited : CatalogUnion part union first firstCatalog)
    (secondUnited : CatalogUnion part union second secondCatalog)
    (apart : firstCatalog.names.Disjoint secondCatalog.names) :
    CatalogUnion part union all (firstCatalog.union secondCatalog) where
  names := fun key => by
    simp only [Catalog.mem_union_names, firstUnited.names, secondUnited.names, interleaved.mem_iff,
      or_and_right, exists_or]
  records := fun key record found => by
    rw [Catalog.get_union, Option.or_eq_some_iff] at found
    rcases found with here | ⟨absent, there⟩
    · have known : key ∈ firstCatalog.names := Catalog.mem_names.mpr ⟨record, here⟩
      rw [interleaved.symm.entries_of_right (secondUnited.entries_of_absent (apart known))]
      exact firstUnited.records key record here
    · have unknown : key ∉ firstCatalog.names := by simp [Catalog.mem_names, absent]
      rw [interleaved.entries_of_right (firstUnited.entries_of_absent unknown)]
      exact secondUnited.records key record there

end Catalogs

section Tables

variable {first second all : List Fragment} {firstTable secondTable : AppletTable}

theorem TableUnion.interleaved (interleaved : Interleaving first second all)
    (apart : firstTable.Apart secondTable) (firstUnion : TableUnion first firstTable)
    (secondUnion : TableUnion second secondTable) :
    TableUnion all (firstTable.union secondTable) where
  applets := firstUnion.applets.interleaved interleaved secondUnion.applets apart.applets
  volumes := firstUnion.volumes.interleaved interleaved secondUnion.volumes apart.volumes
  networks := firstUnion.networks.interleaved interleaved secondUnion.networks apart.networks
  ignored := fun name => by
    change name ∈ (firstTable.ignored.union secondTable.ignored).names ↔ _
    simp only [Catalog.mem_union_names, firstUnion.ignored, secondUnion.ignored,
      interleaved.mem_iff, or_and_right, exists_or]

theorem Unifiable.interleaved (interleaved : Interleaving first second all)
    (apart : firstTable.Apart secondTable) (firstUnion : TableUnion first firstTable)
    (secondUnion : TableUnion second secondTable) (firstUnifiable : Unifiable first)
    (secondUnifiable : Unifiable second) : Unifiable all := by
  have applets := interleaved.entries_of_apart firstUnion.applets secondUnion.applets apart.applets
  have volumes := interleaved.entries_of_apart firstUnion.volumes secondUnion.volumes apart.volumes
  have networks :=
    interleaved.entries_of_apart firstUnion.networks secondUnion.networks apart.networks
  constructor
  · intro key
    rcases applets key with same | same <;> rw [same]
    · exact firstUnifiable.applets key
    · exact secondUnifiable.applets key
  · intro key
    rcases applets key with same | same <;> rw [same]
    · exact firstUnifiable.images key
    · exact secondUnifiable.images key
  · intro key
    rcases volumes key with same | same <;> rw [same]
    · exact firstUnifiable.volumes key
    · exact secondUnifiable.volumes key
  · intro key
    rcases networks key with same | same <;> rw [same]
    · exact firstUnifiable.networks key
    · exact secondUnifiable.networks key

end Tables

/-! ### Hooks -/

namespace AppletTable

variable {first second : AppletTable}

theorem included_in_union_left (first second : AppletTable) :
    first.IncludedIn (first.union second) := by
  intro name applet found
  change (first.applets.union second.applets).get? name = some applet
  rw [Catalog.get_union, show first.applets.get? name = some applet from found, Option.some_or]

theorem Apart.included_in_union_right (apart : first.Apart second) :
    second.IncludedIn (first.union second) := by
  intro name applet found
  have present : second.applets.get? name = some applet := found
  have absent : first.applets.get? name = none := by
    by_contra known
    exact apart.applets (Catalog.mem_names.mpr (Option.ne_none_iff_exists'.mp known))
      (Catalog.mem_names.mpr ⟨applet, present⟩)
  change (first.applets.union second.applets).get? name = some applet
  rw [Catalog.get_union, absent, Option.none_or, present]

theorem Apart.union_accepted (apart : first.Apart second) (firstAccepted : first.validate = .ok ())
    (secondAccepted : second.validate = .ok ()) : (first.union second).validate = .ok () := by
  refine validate_eq_ok_iff.mpr fun applet member => ?_
  obtain ⟨name, found⟩ := Catalog.mem_values.mp member
  change (first.applets.union second.applets).get? name = some applet at found
  rw [Catalog.get_union, Option.or_eq_some_iff] at found
  rcases found with here | ⟨_, there⟩
  · have once := validate_eq_ok_iff.mp firstAccepted applet (mem_values_of_get here)
    exact (included_in_union_left first second).unfolds_once once
  · have once := validate_eq_ok_iff.mp secondAccepted applet (mem_values_of_get there)
    exact apart.included_in_union_right.unfolds_once once

/-- The applets of this table run in the other one what they run here. -/
def RunsAlikeIn (table other : AppletTable) : Prop :=
  ∀ applet ∈ table.applets.values,
    other.closure applet = table.closure applet ∧
    ∀ extra options, other.resolve applet extra options = table.resolve applet extra options

theorem IncludedIn.runs_alike (included : first.IncludedIn second)
    (accepted : first.validate = .ok ()) : first.RunsAlikeIn second := by
  intro applet member
  have once := validate_eq_ok_iff.mp accepted applet member
  exact ⟨included.closure_eq once, included.resolve_eq once⟩

end AppletTable

/-- Configurations that merge and share no name merge, however they are interleaved, into the union
of their tables, where the applets of each run what they run without the other. -/
theorem independent_merge_union {first second all : List Fragment}
    {firstTable secondTable : AppletTable} (firstMerged : merge first = .ok firstTable)
    (secondMerged : merge second = .ok secondTable) (apart : firstTable.Apart secondTable)
    (interleaved : Interleaving first second all) :
    merge all = .ok (firstTable.union secondTable) ∧
    firstTable.RunsAlikeIn (firstTable.union secondTable) ∧
    secondTable.RunsAlikeIn (firstTable.union secondTable) := by
  obtain ⟨firstUnifiable, firstUnion⟩ := merged_union firstMerged
  obtain ⟨secondUnifiable, secondUnion⟩ := merged_union secondMerged
  have firstAccepted := (merge_accepted firstMerged).2
  have secondAccepted := (merge_accepted secondMerged).2
  have unifiable :=
    Unifiable.interleaved interleaved apart firstUnion secondUnion firstUnifiable secondUnifiable
  have union := TableUnion.interleaved interleaved apart firstUnion secondUnion
  have accepted := apart.union_accepted firstAccepted secondAccepted
  refine ⟨?_, ?_, ?_⟩
  · rw [unifiable.merge_eq union, accepted, ok_bind]
  · exact (AppletTable.included_in_union_left _ _).runs_alike firstAccepted
  · exact apart.included_in_union_right.runs_alike secondAccepted

def site : List Fragment :=
  [⟨"base", .ofApplet "db" (.ofImage "postgres" [])⟩,
    ⟨"site", .ofApplet "web" (.ofImage "nginx" ["db"])⟩]

def mail : List Fragment :=
  [⟨"base", .ofApplet "mta" (.ofImage "postfix" [])⟩,
    ⟨"mail", .ofApplet "webmail" (.ofImage "roundcube" ["mta"])⟩]

def hosted : List Fragment :=
  [⟨"base", .ofApplet "mta" (.ofImage "postfix" [])⟩,
    ⟨"base", .ofApplet "db" (.ofImage "postgres" [])⟩,
    ⟨"mail", .ofApplet "webmail" (.ofImage "roundcube" ["mta"])⟩,
    ⟨"site", .ofApplet "web" (.ofImage "nginx" ["db"])⟩]

def siteTable : AppletTable := mergedTable site

def mailTable : AppletTable := mergedTable mail

theorem site_and_mail_merge_union :
    merge site = .ok siteTable ∧ merge mail = .ok mailTable ∧ siteTable.Apart mailTable ∧
      Interleaving site mail hosted ∧ merge hosted = .ok (siteTable.union mailTable) ∧
      siteTable.RunsAlikeIn (siteTable.union mailTable) := by
  have siteMerged : merge site = .ok siteTable := by rfl
  have mailMerged : merge mail = .ok mailTable := by rfl
  have apart : siteTable.Apart mailTable :=
    ⟨List.disjoint_left.mpr (by decide), List.disjoint_left.mpr (by decide),
      List.disjoint_left.mpr (by decide)⟩
  have interleaved : Interleaving site mail hosted :=
    .right _ (.left _ (.right _ (.left _ .nil)))
  have united := independent_merge_union siteMerged mailMerged apart interleaved
  exact ⟨siteMerged, mailMerged, apart, interleaved, united.1, united.2.1⟩

end ContainerApplets
