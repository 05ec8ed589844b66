import ContainerApplets.Proofs.Merge.Union
import Mathlib.Logic.ExistsUnique

/-!
Merging is unification. Fragments merge exactly if what they set agrees and names an image for each
applet, and if the table that they describe can be expanded; that table is then the result.
-/

namespace ContainerApplets

/-- No two fragments disagree, and each applet that is mentioned is given an image. -/
structure Unifiable (fragments : List Fragment) : Prop where
  applets : ∀ key, CompatibleApplet key (entriesOf FragmentDocument.applets fragments key)
  images : ∀ key, entriesOf FragmentDocument.applets fragments key ≠ [] →
    ∃ entry ∈ entriesOf FragmentDocument.applets fragments key,
      ∃ image, entry.text .image = some image ∧ image ≠ ""
  volumes : ∀ key, CompatibleResource (entriesOf FragmentDocument.volumes fragments key)
  networks : ∀ key, CompatibleResource (entriesOf FragmentDocument.networks fragments key)

theorem entries_of_ne_nil {Entry : Type} {part : FragmentDocument → Catalog Entry}
    {fragments : List Fragment} {key : String} :
    entriesOf part fragments key ≠ [] ↔
      ∃ fragment ∈ fragments, key ∈ (part fragment.document).names := by
  simp [entriesOf, Catalog.mem_names, Option.ne_none_iff_exists']

theorem Absorption.gather_union {Draft Entry Record : Type} {kind : Absorption Draft Entry}
    {part : FragmentDocument → Catalog Entry} {union : String → List Entry → Record → Prop}
    (finish : String → Draft → Record) {fragments : List Fragment} {drafts : Catalog Draft}
    (gathered : kind.gather part fragments = .ok drafts)
    (unite : ∀ key entries draft, kind.Holds entries draft → kind.Compatible key entries →
      union key entries (finish key draft)) :
    CatalogUnion part union fragments (drafts.map finish) := by
  constructor
  · intro key
    rw [← entries_of_ne_nil, ← (gather_tracks gathered key).mentioned_iff, Catalog.mem_names,
      Catalog.get_map]
    cases drafts.get? key <;> simp
  · intro key record found
    rw [Catalog.get_map, Option.map_eq_some_iff] at found
    obtain ⟨draft, present, rfl⟩ := found
    have tracks := gather_tracks gathered key
    rw [present] at tracks
    exact unite key _ draft (tracks.holds "") tracks.compatible

theorem mem_insert_all {names : NameSet} {more : List String} {name : String} :
    name ∈ (names.insertAll more).names ↔ name ∈ names.names ∨ name ∈ more := by
  induction more generalizing names with
  | nil => simp [NameSet.insertAll]
  | cons first rest induction =>
      have added : name ∈ (Catalog.insert names first ()).names ↔
          name ∈ names.names ∨ name = first := by
        rw [Catalog.mem_names, Catalog.mem_names, Catalog.get_insert]
        by_cases same : name = first <;> simp [same]
      change name ∈ (NameSet.insertAll (Catalog.insert names first ()) rest).names ↔ _
      rw [induction, added, or_assoc, List.mem_cons]

def allIgnored (fragments : List Fragment) : NameSet :=
  fragments.foldl (fun names fragment => NameSet.insertAll names fragment.document.ignored) .empty

theorem all_ignored_append (fragments : List Fragment) (fragment : Fragment) :
    allIgnored (fragments ++ [fragment]) =
      (allIgnored fragments).insertAll fragment.document.ignored := by
  rw [allIgnored, List.foldl_append]
  rfl

theorem mem_all_ignored {fragments : List Fragment} {name : String} :
    name ∈ (allIgnored fragments).names ↔
      ∃ fragment ∈ fragments, name ∈ fragment.document.ignored := by
  induction fragments using List.reverseRecOn with
  | nil => simp [allIgnored, Catalog.empty, Catalog.names]
  | append_singleton fragments fragment induction =>
      rw [all_ignored_append, mem_insert_all, induction]
      simp [or_and_right, exists_or]

namespace Draft

variable {draft next : Draft} {fragment : Fragment} {fragments : List Fragment}

theorem add_eq_ok :
    draft.add fragment = .ok next ↔
      AppletDraft.absorption.takeAll fragment.origin draft.applets
        fragment.document.applets.entries = .ok next.applets ∧
      (ResourceDraft.absorption "volume").takeAll fragment.origin draft.volumes
        fragment.document.volumes.entries = .ok next.volumes ∧
      (ResourceDraft.absorption "network").takeAll fragment.origin draft.networks
        fragment.document.networks.entries = .ok next.networks ∧
      draft.ignored.insertAll fragment.document.ignored = next.ignored := by
  have applets : addApplet fragment.origin = AppletDraft.absorption.take fragment.origin := rfl
  have resources (entity : String) : addResource entity fragment.origin =
      (ResourceDraft.absorption entity).take fragment.origin := rfl
  simp only [add, applets, resources, bind_eq_ok, pure_eq_ok, Except.ok.injEq]
  constructor
  · intro added
    obtain ⟨applets, addedApplets, volumes, addedVolumes, networks, addedNetworks, rfl⟩ := added
    exact ⟨addedApplets, addedVolumes, addedNetworks, rfl⟩
  · intro added
    obtain ⟨addedApplets, addedVolumes, addedNetworks, ignored⟩ := added
    exact ⟨_, addedApplets, _, addedVolumes, _, addedNetworks, by rw [ignored]⟩

theorem of_fragments_append_eq_ok :
    ofFragments (fragments ++ [fragment]) = .ok next ↔
      ∃ draft, ofFragments fragments = .ok draft ∧ draft.add fragment = .ok next := by
  rw [ofFragments, List.foldlM_append, bind_eq_ok]
  simp only [List.foldlM_cons, List.foldlM_nil, bind_pure, ofFragments]

/-- The parts of the fragments are gathered on their own. -/
theorem of_fragments_eq_ok :
    ofFragments fragments = .ok draft ↔
      AppletDraft.absorption.gather FragmentDocument.applets fragments = .ok draft.applets ∧
      (ResourceDraft.absorption "volume").gather FragmentDocument.volumes fragments =
        .ok draft.volumes ∧
      (ResourceDraft.absorption "network").gather FragmentDocument.networks fragments =
        .ok draft.networks ∧
      allIgnored fragments = draft.ignored := by
  induction fragments using List.reverseRecOn generalizing draft with
  | nil =>
      change Except.ok empty = .ok draft ↔ Except.ok Catalog.empty = .ok draft.applets ∧
        Except.ok Catalog.empty = .ok draft.volumes ∧
        Except.ok Catalog.empty = .ok draft.networks ∧ Catalog.empty = draft.ignored
      cases draft
      simp [empty]
  | append_singleton fragments fragment induction =>
      rw [of_fragments_append_eq_ok, Absorption.gather_append_eq_ok,
        Absorption.gather_append_eq_ok, Absorption.gather_append_eq_ok, all_ignored_append]
      constructor
      · intro made
        obtain ⟨earlier, before, added⟩ := made
        obtain ⟨applets, volumes, networks, ignored⟩ := induction.mp before
        obtain ⟨addedApplets, addedVolumes, addedNetworks, addedIgnored⟩ := add_eq_ok.mp added
        exact ⟨⟨_, applets, addedApplets⟩, ⟨_, volumes, addedVolumes⟩,
          ⟨_, networks, addedNetworks⟩, by rw [ignored, addedIgnored]⟩
      · intro gathered
        obtain ⟨⟨applets, gatheredApplets, addedApplets⟩, ⟨volumes, gatheredVolumes,
          addedVolumes⟩, ⟨networks, gatheredNetworks, addedNetworks⟩, ignored⟩ := gathered
        exact ⟨⟨applets, volumes, networks, allIgnored fragments⟩,
          induction.mpr ⟨gatheredApplets, gatheredVolumes, gatheredNetworks, rfl⟩,
          add_eq_ok.mpr ⟨addedApplets, addedVolumes, addedNetworks, ignored⟩⟩

/-- A draft that was made of the fragments holds the table that they describe. -/
theorem table_union (made : ofFragments fragments = .ok draft) :
    TableUnion fragments draft.table := by
  obtain ⟨applets, volumes, networks, ignored⟩ := of_fragments_eq_ok.mp made
  constructor
  · refine Absorption.gather_union (fun key applet => applet.applet key) applets ?_
    intro key entries applet holds compatible
    exact AppletDraft.Holds.union holds compatible
  · refine Absorption.gather_union (fun key resource => resource.resource key) volumes ?_
    intro key entries resource holds compatible
    exact ResourceDraft.Holds.union holds compatible
  · refine Absorption.gather_union (fun key resource => resource.resource key) networks ?_
    intro key entries resource holds compatible
    exact ResourceDraft.Holds.union holds compatible
  · intro name
    change name ∈ draft.ignored.names ↔ _
    rw [← ignored, mem_all_ignored]

theorem of_fragments_ok_iff :
    (∃ draft, ofFragments fragments = .ok draft) ↔
      (∀ key, CompatibleApplet key (entriesOf FragmentDocument.applets fragments key)) ∧
      (∀ key, CompatibleResource (entriesOf FragmentDocument.volumes fragments key)) ∧
      (∀ key, CompatibleResource (entriesOf FragmentDocument.networks fragments key)) := by
  constructor
  · intro made
    obtain ⟨draft, made⟩ := made
    obtain ⟨applets, volumes, networks, _⟩ := of_fragments_eq_ok.mp made
    exact ⟨Absorption.gather_ok_iff.mp ⟨_, applets⟩, Absorption.gather_ok_iff.mp ⟨_, volumes⟩,
      Absorption.gather_ok_iff.mp ⟨_, networks⟩⟩
  · intro compatible
    obtain ⟨compatibleApplets, compatibleVolumes, compatibleNetworks⟩ := compatible
    obtain ⟨applets, gatheredApplets⟩ := AppletDraft.absorption.gather_ok_iff.mpr compatibleApplets
    obtain ⟨volumes, gatheredVolumes⟩ :=
      (ResourceDraft.absorption "volume").gather_ok_iff.mpr compatibleVolumes
    obtain ⟨networks, gatheredNetworks⟩ :=
      (ResourceDraft.absorption "network").gather_ok_iff.mpr compatibleNetworks
    exact ⟨⟨applets, volumes, networks, allIgnored fragments⟩,
      of_fragments_eq_ok.mpr ⟨gatheredApplets, gatheredVolumes, gatheredNetworks, rfl⟩⟩

theorem check_image_eq_ok {applet : AppletDraft} {key : String} :
    applet.checkImage key = .ok () ↔ (applet.applet key).image ≠ "" := by
  unfold AppletDraft.checkImage
  by_cases empty : (applet.applet key).image = "" <;> simp [empty]

theorem finish_eq_ok {table : AppletTable} :
    draft.finish = .ok table ↔
      (∀ key applet, draft.applets.get? key = some applet → (applet.applet key).image ≠ "") ∧
      draft.table.validate = .ok () ∧ draft.table = table := by
  simp only [finish, check_bind_eq_ok, for_each_eq_ok, check_image_eq_ok, pure_eq_ok,
    Except.ok.injEq, Prod.forall, Catalog.mem_entries]

theorem images_iff (made : ofFragments fragments = .ok draft) :
    (∀ key applet, draft.applets.get? key = some applet → (applet.applet key).image ≠ "") ↔
      ∀ key, entriesOf FragmentDocument.applets fragments key ≠ [] →
        ∃ entry ∈ entriesOf FragmentDocument.applets fragments key,
          ∃ image, entry.text .image = some image ∧ image ≠ "" := by
  obtain ⟨gathered, _⟩ := of_fragments_eq_ok.mp made
  refine forall_congr' fun key => ?_
  have tracks := Absorption.gather_tracks gathered key
  rw [← tracks.mentioned_iff, forall_exists_index]
  refine forall_congr' fun applet => forall_congr' fun found => ?_
  rw [found] at tracks
  exact AppletDraft.Holds.image_ne_empty_iff (tracks.holds "") tracks.compatible

end Draft

theorem Unifiable.draft {fragments : List Fragment} (unifiable : Unifiable fragments) :
    ∃ draft, Draft.ofFragments fragments = .ok draft :=
  Draft.of_fragments_ok_iff.mpr ⟨unifiable.applets, unifiable.volumes, unifiable.networks⟩

/-- A merged table stands under the names of its applets, and all of them can be expanded. -/
theorem merge_accepted {fragments : List Fragment} {table : AppletTable}
    (merged : merge fragments = .ok table) : table.Keyed ∧ table.validate = .ok () := by
  obtain ⟨draft, _, finished⟩ := bind_eq_ok.mp merged
  obtain ⟨_, accepted, rfl⟩ := Draft.finish_eq_ok.mp finished
  refine ⟨?_, accepted⟩
  intro name applet found
  change (draft.applets.map fun key applet => applet.applet key).get? name = some applet at found
  rw [Catalog.get_map, Option.map_eq_some_iff] at found
  obtain ⟨_, _, rfl⟩ := found
  rfl

theorem merged_union {fragments : List Fragment} {table : AppletTable}
    (merged : merge fragments = .ok table) : Unifiable fragments ∧ TableUnion fragments table := by
  obtain ⟨draft, made, finished⟩ := bind_eq_ok.mp merged
  obtain ⟨images, _, rfl⟩ := Draft.finish_eq_ok.mp finished
  obtain ⟨applets, volumes, networks⟩ := Draft.of_fragments_ok_iff.mp ⟨draft, made⟩
  exact ⟨⟨applets, (Draft.images_iff made).mp images, volumes, networks⟩, Draft.table_union made⟩

/-- Of fragments that can be unified only the hooks of the table that they describe are left to
check. -/
theorem Unifiable.merge_eq {fragments : List Fragment} (unifiable : Unifiable fragments)
    {table : AppletTable} (union : TableUnion fragments table) :
    merge fragments = table.validate >>= fun _ => .ok table := by
  obtain ⟨draft, made⟩ := unifiable.draft
  have same : draft.table = table := (Draft.table_union made).unique union
  have imaged : (draft.applets.entries.forM fun entry => entry.2.checkImage entry.1) =
      .ok () := by
    simpa only [for_each_eq_ok, Draft.check_image_eq_ok, Prod.forall, Catalog.mem_entries] using
      (Draft.images_iff made).mpr unifiable.images
  rw [merge, made, ok_bind, Draft.finish, imaged, ok_bind, same]
  rfl

/-- Fragments merge into a table exactly if they can be unified, the table is the one that they
describe, and it is accepted; and fragments that can be unified describe one table. -/
theorem merge_unifies (fragments : List Fragment) :
    (∀ table, merge fragments = .ok table ↔
      Unifiable fragments ∧ TableUnion fragments table ∧ table.validate = .ok ()) ∧
    (Unifiable fragments → ∃! table, TableUnion fragments table) := by
  refine ⟨fun table => ⟨?_, ?_⟩, ?_⟩
  · intro merged
    obtain ⟨draft, made, finished⟩ := bind_eq_ok.mp merged
    obtain ⟨images, accepted, rfl⟩ := Draft.finish_eq_ok.mp finished
    obtain ⟨applets, volumes, networks⟩ := Draft.of_fragments_ok_iff.mp ⟨draft, made⟩
    exact ⟨⟨applets, (Draft.images_iff made).mp images, volumes, networks⟩,
      Draft.table_union made, accepted⟩
  · intro described
    obtain ⟨unifiable, union, accepted⟩ := described
    obtain ⟨draft, made⟩ := unifiable.draft
    have same : draft.table = table := (Draft.table_union made).unique union
    have images := (Draft.images_iff made).mpr unifiable.images
    have finished := Draft.finish_eq_ok.mpr ⟨images, same ▸ accepted, same⟩
    exact bind_eq_ok.mpr ⟨draft, made, finished⟩
  · intro unifiable
    obtain ⟨draft, made⟩ := unifiable.draft
    exact ⟨draft.table, Draft.table_union made, fun other union =>
      union.unique (Draft.table_union made)⟩

/-- The table of fragments that merge. -/
def mergedTable (fragments : List Fragment) : AppletTable :=
  match merge fragments with
  | .ok table => table
  | .error _ => .empty

/-- An applet of which an image is given and the hooks that run before it. -/
def AppletFragment.ofImage (image : String) (before : List String) : AppletFragment :=
  { unset with
    text := fun field => if field = .image then some image else none
    hooks := fun side => if side = .before then before else [] }

def FragmentDocument.ofApplet (name : String) (entry : AppletFragment) : FragmentDocument :=
  { empty with applets := Catalog.empty.insert name entry }

end ContainerApplets
