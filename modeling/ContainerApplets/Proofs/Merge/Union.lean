import ContainerApplets.Proofs.Merge.Drafts

/-!
The table that fragments describe, read off the fragments without merging them. Under each name
that a fragment mentions stands one record: settings are those that are set, lists are put one after
the other, and hooks are listed once.
-/

namespace ContainerApplets

structure AppletUnion (key : String) (entries : List AppletFragment) (applet : Applet) : Prop where
  named : applet.appletName = key
  text : ∀ field, IsCommon (entries.map fun entry => entry.text field)
    (if field = .tag then "latest" else "") (applet.text field)
  switch : ∀ field, IsCommon (entries.map fun entry => entry.switch field)
    (decide (field ∈ [.rm, .interactive, .tty])) (applet.switch field)
  command : IsCommon (entries.map fun entry => entry.command) [] applet.command
  list : ∀ field, applet.list field = entries.flatMap fun entry => entry.list field
  hooks : ∀ side, applet.hooks side = (entries.flatMap fun entry => entry.hooks side).eraseDups

/-- A resource has the name that is set, if that is not empty, and its key otherwise. -/
structure ResourceUnion (key : String) (entries : List ResourceFragment) (resource : Resource) :
    Prop where
  named : ∀ name, some name ∈ (entries.map fun entry => entry.name) → name ≠ "" →
    resource.name = name
  unnamed : (∀ entry ∈ entries, entry.name = none ∨ entry.name = some "") → resource.name = key
  driver : ∀ driver, resource.driver = some driver ↔
    some driver ∈ entries.map fun entry => entry.driver

/-- The names of the catalog are those that the fragments mention, and each record is the union of
the entries of its name. -/
structure CatalogUnion {Entry Record : Type} (part : FragmentDocument → Catalog Entry)
    (union : String → List Entry → Record → Prop) (fragments : List Fragment)
    (catalog : Catalog Record) : Prop where
  names : ∀ key, key ∈ catalog.names ↔
    ∃ fragment ∈ fragments, key ∈ (part fragment.document).names
  records : ∀ key record, catalog.get? key = some record →
    union key (entriesOf part fragments key) record

structure TableUnion (fragments : List Fragment) (table : AppletTable) : Prop where
  applets : CatalogUnion FragmentDocument.applets AppletUnion fragments table.applets
  volumes : CatalogUnion FragmentDocument.volumes ResourceUnion fragments table.volumes
  networks : CatalogUnion FragmentDocument.networks ResourceUnion fragments table.networks
  ignored : ∀ name, name ∈ table.ignored.names ↔
    ∃ fragment ∈ fragments, name ∈ fragment.document.ignored

/-! ### One union at most -/

theorem AppletUnion.unique {key : String} {entries : List AppletFragment} {left right : Applet}
    (leftUnion : AppletUnion key entries left) (rightUnion : AppletUnion key entries right) :
    left = right := by
  have text : left.text = right.text := by
    funext field
    exact (leftUnion.text field).unique (rightUnion.text field)
  have switch : left.switch = right.switch := by
    funext field
    exact (leftUnion.switch field).unique (rightUnion.switch field)
  have list : left.list = right.list := by
    funext field
    rw [leftUnion.list, rightUnion.list]
  have hooks : left.hooks = right.hooks := by
    funext side
    rw [leftUnion.hooks, rightUnion.hooks]
  have named := leftUnion.named.trans rightUnion.named.symm
  have command := leftUnion.command.unique rightUnion.command
  cases left
  cases right
  simp only at named text switch list hooks command
  subst named text switch list hooks command
  rfl

theorem ResourceUnion.unique {key : String} {entries : List ResourceFragment}
    {left right : Resource} (leftUnion : ResourceUnion key entries left)
    (rightUnion : ResourceUnion key entries right) : left = right := by
  have name : left.name = right.name := by
    by_cases unnamed : ∀ entry ∈ entries, entry.name = none ∨ entry.name = some ""
    · rw [leftUnion.unnamed unnamed, rightUnion.unnamed unnamed]
    · simp only [not_forall, not_or] at unnamed
      obtain ⟨entry, member, made, filled⟩ := unnamed
      obtain ⟨name, set⟩ := Option.ne_none_iff_exists'.mp made
      have listed : some name ∈ entries.map fun entry => entry.name :=
        List.mem_map.mpr ⟨entry, member, set⟩
      have nonempty : name ≠ "" := fun empty => filled (empty ▸ set)
      rw [leftUnion.named name listed nonempty, rightUnion.named name listed nonempty]
  have driver : left.driver = right.driver := by
    apply Option.ext
    intro driver
    rw [leftUnion.driver, rightUnion.driver]
  cases left
  cases right
  simp only at name driver
  rw [name, driver]

theorem CatalogUnion.unique {Entry Record : Type} {part : FragmentDocument → Catalog Entry}
    {union : String → List Entry → Record → Prop} {fragments : List Fragment}
    {left right : Catalog Record} (leftUnion : CatalogUnion part union fragments left)
    (rightUnion : CatalogUnion part union fragments right)
    (same : ∀ {key entries one other}, union key entries one → union key entries other →
      one = other) : left = right := by
  apply Catalog.ext_get
  intro key
  have mentioned : key ∈ left.names ↔ key ∈ right.names := by
    rw [leftUnion.names, rightUnion.names]
  rw [Catalog.mem_names, Catalog.mem_names] at mentioned
  cases leftFound : left.get? key with
  | none =>
      cases rightFound : right.get? key with
      | none => rfl
      | some record =>
          obtain ⟨other, found⟩ := mentioned.mpr ⟨record, rightFound⟩
          exact nomatch leftFound.symm.trans found
  | some record =>
      obtain ⟨other, found⟩ := mentioned.mp ⟨record, leftFound⟩
      have equal := same (leftUnion.records key record leftFound)
        (rightUnion.records key other found)
      rw [found, equal]

theorem TableUnion.unique {fragments : List Fragment} {left right : AppletTable}
    (leftUnion : TableUnion fragments left) (rightUnion : TableUnion fragments right) :
    left = right := by
  have applets := leftUnion.applets.unique rightUnion.applets AppletUnion.unique
  have volumes := leftUnion.volumes.unique rightUnion.volumes ResourceUnion.unique
  have networks := leftUnion.networks.unique rightUnion.networks ResourceUnion.unique
  have ignored : left.ignored = right.ignored := by
    apply Catalog.ext_get
    intro name
    have listed : name ∈ left.ignored.names ↔ name ∈ right.ignored.names := by
      rw [leftUnion.ignored, rightUnion.ignored]
    simp only [Catalog.mem_names] at listed
    cases leftFound : left.ignored.get? name <;> cases rightFound : right.ignored.get? name <;>
      simp_all
  cases left
  cases right
  simp only at applets volumes networks ignored
  rw [applets, volumes, networks, ignored]

/-! ### The union that a draft holds -/

theorem AppletDraft.Holds.union {key : String} {entries : List AppletFragment}
    {draft : AppletDraft} (holds : draft.Holds entries)
    (compatible : CompatibleApplet key entries) : AppletUnion key entries (draft.applet key) where
  named := rfl
  text := fun field => by
    have default : field.default = if field = .tag then "latest" else "" := by
      cases field <;> rfl
    rw [← default]
    exact (holds.text field).is_common (compatible.text field) field.default
  switch := fun field => by
    have default : field.default = decide (field ∈ [.rm, .interactive, .tty]) := by
      cases field <;> rfl
    rw [← default]
    exact (holds.switch field).is_common (compatible.switch field) field.default
  command := holds.command.is_common compatible.command []
  list := holds.list
  hooks := holds.hooks

theorem AppletDraft.Holds.image_ne_empty_iff {key : String} {entries : List AppletFragment}
    {draft : AppletDraft} (holds : draft.Holds entries)
    (compatible : CompatibleApplet key entries) :
    (draft.applet key).image ≠ "" ↔
      ∃ entry ∈ entries, ∃ image, entry.text .image = some image ∧ image ≠ "" := by
  change (Slot.value? (draft.text .image)).getD "" ≠ "" ↔ _
  rw [holds.text .image]
  constructor
  · intro nonempty
    cases first : firstSet (entries.map fun entry => entry.text .image) with
    | none => simp [first] at nonempty
    | some image =>
        rw [first, Option.getD_some] at nonempty
        obtain ⟨entry, member, set⟩ := List.mem_map.mp (mem_of_first_set first)
        exact ⟨entry, member, image, set, nonempty⟩
  · intro imaged
    obtain ⟨entry, member, image, set, nonempty⟩ := imaged
    have listed : some image ∈ entries.map fun entry => entry.text .image :=
      List.mem_map.mpr ⟨entry, member, set⟩
    rw [(compatible.text .image).first_set listed]
    exact nonempty

theorem ResourceDraft.resource_name (draft : ResourceDraft) (key : String) :
    (draft.resource key).name =
      if (Slot.value? draft.name).getD "" = "" then key else (Slot.value? draft.name).getD "" := by
  unfold resource
  cases Slot.value? draft.name <;> simp

theorem ResourceDraft.Holds.union {key : String} {entries : List ResourceFragment}
    {draft : ResourceDraft} (holds : draft.Holds entries)
    (compatible : CompatibleResource entries) :
    ResourceUnion key entries (draft.resource key) where
  named := fun name listed nonempty => by
    have common := (holds.name.is_common compatible.name "").1 name listed
    rw [ResourceDraft.resource_name, common, if_neg nonempty]
  unnamed := fun unnamed => by
    have empty : (Slot.value? draft.name).getD "" = "" := by
      rw [holds.name]
      cases first : firstSet (entries.map fun entry => entry.name) with
      | none => rfl
      | some name =>
          obtain ⟨entry, member, set⟩ := List.mem_map.mp (mem_of_first_set first)
          simpa [set] using unnamed entry member
    rw [ResourceDraft.resource_name, if_pos empty]
  driver := fun driver => by
    change Slot.value? draft.driver = some driver ↔ _
    rw [holds.driver]
    exact ⟨mem_of_first_set, compatible.driver.first_set⟩

end ContainerApplets
