import ContainerApplets.Proofs.Merge.Unification

/-!
What depends on the documents of the fragments alone, and neither on their order nor on how often
one of them comes: whether the fragments can be unified, and everything in their table but the lists
of the applets.
-/

namespace ContainerApplets

/-- The same documents, in any order and each any number of times. -/
def SameDocuments (fragments others : List Fragment) : Prop :=
  ∀ document, (∃ fragment ∈ fragments, fragment.document = document) ↔
    ∃ fragment ∈ others, fragment.document = document

theorem same_documents_of_perm {fragments others : List Fragment} (perm : fragments.Perm others) :
    SameDocuments fragments others :=
  fun _ => exists_congr fun _ => and_congr_left fun _ => perm.mem_iff

theorem SameDocuments.mentioned {fragments others : List Fragment}
    (same : SameDocuments fragments others) (mentions : FragmentDocument → Prop) :
    (∃ fragment ∈ fragments, mentions fragment.document) ↔
      ∃ fragment ∈ others, mentions fragment.document := by
  have carried {left right : List Fragment}
      (covered : ∀ document, (∃ fragment ∈ left, fragment.document = document) →
        ∃ fragment ∈ right, fragment.document = document) :
      (∃ fragment ∈ left, mentions fragment.document) →
        ∃ fragment ∈ right, mentions fragment.document := by
    intro mentioned
    obtain ⟨fragment, member, holds⟩ := mentioned
    obtain ⟨other, otherMember, equal⟩ := covered _ ⟨fragment, member, rfl⟩
    exact ⟨other, otherMember, equal ▸ holds⟩
  exact ⟨carried fun document => (same document).mp, carried fun document => (same document).mpr⟩

theorem mem_entries_of {Entry : Type} {part : FragmentDocument → Catalog Entry}
    {fragments : List Fragment} {key : String} {entry : Entry} :
    entry ∈ entriesOf part fragments key ↔
      ∃ fragment ∈ fragments, (part fragment.document).get? key = some entry :=
  List.mem_filterMap

theorem SameDocuments.mem_entries {Entry : Type} {fragments others : List Fragment}
    (same : SameDocuments fragments others) (part : FragmentDocument → Catalog Entry)
    (key : String) (entry : Entry) :
    entry ∈ entriesOf part fragments key ↔ entry ∈ entriesOf part others key := by
  rw [mem_entries_of, mem_entries_of]
  exact same.mentioned fun document => (part document).get? key = some entry

/-! ### One name -/

section Settings

variable {Value : Type} {settings others : List (Option Value)}

theorem Agree.subset (agree : Agree settings) (known : others ⊆ settings) : Agree others :=
  fun left right leftMember rightMember => agree left right (known leftMember) (known rightMember)

theorem IsCommon.congr {default value : Value} (common : IsCommon settings default value)
    (same : ∀ setting, setting ∈ settings ↔ setting ∈ others) : IsCommon others default value := by
  constructor
  · intro set member
    exact common.1 set ((same _).mpr member)
  · intro unset
    exact common.2 fun setting member => unset setting ((same _).mp member)

end Settings

theorem mem_map_congr {Item Value : Type} {items others : List Item}
    (same : ∀ item, item ∈ items ↔ item ∈ others) (read : Item → Value) (value : Value) :
    value ∈ items.map read ↔ value ∈ others.map read := by
  rw [List.mem_map, List.mem_map]
  exact exists_congr fun item => and_congr_left fun _ => same item

theorem CompatibleApplet.subset {key : String} {entries others : List AppletFragment}
    (compatible : CompatibleApplet key entries) (known : others ⊆ entries) :
    CompatibleApplet key others where
  named := fun entry member => compatible.named entry (known member)
  text := fun field => (compatible.text field).subset (List.map_subset _ known)
  switch := fun field => (compatible.switch field).subset (List.map_subset _ known)
  command := compatible.command.subset (List.map_subset _ known)

theorem CompatibleResource.subset {entries others : List ResourceFragment}
    (compatible : CompatibleResource entries) (known : others ⊆ entries) :
    CompatibleResource others where
  name := compatible.name.subset (List.map_subset _ known)
  driver := compatible.driver.subset (List.map_subset _ known)

theorem ResourceUnion.congr {key : String} {entries others : List ResourceFragment}
    {resource : Resource} (union : ResourceUnion key entries resource)
    (same : ∀ entry, entry ∈ entries ↔ entry ∈ others) : ResourceUnion key others resource where
  named := fun name listed => union.named name ((mem_map_congr same _ _).mpr listed)
  unnamed := fun unnamed => union.unnamed fun entry member => unnamed entry ((same entry).mp member)
  driver := fun driver => by rw [union.driver, mem_map_congr same]

/-! ### All fragments -/

section Fragments

variable {fragments others : List Fragment}

theorem Unifiable.congr (unifiable : Unifiable fragments) (same : SameDocuments fragments others) :
    Unifiable others where
  applets := fun key =>
    (unifiable.applets key).subset fun entry => (same.mem_entries _ key entry).mpr
  images := fun key mentioned => by
    have before : entriesOf FragmentDocument.applets fragments key ≠ [] := by
      obtain ⟨entry, member⟩ := List.exists_mem_of_ne_nil _ mentioned
      exact List.ne_nil_of_mem ((same.mem_entries _ key entry).mpr member)
    obtain ⟨entry, member, imaged⟩ := unifiable.images key before
    exact ⟨entry, (same.mem_entries _ key entry).mp member, imaged⟩
  volumes := fun key =>
    (unifiable.volumes key).subset fun entry => (same.mem_entries _ key entry).mpr
  networks := fun key =>
    (unifiable.networks key).subset fun entry => (same.mem_entries _ key entry).mpr

theorem CatalogUnion.congr {part : FragmentDocument → Catalog ResourceFragment}
    {catalog : Catalog Resource} (united : CatalogUnion part ResourceUnion fragments catalog)
    (same : SameDocuments fragments others) : CatalogUnion part ResourceUnion others catalog where
  names := fun key => by
    rw [united.names]
    exact same.mentioned fun document => key ∈ (part document).names
  records := fun key resource found =>
    (united.records key resource found).congr (same.mem_entries part key)

theorem TableUnion.ignored_congr {table : AppletTable} (union : TableUnion fragments table)
    (same : SameDocuments fragments others) (name : String) :
    name ∈ table.ignored.names ↔ ∃ fragment ∈ others, name ∈ fragment.document.ignored := by
  rw [union.ignored]
  exact same.mentioned fun document => name ∈ document.ignored

end Fragments

end ContainerApplets
