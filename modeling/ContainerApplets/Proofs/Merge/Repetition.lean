import ContainerApplets.Proofs.Hooks.Transfer
import ContainerApplets.Proofs.Merge.Documents

/-!
A fragment that is seen again. Its settings are known, its hooks are there already and its names are
mentioned, so only the lists of its applets take in what it lists once more, at its place.
-/

namespace ContainerApplets

/-- What the fragments list in a field for the applet of this name, in their order. -/
def listed (fragments : List Fragment) (key : String) (field : ListField) : List String :=
  (entriesOf FragmentDocument.applets fragments key).flatMap fun entry => entry.list field

theorem entries_of_concat {Entry : Type} (part : FragmentDocument → Catalog Entry)
    (fragments others : List Fragment) (key : String) :
    entriesOf part (fragments ++ others) key =
      entriesOf part fragments key ++ entriesOf part others key :=
  List.filterMap_append

theorem listed_concat (fragments others : List Fragment) (key : String) (field : ListField) :
    listed (fragments ++ others) key field =
      listed fragments key field ++ listed others key field := by
  rw [listed, entries_of_concat, List.flatMap_append]
  rfl

/-- The record with other lists. -/
def Applet.withLists (applet : Applet) (lists : ListField → List String) : Applet :=
  { applet with list := lists }

theorem Applet.with_lists_eq_self {applet : Applet} {lists : ListField → List String}
    (same : ∀ field, lists field = applet.list field) : applet.withLists lists = applet := by
  have equal : lists = applet.list := funext same
  rw [equal]
  rfl

/-- Names that were met before add nothing to those that are kept. -/
theorem erase_dups_repeated {seen again : List String} (known : again ⊆ seen)
    (after : List String) : (seen ++ again ++ after).eraseDups = (seen ++ after).eraseDups := by
  have nothing : again.filter (fun name => !seen.elem name) = [] := by
    refine List.filter_eq_nil_iff.mpr fun name member => ?_
    simpa using known member
  rw [List.append_assoc, List.eraseDups_append, List.eraseDups_append, List.removeAll,
    List.removeAll, List.filter_append, nothing, List.nil_append]

/-! ### One name -/

section Entries

variable {Entry : Type} {seen again after : List Entry}

theorem mem_repeated (known : again ⊆ seen) (entry : Entry) :
    entry ∈ seen ++ after ↔ entry ∈ seen ++ again ++ after := by
  simp only [List.mem_append]
  refine or_congr_left ⟨.inl, fun either => either.elim id fun member => known member⟩

/-- The union of entries of which some are repeated. -/
theorem AppletUnion.repeated {key : String} {seen again after : List AppletFragment}
    {applet : Applet} (union : AppletUnion key (seen ++ after) applet) (known : again ⊆ seen) :
    AppletUnion key (seen ++ again ++ after) (applet.withLists fun field =>
      (seen ++ again ++ after).flatMap fun entry => entry.list field) where
  named := union.named
  text := fun field => (union.text field).congr (mem_map_congr (mem_repeated known) _)
  switch := fun field => (union.switch field).congr (mem_map_congr (mem_repeated known) _)
  command := union.command.congr (mem_map_congr (mem_repeated known) _)
  list := fun field => rfl
  hooks := fun side => by
    change applet.hooks side = _
    have listedBefore : (again.flatMap fun entry => entry.hooks side) ⊆
        seen.flatMap fun entry => entry.hooks side := by
      intro name member
      obtain ⟨entry, repeatedEntry, listed⟩ := List.mem_flatMap.mp member
      exact List.mem_flatMap.mpr ⟨entry, known repeatedEntry, listed⟩
    rw [union.hooks, List.flatMap_append, List.flatMap_append, List.flatMap_append,
      erase_dups_repeated listedBefore]

end Entries

/-! ### All fragments -/

section Fragments

variable {seen after : List Fragment} {fragment copy : Fragment}

theorem same_documents_of_copy (member : fragment ∈ seen)
    (same : copy.document = fragment.document) :
    SameDocuments (seen ++ after) (seen ++ copy :: after) := by
  intro document
  constructor
  · intro found
    obtain ⟨other, otherMember, equal⟩ := found
    refine ⟨other, ?_, equal⟩
    simp only [List.mem_append, List.mem_cons] at otherMember ⊢
    tauto
  · intro found
    obtain ⟨other, otherMember, rfl⟩ := found
    rcases List.mem_append.mp otherMember with early | later
    · exact ⟨other, List.mem_append_left _ early, rfl⟩
    · rcases List.mem_cons.mp later with rfl | late
      · exact ⟨fragment, List.mem_append_left _ member, same.symm⟩
      · exact ⟨other, List.mem_append_right _ late, rfl⟩

/-- What the applet of this name lists when the copy stands between the other fragments. -/
def listedWithCopy (seen : List Fragment) (copy : Fragment) (after : List Fragment) (key : String)
    (field : ListField) : List String :=
  listed seen key field ++ listed [copy] key field ++ listed after key field

/-- The table in which the lists of the applets hold what the copy lists too. -/
def AppletTable.withCopy (table : AppletTable) (seen : List Fragment) (copy : Fragment)
    (after : List Fragment) : AppletTable :=
  { table with
    applets := table.applets.map fun key applet =>
      applet.withLists (listedWithCopy seen copy after key) }

theorem TableUnion.with_copy {table : AppletTable} (union : TableUnion (seen ++ after) table)
    (member : fragment ∈ seen) (same : copy.document = fragment.document) :
    TableUnion (seen ++ copy :: after) (table.withCopy seen copy after) := by
  have documents : SameDocuments (seen ++ after) (seen ++ copy :: after) :=
    same_documents_of_copy member same
  refine ⟨⟨?_, ?_⟩, union.volumes.congr documents, union.networks.congr documents,
    union.ignored_congr documents⟩
  · intro key
    have names : key ∈ (table.withCopy seen copy after).applets.names ↔
        key ∈ table.applets.names := by
      change key ∈ (table.applets.map _).names ↔ _
      simp [Catalog.mem_names, Catalog.get_map]
    rw [names, union.applets.names]
    exact documents.mentioned fun document => key ∈ document.applets.names
  · intro key record found
    change (table.applets.map _).get? key = some record at found
    rw [Catalog.get_map, Option.map_eq_some_iff] at found
    obtain ⟨applet, present, rfl⟩ := found
    have known : entriesOf FragmentDocument.applets [copy] key ⊆
        entriesOf FragmentDocument.applets seen key := by
      intro entry repeated
      obtain ⟨other, alone, mentions⟩ := mem_entries_of.mp repeated
      rw [List.mem_singleton.mp alone, same] at mentions
      exact mem_entries_of.mpr ⟨fragment, member, mentions⟩
    have united := union.applets.records key applet present
    rw [entries_of_concat] at united
    have lists : listedWithCopy seen copy after key = fun field =>
        (entriesOf FragmentDocument.applets seen key ++
          entriesOf FragmentDocument.applets [copy] key ++
          entriesOf FragmentDocument.applets after key).flatMap fun entry => entry.list field := by
      funext field
      rw [listedWithCopy, List.flatMap_append, List.flatMap_append]
      rfl
    rw [List.append_cons, entries_of_concat, entries_of_concat, lists]
    exact united.repeated known

/-- The copy changes no hook, so the graph that is checked is the same. -/
theorem AppletTable.with_copy_accepted {table : AppletTable} (accepted : table.validate = .ok ())
    (seen : List Fragment) (copy : Fragment) (after : List Fragment) :
    (table.withCopy seen copy after).validate = .ok () := by
  have included : table.HooksIncludedIn (table.withCopy seen copy after) := by
    intro name applet found
    refine ⟨applet.withLists (listedWithCopy seen copy after name), ?_, rfl, fun side => .refl _⟩
    change (table.applets.map _).get? name = _
    rw [Catalog.get_map, show table.applets.get? name = some applet from found, Option.map_some]
  refine included.accepted ?_ accepted
  intro name listed
  change name ∈ (table.applets.map _).names at listed
  rw [Catalog.mem_names, Catalog.get_map] at listed
  obtain ⟨_, found⟩ := listed
  obtain ⟨applet, present, _⟩ := Option.map_eq_some_iff.mp found
  exact Catalog.mem_names.mpr ⟨applet, present⟩

theorem Catalog.map_eq_self {Value : Type} {catalog : Catalog Value}
    {transform : String → Value → Value}
    (keeps : ∀ name value, catalog.get? name = some value → transform name value = value) :
    catalog.map transform = catalog := by
  apply Catalog.ext_get
  intro name
  rw [Catalog.get_map]
  cases found : catalog.get? name with
  | none => rfl
  | some value => rw [Option.map_some, keeps name value found]

theorem listed_copy (same : copy.document = fragment.document) (key : String)
    (field : ListField) :
    listed [copy] key field =
      ((fragment.document.applets.get? key).map fun entry => entry.list field).getD [] := by
  rw [listed, entriesOf, List.filterMap_cons, same]
  cases fragment.document.applets.get? key <;> simp

/-- Seeing a fragment again is harmless. Wherever a copy of a fragment comes after it, under
whatever origin, the fragments still merge, and the table is the same but for the lists of the
applets that the fragment describes: they hold what it lists once more, at the place of the copy. If
it lists nothing, the table is the same. -/
theorem repeated_fragment_harmless {table : AppletTable} (member : fragment ∈ seen)
    (same : copy.document = fragment.document) (merged : merge (seen ++ after) = .ok table) :
    merge (seen ++ copy :: after) = .ok (table.withCopy seen copy after) ∧
    (∀ key applet, table.get? key = some applet → ∀ field,
      applet.list field = listed seen key field ++ listed after key field) ∧
    (∀ key field, listed [copy] key field =
      ((fragment.document.applets.get? key).map fun entry => entry.list field).getD []) ∧
    ((∀ key entry, fragment.document.applets.get? key = some entry →
        ∀ field, entry.list field = []) →
      merge (seen ++ copy :: after) = .ok table) := by
  obtain ⟨unifiable, union⟩ := merged_union merged
  have again := unifiable.congr (same_documents_of_copy member same)
  have united := union.with_copy member same
  have accepted := AppletTable.with_copy_accepted (merge_accepted merged).2 seen copy after
  have mergedAgain : merge (seen ++ copy :: after) = .ok (table.withCopy seen copy after) := by
    rw [again.merge_eq united, accepted, ok_bind]
  have lists (key : String) (applet : Applet) (found : table.get? key = some applet)
      (field : ListField) :
      applet.list field = listed seen key field ++ listed after key field := by
    rw [← listed_concat]
    exact (union.applets.records key applet found).list field
  refine ⟨mergedAgain, lists, listed_copy same, ?_⟩
  intro unlisted
  have nothing (key : String) (field : ListField) : listed [copy] key field = [] := by
    rw [listed_copy same]
    cases found : fragment.document.applets.get? key with
    | none => rfl
    | some entry => exact unlisted key entry found field
  have kept : (table.applets.map fun key applet =>
      applet.withLists (listedWithCopy seen copy after key)) = table.applets := by
    refine Catalog.map_eq_self fun key applet found => ?_
    refine Applet.with_lists_eq_self fun field => ?_
    rw [listedWithCopy, nothing, List.append_nil, lists key applet found]
  rw [mergedAgain, AppletTable.withCopy, kept]

/-- A web server that listens on a port and runs after its database. -/
def portal : Fragment :=
  ⟨"site", .ofApplet "web" { AppletFragment.ofImage "nginx" ["db"] with
    list := fun field => if field = .ports then ["80:80"] else [] }⟩

def portalParts : List Fragment := [⟨"base", .ofApplet "db" (.ofImage "postgres" [])⟩, portal]

/-- The server gets another port and a log that runs before it, too. -/
def portalExtras : List Fragment :=
  let secure : AppletFragment :=
    { AppletFragment.unset with
      list := fun field => if field = .ports then ["443:443"] else []
      hooks := fun side => if side = .before then ["log"] else [] }
  [⟨"secure", .ofApplet "web" secure⟩, ⟨"log", .ofApplet "log" (.ofImage "fluentd" [])⟩]

theorem portal_repeated_harmless :
    let copy : Fragment := { portal with origin := "copy" }
    let table := mergedTable (portalParts ++ portalExtras)
    portal ∈ portalParts ∧ copy.document = portal.document ∧
    merge (portalParts ++ portalExtras) = .ok table ∧
    merge (portalParts ++ copy :: portalExtras) =
      .ok (table.withCopy portalParts copy portalExtras) ∧
    ((table.withCopy portalParts copy portalExtras).get? "web").map
        (fun web => (web.list .ports, web.hooks .before)) =
      some (["80:80", "80:80", "443:443"], ["db", "log"]) := by
  intro copy table
  have member : portal ∈ portalParts := by simp [portalParts]
  have same : copy.document = portal.document := rfl
  have merged : merge (portalParts ++ portalExtras) = .ok table := by rfl
  have repeated := repeated_fragment_harmless member same merged
  exact ⟨member, same, merged, repeated.1, by rfl⟩

end Fragments

end ContainerApplets
