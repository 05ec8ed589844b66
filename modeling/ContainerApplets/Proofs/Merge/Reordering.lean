import ContainerApplets.Proofs.Hooks.Transfer
import ContainerApplets.Proofs.Merge.Documents

/-!
The order of fragments. It decides the order in which lists are put together and hooks are first
seen, and which complaint comes first, but neither whether fragments merge nor anything else in the
table.
-/

namespace ContainerApplets

/-- The applets differ at most in the order of what they list. -/
structure Applet.Reordered (left right : Applet) : Prop where
  named : left.appletName = right.appletName
  text : left.text = right.text
  switch : left.switch = right.switch
  command : left.command = right.command
  list : ∀ field, (left.list field).Perm (right.list field)
  hooks : ∀ side, (left.hooks side).Perm (right.hooks side)

/-- The tables differ at most in the order of what their applets list. -/
structure AppletTable.Reordered (left right : AppletTable) : Prop where
  names : ∀ name, name ∈ left.applets.names ↔ name ∈ right.applets.names
  applets : ∀ name applet copy, left.get? name = some applet → right.get? name = some copy →
    applet.Reordered copy
  volumes : left.volumes = right.volumes
  networks : left.networks = right.networks
  ignored : left.ignored = right.ignored

/-! ### One name -/

section Applets

variable {key : String} {entries others : List AppletFragment}

theorem nodup_erase_dups (names : List String) : names.eraseDups.Nodup := by
  induction names using List.reverseRecOn with
  | nil => exact List.nodup_nil
  | append_singleton names name distinct =>
      rw [List.eraseDups_append]
      by_cases seen : name ∈ names
      · simp [List.removeAll, seen, distinct]
      · refine List.nodup_append'.mpr ⟨distinct, ?_, ?_⟩
        · simp [List.removeAll, seen, List.eraseDups_cons]
        · simp [List.removeAll, seen, List.eraseDups_cons]

theorem erase_dups_perm {names more : List String} (perm : names.Perm more) :
    names.eraseDups.Perm more.eraseDups := by
  refine (List.perm_ext_iff_of_nodup (nodup_erase_dups names) (nodup_erase_dups more)).mpr ?_
  intro name
  rw [List.mem_eraseDups, List.mem_eraseDups, perm.mem_iff]

theorem AppletUnion.reordered (perm : entries.Perm others) {applet copy : Applet}
    (union : AppletUnion key entries applet) (again : AppletUnion key others copy) :
    applet.Reordered copy where
  named := union.named.trans again.named.symm
  text := by
    funext field
    exact ((union.text field).congr fun _ => (perm.map _).mem_iff).unique (again.text field)
  switch := by
    funext field
    exact ((union.switch field).congr fun _ => (perm.map _).mem_iff).unique (again.switch field)
  command := (union.command.congr fun _ => (perm.map _).mem_iff).unique again.command
  list := fun field => by
    rw [union.list, again.list]
    exact perm.flatMap_right _
  hooks := fun side => by
    rw [union.hooks, again.hooks]
    exact erase_dups_perm (perm.flatMap_right _)

end Applets

/-! ### All fragments -/

section Fragments

variable {fragments others : List Fragment}

theorem entries_of_perm {Entry : Type} (part : FragmentDocument → Catalog Entry)
    (perm : fragments.Perm others) (key : String) :
    (entriesOf part fragments key).Perm (entriesOf part others key) :=
  perm.filterMap _

theorem TableUnion.reordered (perm : fragments.Perm others) {table other : AppletTable}
    (union : TableUnion fragments table) (again : TableUnion others other) :
    table.Reordered other := by
  have same := same_documents_of_perm perm
  -- All but the applets is described by the other fragments too, so it is the same.
  let mixed : AppletTable :=
    ⟨other.applets, table.volumes, table.networks, table.ignored⟩
  have united : TableUnion others mixed :=
    ⟨again.applets, union.volumes.congr same, union.networks.congr same, union.ignored_congr same⟩
  have equal : mixed = other := united.unique again
  constructor
  · intro name
    rw [union.applets.names, again.applets.names]
    exact same.mentioned fun document => name ∈ document.applets.names
  · intro name applet copy found present
    exact (union.applets.records name applet found).reordered (entries_of_perm _ perm name)
      (again.applets.records name copy present)
  · exact (congrArg AppletTable.volumes equal :)
  · exact (congrArg AppletTable.networks equal :)
  · exact (congrArg AppletTable.ignored equal :)

end Fragments

/-! ### Tables -/

namespace AppletTable

variable {table other : AppletTable}

theorem Reordered.hooks_included (reordered : table.Reordered other) :
    table.HooksIncludedIn other := by
  intro name applet found
  obtain ⟨copy, present⟩ := Catalog.mem_names.mp
    ((reordered.names name).mp (Catalog.mem_names.mpr ⟨applet, found⟩))
  have alike := reordered.applets name applet copy found present
  exact ⟨copy, present, alike.named, alike.hooks⟩

theorem Reordered.accepted (reordered : table.Reordered other)
    (accepted : table.validate = .ok ()) : other.validate = .ok () :=
  reordered.hooks_included.accepted (fun name => (reordered.names name).mpr) accepted

end AppletTable

theorem merges_reordered {fragments others : List Fragment} (perm : fragments.Perm others)
    {table : AppletTable} (merged : merge fragments = .ok table) :
    ∃ other, merge others = .ok other ∧ table.Reordered other := by
  obtain ⟨unifiable, union⟩ := merged_union merged
  have moved := unifiable.congr (same_documents_of_perm perm)
  obtain ⟨draft, made⟩ := moved.draft
  have again := Draft.table_union made
  have reordered := union.reordered perm again
  have accepted := reordered.accepted (merge_accepted merged).2
  exact ⟨draft.table, by rw [moved.merge_eq again, accepted, ok_bind], reordered⟩

/-- Fragments merge in every order or in none. The tables have the same names and the same values;
only what applets list, and their hooks, may come in another order. -/
theorem merge_order_irrelevant (fragments others : List Fragment)
    (perm : fragments.Perm others) :
    ((∃ table, merge fragments = .ok table) ↔ ∃ other, merge others = .ok other) ∧
    ∀ table other, merge fragments = .ok table → merge others = .ok other →
      table.Reordered other := by
  refine ⟨⟨?_, ?_⟩, ?_⟩
  · intro merges
    obtain ⟨table, merged⟩ := merges
    obtain ⟨other, again, _⟩ := merges_reordered perm merged
    exact ⟨other, again⟩
  · intro merges
    obtain ⟨other, merged⟩ := merges
    obtain ⟨table, again, _⟩ := merges_reordered perm.symm merged
    exact ⟨table, again⟩
  · intro table other merged again
    obtain ⟨found, mergedOthers, reordered⟩ := merges_reordered perm merged
    cases again.symm.trans mergedOthers
    exact reordered

/-- Two fragments give a web server a port and a hook each. -/
def webParts : List Fragment :=
  let exposed (entry : AppletFragment) (port : String) : AppletFragment :=
    { entry with list := fun field => if field = .ports then [port] else [] }
  let secure : AppletFragment :=
    { AppletFragment.unset with hooks := fun side => if side = .before then ["log"] else [] }
  [⟨"base", .ofApplet "db" (.ofImage "postgres" [])⟩,
    ⟨"log", .ofApplet "log" (.ofImage "fluentd" [])⟩,
    ⟨"site", .ofApplet "web" (exposed (.ofImage "nginx" ["db"]) "80:80")⟩,
    ⟨"secure", .ofApplet "web" (exposed secure "443:443")⟩]

theorem web_parts_merge_reversed :
    webParts.Perm webParts.reverse ∧
    merge webParts = .ok (mergedTable webParts) ∧
    merge webParts.reverse = .ok (mergedTable webParts.reverse) ∧
    (mergedTable webParts).Reordered (mergedTable webParts.reverse) ∧
    ((mergedTable webParts).get? "web").map (fun web => (web.list .ports, web.hooks .before)) =
      some (["80:80", "443:443"], ["db", "log"]) ∧
    ((mergedTable webParts.reverse).get? "web").map
        (fun web => (web.list .ports, web.hooks .before)) =
      some (["443:443", "80:80"], ["log", "db"]) := by
  have perm : webParts.Perm webParts.reverse := (List.reverse_perm webParts).symm
  have merged : merge webParts = .ok (mergedTable webParts) := by rfl
  have reversed : merge webParts.reverse = .ok (mergedTable webParts.reverse) := by rfl
  have reordered := (merge_order_irrelevant webParts webParts.reverse perm).2 _ _ merged reversed
  exact ⟨perm, merged, reversed, reordered, rfl, rfl⟩

end ContainerApplets
