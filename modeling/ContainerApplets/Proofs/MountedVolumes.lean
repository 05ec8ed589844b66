import ContainerApplets.Proofs.Merge.Unification
import ContainerApplets.Proofs.Resources

/-!
Volumes that are mounted by their keys. A mount uses the first declared volume that its source fits,
so a volume is passed over where a smaller key has a volume that is named like its own key. What is
created for it then depends on the other mounts.
-/

namespace ContainerApplets.AppletTable

/-- A declared volume with a smaller key is named like this key. -/
def Covered (table : AppletTable) (key : String) : Prop :=
  ∃ other resource, table.volumes.get? other = some resource ∧ other < key ∧ resource.name = key

variable {table : AppletTable} {root : Applet} {order : List Applet} {extra : List String}
  {options : RunOptions} {commands : List Command} {key : String} {volume : Resource}

/-- By its key a volume is used exactly if nothing covers it. -/
theorem uses_by_key_iff {mount : String} (declared : table.volumes.get? key = some volume)
    (source : mountSource mount = key) :
    table.Uses mount (key, volume) ↔ ¬table.Covered key := by
  constructor
  · intro uses covered
    obtain ⟨other, resource, found, less, named⟩ := covered
    exact uses.first (other, resource) ⟨found, .inr (named.trans source.symm)⟩ less
  · intro uncovered
    refine ⟨⟨declared, .inl source.symm⟩, ?_⟩
    intro other fits less
    rcases fits.fits with same | named
    · rw [same, source] at less
      exact absurd less (String.lt_irrefl key)
    · exact uncovered ⟨other.1, other.2, fits.declared, less, named.trans source⟩

/-- An applet is pulled, killed and run; none of these commands creates anything. -/
theorem creation_not_mem_hook_commands (kind : String) (other : kind ≠ "kill") :
    creation kind options key volume ∉ hookCommands root order extra options := by
  intro member
  obtain ⟨applet, _, listed⟩ := List.mem_flatMap.mp member
  simp only [Applet.commands, List.mem_append, List.mem_singleton] at listed
  rcases listed with (pulled | killed) | run
  · split at pulled
    · exact Bool.noConfusion (congrArg Command.silent (List.mem_singleton.mp pulled))
    · exact absurd pulled List.not_mem_nil
  · split at killed
    · have words := congrArg Command.tokens (List.mem_singleton.mp killed)
      simp only [creation, Command.quiet, killLine, List.cons_append, List.cons.injEq] at words
      exact other words.2.1
    · exact absurd killed List.not_mem_nil
  · exact Bool.noConfusion (congrArg Command.silent run)

/-- A volume is created by a plan if some mount uses one that is created in the same words. -/
theorem creation_mem_plan_iff (planned : table.plan root extra options = .ok commands)
    (closed : table.closure root = .ok order) :
    creation "volume" options key volume ∈ commands ↔
      ∃ applet ∈ order, ∃ mount ∈ applet.list .volumes, ∃ used, table.Uses mount used ∧
        creation "volume" options used.1 used.2 = creation "volume" options key volume := by
  have composed : table.resourceCommands order options ++ hookCommands root order extra options =
      commands := by
    rw [plan, closed, ok_bind, pure_eq_ok] at planned
    exact Except.ok.inj planned
  have network : creation "volume" options key volume ∉
      creations "network" options table.networks.entries := by
    intro member
    obtain ⟨entry, _, same⟩ := List.mem_map.mp member
    have words := congrArg Command.tokens same
    simp [creation] at words
  have created := table.volumes_for_created (order.flatMap fun applet => applet.list .volumes)
  rw [← composed, resource_commands_eq, List.mem_append, List.mem_append, or_iff_right network,
    or_iff_left (creation_not_mem_hook_commands "volume" (by decide)), creations, List.mem_map]
  simp only [created.used, List.mem_flatMap]
  constructor
  · intro found
    obtain ⟨used, ⟨mount, ⟨applet, reached, mounted⟩, uses⟩, same⟩ := found
    exact ⟨applet, reached, mount, mounted, used, uses, same⟩
  · intro found
    obtain ⟨applet, reached, mount, mounted, used, uses, same⟩ := found
    exact ⟨used, ⟨mount, ⟨applet, reached, mounted⟩, uses⟩, same⟩

/-- A declared volume that is mounted by its key is created, unless a smaller key has a volume that
is named like it. In that case it is created only if some mount uses a volume that is created in the
same words. -/
theorem mounted_volume_created_iff (planned : table.plan root extra options = .ok commands)
    (closed : table.closure root = .ok order) (declared : table.volumes.get? key = some volume)
    (mounted : ∃ applet ∈ order, ∃ mount ∈ applet.list .volumes, mountSource mount = key) :
    creation "volume" options key volume ∈ commands ↔
      ¬table.Covered key ∨
      ∃ applet ∈ order, ∃ mount ∈ applet.list .volumes, ∃ used, table.Uses mount used ∧
        creation "volume" options used.1 used.2 = creation "volume" options key volume := by
  rw [creation_mem_plan_iff planned closed]
  refine ⟨.inr, fun either => either.elim ?_ id⟩
  intro uncovered
  obtain ⟨applet, reached, mount, listed, source⟩ := mounted
  exact ⟨applet, reached, mount, listed, (key, volume),
    (uses_by_key_iff declared source).mpr uncovered, rfl⟩

/-! ### A cover that matters, and one that does not -/

/-- An applet that mounts one volume by its key, and two declared volumes. -/
def mounting (other : String) (resource : ResourceFragment) : List Fragment := [
  ⟨"web", .ofApplet "web" { AppletFragment.ofImage "nginx" [] with
    list := fun field => if field = .volumes then ["data:/srv"] else [] }⟩,
  ⟨"site", { FragmentDocument.empty with
    volumes := (Catalog.empty.insert "data" ⟨none, some "nfs"⟩).insert other resource }⟩]

def mountingWeb (other : String) (resource : ResourceFragment) : Applet :=
  (mergedTable (mounting other resource)).get? "web" |>.getD (.bare "web")

/-- The volume behind the key that is mounted loses its driver to a volume of another key. -/
theorem covered_volume_missing :
    let fragments := mounting "archive" ⟨some "data", none⟩
    let web := mountingWeb "archive" ⟨some "data", none⟩
    let options : RunOptions := ⟨"docker", false, .replace⟩
    let commands := [
      Command.quiet "docker" ["volume", "create", "data"],
      .loud "docker" ["run", "--rm", "--interactive", "-v", "data:/srv", "nginx:latest"]]
    merge fragments = .ok (mergedTable fragments) ∧
    (mergedTable fragments).get? "web" = some web ∧
    (mergedTable fragments).plan web [] options = .ok commands ∧
    (mergedTable fragments).closure web = .ok [web] ∧
    (mergedTable fragments).volumes.get? "data" = some ⟨"data", some "nfs"⟩ ∧
    "data:/srv" ∈ web.list .volumes ∧ mountSource "data:/srv" = "data" ∧
    creation "volume" options "data" ⟨"data", some "nfs"⟩ ∉ commands := by
  refine ⟨rfl, rfl, rfl, rfl, rfl, by decide, by decide, by decide⟩

/-- A volume that is named alike under a greater key takes nothing away. -/
theorem volume_created_beside_namesake :
    let fragments := mounting "shared" ⟨some "data", none⟩
    let web := mountingWeb "shared" ⟨some "data", none⟩
    let options : RunOptions := ⟨"docker", false, .replace⟩
    ∃ commands, merge fragments = .ok (mergedTable fragments) ∧
      (mergedTable fragments).plan web [] options = .ok commands ∧
      (mergedTable fragments).closure web = .ok [web] ∧
      (mergedTable fragments).volumes.get? "data" = some ⟨"data", some "nfs"⟩ ∧
      (∃ applet ∈ [web], ∃ mount ∈ applet.list .volumes, mountSource mount = "data") ∧
      ¬(mergedTable fragments).Covered "data" ∧
      creation "volume" options "data" ⟨"data", some "nfs"⟩ ∈ commands := by
  intro fragments web options
  have planned : (mergedTable fragments).plan web [] options = .ok [
      .quiet "docker" ["volume", "create", "--driver", "nfs", "data"],
      .loud "docker" ["run", "--rm", "--interactive", "-v", "data:/srv", "nginx:latest"]] := by
    rfl
  have closed : (mergedTable fragments).closure web = .ok [web] := by rfl
  have declared :
      (mergedTable fragments).volumes.get? "data" = some ⟨"data", some "nfs"⟩ := by rfl
  have mounted : ∃ applet ∈ [web], ∃ mount ∈ applet.list .volumes, mountSource mount = "data" :=
    ⟨web, List.mem_singleton_self web, "data:/srv", by decide, by decide⟩
  have uncovered : ¬(mergedTable fragments).Covered "data" := by
    intro covered
    obtain ⟨other, resource, found, less, _⟩ := covered
    have listed := Catalog.mem_entries.mpr found
    rw [show (mergedTable fragments).volumes.entries =
      [("data", ⟨"data", some "nfs"⟩), ("shared", ⟨"data", none⟩)] from rfl] at listed
    simp only [List.mem_cons, Prod.mk.injEq, List.not_mem_nil, or_false] at listed
    rcases listed with ⟨rfl, _⟩ | ⟨rfl, _⟩
    · exact absurd less (by decide)
    · exact absurd less (by decide)
  exact ⟨_, rfl, planned, closed, declared, mounted, uncovered,
    (mounted_volume_created_iff planned closed declared mounted).mpr (.inl uncovered)⟩

end ContainerApplets.AppletTable
