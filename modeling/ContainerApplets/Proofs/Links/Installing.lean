import ContainerApplets.Proofs.Actions
import ContainerApplets.Proofs.Files.Linking
import ContainerApplets.Proofs.Links.Entries

/-!
What installing and uninstalling change. As long as the names of the applets lead to single entries,
only links in the install directory are put there, replaced and taken away; a name that leads
elsewhere reaches links elsewhere.
-/

namespace ContainerApplets

/-- Nothing or a link stands there. -/
def FileTree.IsFree (tree : FileTree) (place : Place) : Prop :=
  ∀ node, tree.node? place = some node → ∃ target, node = .link target

theorem FileTree.IsFree.of_node {tree other : FileTree} {place : Place} (free : tree.IsFree place)
    (same : other.node? place = tree.node? place) : other.IsFree place := by
  rw [IsFree, same]
  exact free

namespace Files

variable {files mid after : Files} {directory name entry : String} {names : List String}

/-- Whatever changes is a link in the directory, with the name of one of the applets. -/
def ChangesLinksIn (files : Files) (directory : String) (names : List String) (after : Files) :
    Prop :=
  ∀ place, after.tree.node? place ≠ files.tree.node? place →
    ∃ inside name entry, files.placeOf? directory = some inside ∧ name ∈ names ∧
      Path.names name = [entry] ∧ place = inside ++ [entry] ∧ files.tree.IsFree place ∧
      after.tree.IsFree place

namespace ChangesLinksIn

theorem refl (files : Files) : files.ChangesLinksIn directory names files :=
  fun _ different => absurd rfl different

theorem mono (changes : files.ChangesLinksIn directory names after) {more : List String}
    (among : names ⊆ more) : files.ChangesLinksIn directory more after := by
  intro place different
  obtain ⟨inside, name, entry, leads, member, rest⟩ := changes place different
  exact ⟨inside, name, entry, leads, among member, rest⟩

/-- Where the directory is may be lost on the way, but it does not move. -/
theorem trans (first : files.ChangesLinksIn directory names mid)
    (second : mid.ChangesLinksIn directory names after)
    (back : ∀ inside, mid.placeOf? directory = some inside →
      files.placeOf? directory = some inside) :
    files.ChangesLinksIn directory names after := by
  intro place different
  by_cases later : after.tree.node? place = mid.tree.node? place
  · obtain ⟨inside, name, entry, leads, member, single, same, before, free⟩ :=
      first place (later ▸ different)
    exact ⟨inside, name, entry, leads, member, single, same, before, free.of_node later⟩
  · obtain ⟨inside, name, entry, leads, member, single, same, between, free⟩ := second place later
    refine ⟨inside, name, entry, back inside leads, member, single, same, ?_, free⟩
    by_cases earlier : mid.tree.node? place = files.tree.node? place
    · exact between.of_node earlier.symm
    · obtain ⟨_, _, _, _, _, _, _, before, _⟩ := first place earlier
      exact before

theorem of_spot {inside : Place} (single : Path.names name = [entry])
    (leads : files.placeOf? directory = some inside)
    (elsewhere : ∀ place, place ≠ inside ++ [entry] →
      after.tree.node? place = files.tree.node? place)
    (before : files.tree.IsFree (inside ++ [entry]))
    (free : after.tree.IsFree (inside ++ [entry])) :
    files.ChangesLinksIn directory [name] after := by
  intro place different
  by_cases same : place = inside ++ [entry]
  · subst same
    exact ⟨inside, name, entry, leads, List.mem_singleton_self name, single, rfl, before, free⟩
  · exact absurd (elsewhere place same) different

end ChangesLinksIn

/-- What a step with one link does. -/
structure StepsAt (files : Files) (directory name : String) (after : Files) : Prop where
  changes : files.ChangesLinksIn directory [name] after
  sound : after.Sound
  back : ∀ inside, after.placeOf? directory = some inside → files.placeOf? directory = some inside

theorem StepsAt.refl (sound : files.Sound) : files.StepsAt directory name files :=
  ⟨.refl files, sound, fun _ leads => leads⟩

theorem StepsAt.trans (first : files.StepsAt directory name mid)
    (second : mid.StepsAt directory name after) : files.StepsAt directory name after :=
  ⟨first.changes.trans second.changes first.back, second.sound,
    fun inside leads => first.back inside (second.back inside leads)⟩

theorem of_file_eq_ok_iff {Value : Type} {context : String} {result : Except FileFault Value}
    {value : Value} : Outcome.ofFile context result = .ok value ↔ result = .ok value := by
  cases result <;> simp [Outcome.ofFile]

section Steps

variable (enters : Path.NamesEntry name entry) (named : directory ≠ "") (sound : files.Sound)

include enters named sound

theorem remove_steps (link : files.isLink (linkPath directory name) = true)
    (removes : files.removeFile (linkPath directory name) = .ok after) :
    files.StepsAt directory name after := by
  have below := Path.below_join directory enters.relative enters.single
  obtain ⟨inside, target, leads, stands, removed⟩ := remove_link_below below named link
  cases removes.symm.trans removed
  obtain ⟨soundAfter, grows⟩ := sound.remove_link stands
  have lost := sound.tree.closed.node_remove (by simp) (by simp [stands] : files.tree.node?
    (inside ++ [entry]) ≠ some .directory)
  refine ⟨.of_spot enters.single leads (fun place other => by rw [lost, if_neg other]) ?_ ?_,
    soundAfter, fun other found => place_of_grows found grows rfl⟩
  · exact fun node present => ⟨target, Option.some.inj (present.symm.trans stands)⟩
  · intro node present
    rw [lost, if_pos rfl] at present
    cases present

theorem clear_link_steps (cleared : clearLink (linkPath directory name) files = .ok after) :
    files.StepsAt directory name after := by
  rw [clearLink] at cleared
  split at cleared
  · next link => exact remove_steps enters named sound link (of_file_eq_ok_iff.mp cleared)
  · split at cleared
    · cases cleared
    · cases cleared
      exact .refl sound

theorem remove_link_steps {removed : Bool}
    (removes : removeLink directory name files = .ok (removed, after)) :
    files.StepsAt directory name after := by
  rw [removeLink] at removes
  split at removes
  · next link =>
    obtain ⟨_, removal, same⟩ := bind_eq_ok.mp removes
    cases same
    exact remove_steps enters named sound link (of_file_eq_ok_iff.mp removal)
  · split at removes
    · cases removes
    · cases removes
      exact .refl sound

/-- Where a link is put, the directory is there, before and after. -/
theorem place_link_steps {executable : String}
    (placed : placeLink executable (linkPath directory name) files = .ok after) :
    files.StepsAt directory name after ∧ ∃ inside,
      files.placeOf? directory = some inside ∧ after.placeOf? directory = some inside := by
  have below := Path.below_join directory enters.relative enters.single
  obtain ⟨inside, leads, vacant, clean, rfl⟩ :=
    make_link_below below named (of_file_eq_ok_iff.mp placed)
  have stands := sound.found_new vacant
  have proper := FileTree.proper_append (FileTree.proper_of_node stands.1) stands.2.2
  have grows := FileTree.grows_set stands.2.1 (.link executable)
  have onward : placeOf? { files with tree := files.tree.set (inside ++ [entry]) _ } directory =
      some inside := place_of_grows leads grows rfl
  refine ⟨⟨.of_spot enters.single leads ?_ ?_ ?_, sound.set_vacant stands ?_, ?_⟩, inside, leads,
    onward⟩
  · exact fun place other => by rw [FileTree.node_set proper, if_neg other]
  · intro node present
    cases stands.2.1.symm.trans present
  · intro node present
    rw [FileTree.node_set proper, if_pos rfl] at present
    exact ⟨executable, (Option.some.inj present).symm⟩
  · intro target same
    cases same
    exact clean
  · intro other found
    cases onward.symm.trans found
    exact leads

end Steps

end Files

/-! ### One applet -/

namespace Action

open Files (ChangesLinksIn StepsAt)
open ContainerApplets.Path (NamesEntry)

variable {host : Host} {files : Files} {directory name entry executable : String}

/-- How putting a link can end. If it is there, so is the directory, at the place where it was. -/
structure Relinks (files : Files) (directory name : String) (ended : Except Refusal Unit × World) :
    Prop where
  steps : files.StepsAt directory name ended.2.files
  stays : ended.1 = .ok () → ∃ inside, files.placeOf? directory = some inside ∧
    ended.2.files.placeOf? directory = some inside

section Steps

variable (enters : NamesEntry name entry) (named : directory ≠ "")

include enters named

theorem relink_relinks (world : World) (sound : world.files.Sound) :
    Relinks world.files directory name
      ((change (clearLink (linkPath directory name)) >>= fun _ =>
        change (placeLink executable (linkPath directory name))) world) := by
  rw [bind_apply, change_apply]
  cases cleared : clearLink (linkPath directory name) world.files with
  | error refusal => exact ⟨.refl sound, nofun⟩
  | ok between =>
      have first := Files.clear_link_steps enters named sound cleared
      dsimp only
      rw [change_apply]
      cases placed : placeLink executable (linkPath directory name) between with
      | error refusal => exact ⟨first, nofun⟩
      | ok after =>
          obtain ⟨second, inside, before, behind⟩ :=
            Files.place_link_steps enters named first.sound placed
          exact ⟨first.trans second, fun _ => ⟨inside, first.back inside before, behind⟩⟩

theorem install_one_relinks (host : Host) (world : World) (sound : world.files.Sound) :
    Relinks (world.files.makeDirectories directory).1 directory name
      (installOne host directory name world) := by
  have soundMade := ((Files.make_directories_makes world.files directory).keeps sound).1
  have linked : Relinks (world.files.makeDirectories directory).1 directory name
      (installLink host.executable directory name world) := by
    rw [installLink, bind_apply, make_directories_apply]
    rcases makes : world.files.makeDirectories directory with ⟨made, _ | fault⟩
    · rw [makes] at soundMade
      exact relink_relinks enters named ⟨made, world.lines, world.calls⟩ soundMade
    · rw [makes] at soundMade
      exact ⟨.refl soundMade, nofun⟩
  rw [installOne, bind_apply, within_apply]
  rcases ended : installLink host.executable directory name world with ⟨_ | ⟨⟩, after⟩
  · rw [ended] at linked
    exact ⟨linked.steps, nofun⟩
  · rw [ended] at linked
    exact ⟨linked.steps, fun _ => linked.stays rfl⟩

theorem uninstall_one_steps (world : World) (sound : world.files.Sound) :
    world.files.StepsAt directory name (uninstallOne directory name world).2.files := by
  have removed : world.files.StepsAt directory name
      (uninstallLink directory name world).2.files := by
    rw [uninstallLink, bind_apply, read_apply]
    cases removes : removeLink directory name world.files with
    | error refusal => exact .refl sound
    | ok found => exact Files.remove_link_steps enters named sound removes
  rw [uninstallOne, bind_apply, within_apply]
  rcases ended : uninstallLink directory name world with ⟨_ | found, after⟩
  · rw [ended] at removed
    exact removed
  · rw [ended] at removed
    exact removed

end Steps

/-! ### All targets -/

/-- The applets behind the first one find the directory where it was. -/
theorem Relinks.changes {rest : List String} {world : World}
    (relinks : Relinks files directory name (installOne host directory name world))
    (later : ∀ after : World, after.files.Sound →
      (∃ inside, after.files.placeOf? directory = some inside) →
      after.files.ChangesLinksIn directory rest
        (rest.forM (installOne host directory) after).2.files) :
    files.ChangesLinksIn directory (name :: rest)
      ((name :: rest).forM (installOne host directory) world).2.files := by
  rw [each_apply]
  rcases ended : installOne host directory name world with ⟨_ | ⟨⟩, after⟩
  · rw [ended] at relinks
    exact relinks.steps.changes.mono (by simp)
  · rw [ended] at relinks
    obtain ⟨inside, _, stays⟩ := relinks.stays rfl
    exact (relinks.steps.changes.mono (by simp)).trans
      ((later after relinks.steps.sound ⟨inside, stays⟩).mono (by simp)) relinks.steps.back

section Targets

variable {names : List String} (named : directory ≠ "")

include named

/-- Once the directory is there, it stays at its place until an applet is refused. -/
theorem install_each_changes (host : Host)
    (enters : ∀ name ∈ names, ∃ entry, NamesEntry name entry) (world : World)
    (sound : world.files.Sound) (there : ∃ inside, world.files.placeOf? directory = some inside) :
    world.files.ChangesLinksIn directory names
      (names.forM (installOne host directory) world).2.files := by
  induction names generalizing world with
  | nil => exact .refl world.files
  | cons name rest induction =>
      obtain ⟨first, later⟩ := List.forall_mem_cons.mp enters
      obtain ⟨_, first⟩ := first
      have relinks := install_one_relinks first named host world sound
      obtain ⟨inside, leads⟩ := there
      obtain ⟨checked, arrives⟩ := Files.place_of_eq_some_iff.mp leads
      rw [Files.make_directories_of_is_directory
        (Files.is_directory_iff.mpr ⟨checked, inside, arrives⟩)] at relinks
      exact relinks.changes (induction later)

/-- The directory is made for the first applet, if there is one. -/
theorem install_all_changes (host : Host)
    (enters : ∀ name ∈ names, ∃ entry, NamesEntry name entry) (world : World)
    (sound : world.files.Sound) :
    ∃ ready, (ready = world.files ∨ ready = (world.files.makeDirectories directory).1) ∧
      ready.ChangesLinksIn directory names
        (names.forM (installOne host directory) world).2.files := by
  cases names with
  | nil => exact ⟨world.files, .inl rfl, .refl world.files⟩
  | cons name rest =>
      obtain ⟨first, later⟩ := List.forall_mem_cons.mp enters
      obtain ⟨_, first⟩ := first
      have relinks := install_one_relinks first named host world sound
      exact ⟨_, .inr rfl, relinks.changes (install_each_changes named host later)⟩

theorem uninstall_all_changes (enters : ∀ name ∈ names, ∃ entry, NamesEntry name entry)
    (world : World) (sound : world.files.Sound) :
    world.files.ChangesLinksIn directory names
      (names.forM (uninstallOne directory) world).2.files := by
  induction names generalizing world with
  | nil => exact .refl world.files
  | cons name rest induction =>
      obtain ⟨first, later⟩ := List.forall_mem_cons.mp enters
      obtain ⟨_, first⟩ := first
      have steps := uninstall_one_steps first named world sound
      rw [each_apply]
      rcases ended : uninstallOne directory name world with ⟨_ | ⟨⟩, after⟩
      · rw [ended] at steps
        exact steps.changes.mono (by simp)
      · rw [ended] at steps
        exact (steps.changes.mono (by simp)).trans
          ((induction later after steps.sound).mono (by simp)) steps.back

end Targets

variable {settings : Settings} {table : AppletTable} {target : Target} {names : List String}

theorem session_apply (set : host.settings = .ok settings) :
    session host (start files) =
      (.ok ⟨settings, files.here.path, host.lookup, files⟩, start files) := by
  rw [session, bind_apply, Action.settings, of_outcome_apply, set]
  rfl

theorem targets_apply (set : host.settings = .ok settings)
    (loaded : Session.table ⟨settings, files.here.path, host.lookup, files⟩ = .ok table)
    (chosen : targets table target = .ok names) (next : Session → List String → Action Unit) :
    (session host >>= fun session => Action.table session >>= fun table =>
      ofOutcome (Outcome.ofResult (targets table target)) >>= next session) (start files) =
      next ⟨settings, files.here.path, host.lookup, files⟩ names (start files) := by
  rw [bind_apply, session_apply set]
  dsimp only
  rw [bind_apply, Action.table, of_outcome_apply, loaded]
  dsimp only
  rw [bind_apply, of_outcome_apply, chosen]
  rfl

end Action

/-- Among the applets, exactly those with the name of a single entry have links that lie in the
install directory, wherever it is. If all targets are such applets, installing and uninstalling
change links in it and nothing else, once the directory has been made. -/
theorem links_stay_in_directory {host : Host} {files : Files} {settings : Settings}
    {table : AppletTable} {target : Target} {names : List String}
    (set : host.settings = .ok settings)
    (absolute : Path.isAbsolute settings.installDirectory = true) (sound : files.Sound)
    (loaded : Session.table ⟨settings, files.here.path, host.lookup, files⟩ = .ok table)
    (chosen : Action.targets table target = .ok names) :
    (∀ name ∈ table.applets.names, (∀ directory, Path.isAbsolute directory = true →
        Path.LiesIn directory (linkPath directory name)) ↔ ∃ entry, Path.NamesEntry name entry) ∧
    ((∀ name ∈ names, ∃ entry, Path.NamesEntry name entry) →
      (∃ ready, (ready = files ∨ ready = (files.makeDirectories settings.installDirectory).1) ∧
        ready.ChangesLinksIn settings.installDirectory names
          (((Request.install target).perform host).finish files).files) ∧
      files.ChangesLinksIn settings.installDirectory names
        (((Request.uninstall target).perform host).finish files).files) := by
  refine ⟨fun name _ => Path.link_lies_in_iff name, fun enters => ?_⟩
  have named := Path.ne_empty_of_absolute absolute
  constructor
  · rw [Action.finish_files, Request.perform, Action.install,
      Action.targets_apply set loaded chosen]
    exact Action.install_all_changes named host enters (Action.start files) sound
  · rw [Action.finish_files, Request.perform, Action.uninstall,
      Action.targets_apply set loaded chosen]
    exact Action.uninstall_all_changes named enters (Action.start files) sound

/-! ### A link elsewhere -/

/-- One fragment, an empty install directory, and a link of another origin next to it. -/
def optFiles (text : String) : Files where
  tree := (((((FileTree.empty.set ["home"] .directory).set ["home", ".dockerbox"] .directory).set
    ["opt"] .directory).set ["opt", "bin"] .directory).set ["opt", "evil"]
    (.link "/usr/bin/tool")).set ["home", ".dockerbox", "web.dbx.yaml"] (.file text false)
  here := []

theorem opt_files_sound (text : String) : (optFiles text).Sound := by
  have directory (target : String) (same : FileNode.directory = .link target) :
      '\x00' ∉ target.toList := by cases same
  have home := FileTree.empty_sound.set (by decide : Place.isProper ([] ++ ["home"]) = true) rfl
    (by decide) directory
  have root := home.set (by decide : Place.isProper (["home"] ++ [".dockerbox"]) = true) rfl
    (by decide) directory
  have opt := root.set (by decide : Place.isProper ([] ++ ["opt"]) = true) rfl (by decide)
    directory
  have bin := opt.set (by decide : Place.isProper (["opt"] ++ ["bin"]) = true) rfl (by decide)
    directory
  have evil := bin.set (by decide : Place.isProper (["opt"] ++ ["evil"]) = true) rfl (by decide)
    (fun target (same : FileNode.link "/usr/bin/tool" = .link target) => by
      cases same
      decide)
  have fragment := evil.set
    (by decide : Place.isProper (["home", ".dockerbox"] ++ ["web.dbx.yaml"]) = true) rfl (by decide)
    (nofun : ∀ target, FileNode.file text false = .link target → _)
  exact ⟨fragment, rfl⟩

def optSettings : Settings where
  rootDirectory := "/home/.dockerbox"
  installDirectory := "/opt/bin"
  separator := "--"
  runtime := "docker"
  trailing := .replace

def optHost : Host where
  lookup := fun name =>
    if name = "HOME" then some "/home"
    else if name = Settings.installVariable then some "/opt/bin"
    else none
  home := none
  network := ⟨fun _ => .error "no connection"⟩
  executable := "/usr/bin/dockerbox"
  now := default
  stdinIsTerminal := false
  start := fun _ _ => .error .missing

def optSession (text : String) : Session := ⟨optSettings, "/", optHost.lookup, optFiles text⟩

def webText : String := "applets:\n  web:\n    image: nginx\n"

def webTable : AppletTable := (optSession webText).table.toOption.getD default

/-- The applet has a name that leads to an entry, and its link is put into the directory. -/
theorem web_link_stays_in_directory :
    (∃ entry, Path.NamesEntry "web" entry) ∧ (optFiles webText).Sound ∧
    optHost.settings = .ok optSettings ∧
    Path.isAbsolute optSettings.installDirectory = true ∧
    (optSession webText).table = .ok webTable ∧
    Action.targets webTable .all = .ok ["web"] ∧
    (∃ ready,
      (ready = optFiles webText ∨ ready = ((optFiles webText).makeDirectories "/opt/bin").1) ∧
      ready.ChangesLinksIn "/opt/bin" ["web"]
        (((Request.install .all).perform optHost).finish (optFiles webText)).files) ∧
    (optFiles webText).ChangesLinksIn "/opt/bin" ["web"]
      (((Request.uninstall .all).perform optHost).finish (optFiles webText)).files ∧
    (((Request.install .all).perform optHost).finish (optFiles webText)).files.tree.node?
      ["opt", "bin", "web"] = some (.link "/usr/bin/dockerbox") := by
  have set : optHost.settings = .ok optSettings := by decide +kernel
  have absolute : Path.isAbsolute optSettings.installDirectory = true := by decide
  have sound := opt_files_sound webText
  have evaluated : (optSession webText).table = .ok webTable ∧
      Action.targets webTable .all = .ok ["web"] ∧
      (((Request.install .all).perform optHost).finish (optFiles webText)).files.tree.node?
        ["opt", "bin", "web"] = some (.link "/usr/bin/dockerbox") := by decide +kernel
  obtain ⟨loaded, chosen, linked⟩ := evaluated
  have web : Path.NamesEntry "web" "web" := ⟨by decide, by decide, by decide⟩
  obtain ⟨_, stays⟩ := links_stay_in_directory set absolute sound loaded chosen
  obtain ⟨installs, uninstalls⟩ := stays (by simpa using ⟨"web", web⟩)
  exact ⟨⟨"web", web⟩, sound, set, absolute, loaded, chosen, installs, uninstalls, linked⟩

def evilText : String := "applets:\n  ../evil:\n    image: alpine\n"

/-- The name of an applet leads out of the install directory: its link is put next to the
directory, over a link that was there, or that link is taken away. -/
theorem link_leaves_directory :
    (optSession evilText).table.toOption.map (·.applets.names) = some ["../evil"] ∧
    Path.isAbsolute optSettings.installDirectory = true ∧
    ¬Path.LiesIn optSettings.installDirectory
      (linkPath optSettings.installDirectory "../evil") ∧
    (optFiles evilText).placeOf? optSettings.installDirectory = some ["opt", "bin"] ∧
    (optFiles evilText).tree.node? ["opt", "evil"] = some (.link "/usr/bin/tool") ∧
    (((Request.install .all).perform optHost).finish (optFiles evilText)).files.tree.node?
      ["opt", "evil"] = some (.link "/usr/bin/dockerbox") ∧
    (((Request.uninstall .all).perform optHost).finish (optFiles evilText)).files.tree.node?
      ["opt", "evil"] = none := by
  have evaluated :
      (optSession evilText).table.toOption.map (·.applets.names) = some ["../evil"] ∧
      (optFiles evilText).placeOf? optSettings.installDirectory = some ["opt", "bin"] ∧
      (optFiles evilText).tree.node? ["opt", "evil"] = some (.link "/usr/bin/tool") ∧
      (((Request.install .all).perform optHost).finish (optFiles evilText)).files.tree.node?
        ["opt", "evil"] = some (.link "/usr/bin/dockerbox") ∧
      (((Request.uninstall .all).perform optHost).finish (optFiles evilText)).files.tree.node?
        ["opt", "evil"] = none := by decide +kernel
  obtain ⟨loaded, rest⟩ := evaluated
  refine ⟨loaded, by decide, fun lies => ?_, rest⟩
  obtain ⟨entry, whole, _⟩ := (Path.lies_in_iff (by decide) (by decide)).mp lies
  have lengths := congrArg List.length whole
  rw [List.length_append, List.length_singleton] at lengths
  exact absurd lengths (by decide)

end ContainerApplets
