import ContainerApplets.Proofs.Links.Installing

/-!
Which applet an installed link runs. The program looks at the last component of the path by which
it was called, so a link selects its own applet if the name of the applet is a single component and
is not the program's own name.
-/

namespace ContainerApplets

namespace Path

theorem IsPlain.names_entry {name : String} (plain : IsPlain name) : NamesEntry name name :=
  ⟨plain.relative, plain.names_eq, fun up => plain.proper (by simp [up])⟩

end Path

/-- A link with this name stands for the applet of this name. -/
structure SelectsItself (name : String) : Prop where
  plain : Path.IsPlain name
  other : name ≠ CommandLine.programName

theorem applet_of_link_iff (directory name : String) :
    appletOfPath? (linkPath directory name) = some name ↔ SelectsItself name := by
  rw [appletOfPath?, linkPath]
  constructor
  · intro selects
    split at selects
    case h_2 => cases selects
    case h_1 last found =>
      split at selects
      case isTrue => cases selects
      case isFalse other =>
        cases selects
        exact ⟨Path.plain_of_file_name found, other⟩
  · intro selects
    rw [Path.file_name_join directory selects.plain]
    exact if_neg selects.other

namespace Action

variable {host : Host} {files : Files} {directory name entry : String} {world after : World}

/-- Once an applet is installed, there is a link to the program in the directory. -/
theorem install_one_stands (enters : Path.NamesEntry name entry) (named : directory ≠ "")
    (sound : world.files.Sound)
    (installs : installOne host directory name world = (.ok (), after)) :
    ∃ inside, after.files.placeOf? directory = some inside ∧
      after.files.tree.node? (inside ++ [entry]) = some (.link host.executable) := by
  rw [installOne, bind_apply_eq_ok] at installs
  obtain ⟨_, linked, links, printed⟩ := installs
  cases printed
  rw [within_apply_eq_ok, installLink, bind_apply_eq_ok] at links
  obtain ⟨_, made, makes, links⟩ := links
  rw [bind_apply_eq_ok] at links
  obtain ⟨_, cleared, clears, places⟩ := links
  obtain ⟨between, free, rfl⟩ := change_apply_eq_ok.mp clears
  obtain ⟨ended, placed, rfl⟩ := change_apply_eq_ok.mp places
  have soundMade : made.files.Sound := by
    have keeps := ((Files.make_directories_makes world.files directory).keeps sound).1
    rw [make_directories_apply] at makes
    split at makes
    · cases makes
    · next same =>
      cases makes
      rw [same] at keeps
      exact keeps
  have soundBetween := (Files.clear_link_steps enters named soundMade free).sound
  have below := Path.below_join directory enters.relative enters.single
  obtain ⟨inside, leads, vacant, _, rfl⟩ :=
    Files.make_link_below below named (Files.of_file_eq_ok_iff.mp placed)
  obtain ⟨_, spot, before, behind⟩ := Files.place_link_steps enters named soundBetween placed
  cases leads.symm.trans before
  have stands := soundBetween.found_new vacant
  refine ⟨inside, behind, ?_⟩
  have proper := FileTree.proper_append (FileTree.proper_of_node stands.1) stands.2.2
  exact (FileTree.node_set proper _ _).trans (if_pos rfl)

/-- The command that installs one applet does so in the directory of the settings. -/
theorem installed_of_install {settings : Settings} (set : host.settings = .ok settings)
    (installs : install host (.one name) (start files) = (.ok (), after)) :
    installOne host settings.installDirectory name (start files) = (.ok (), after) := by
  rw [install, bind_apply_eq_ok] at installs
  obtain ⟨_, _, opened, installs⟩ := installs
  cases (session_apply set).symm.trans opened
  rw [bind_apply_eq_ok] at installs
  obtain ⟨table, _, loaded, installs⟩ := installs
  obtain ⟨_, rfl⟩ := of_outcome_apply_eq_ok.mp loaded
  rw [bind_apply_eq_ok] at installs
  obtain ⟨names, _, chosen, installs⟩ := installs
  obtain ⟨target, rfl⟩ := of_outcome_apply_eq_ok.mp chosen
  obtain ⟨_, _, single⟩ := bind_eq_ok.mp (of_result_eq_ok_iff.mp target)
  cases single
  rw [each_apply] at installs
  split at installs
  · next same =>
    cases installs
    exact same
  · cases installs

end Action

/-- What an installed applet can rely on. -/
structure LinkRuns (host : Host) (directory name : String) (files : Files) : Prop where
  /-- There is a link to the program in the directory. -/
  stands : ∃ inside, files.placeOf? directory = some inside ∧
    files.tree.node? (inside ++ [name]) = some (.link host.executable)
  /-- Called by the link, the program runs the applet and hands all arguments on. -/
  runs : ∀ arguments, launch host (linkPath directory name :: arguments) files =
    (Action.run host name arguments).finish files

/-- By its link exactly those applets are selected whose names are single components and not the
program's own name, whatever the install directory is. If such an applet has been installed, calling
its link runs it. -/
theorem link_runs_applet_iff (name : String) :
    (∀ directory, appletOfPath? (linkPath directory name) = some name ↔ SelectsItself name) ∧
    (SelectsItself name → ∀ (host : Host) (settings : Settings) (files : Files) (after : World),
      host.settings = .ok settings → Path.isAbsolute settings.installDirectory = true →
      files.Sound →
      (Request.install (.one name)).perform host (Action.start files) = (.ok (), after) →
      LinkRuns host settings.installDirectory name after.files) := by
  refine ⟨fun directory => applet_of_link_iff directory name, ?_⟩
  intro selects host settings files after set absolute sound installs
  have named := Path.ne_empty_of_absolute absolute
  constructor
  · exact Action.install_one_stands selects.plain.names_entry named sound
      (Action.installed_of_install set installs)
  · intro arguments
    have chosen := (applet_of_link_iff settings.installDirectory name).mpr selects
    rw [launch, Request.ofArguments, List.headD_cons, chosen]
    rfl

def installation (name text : String) : Except Refusal Unit × World :=
  (Request.install (.one name)).perform optHost (Action.start (optFiles text))

theorem web_link_runs_applet :
    SelectsItself "web" ∧ optHost.settings = .ok optSettings ∧
    Path.isAbsolute optSettings.installDirectory = true ∧ (optFiles webText).Sound ∧
    (installation "web" webText).1 = .ok () ∧ appletOfPath? "/opt/bin/web" = some "web" ∧
    LinkRuns optHost "/opt/bin" "web" (installation "web" webText).2.files := by
  have selects : SelectsItself "web" := ⟨⟨by decide, by decide⟩, by decide⟩
  have set : optHost.settings = .ok optSettings := by decide +kernel
  have absolute : Path.isAbsolute optSettings.installDirectory = true := by decide
  have sound := opt_files_sound webText
  have installs : (installation "web" webText).1 = .ok () := by decide +kernel
  obtain ⟨selected, runs⟩ := link_runs_applet_iff "web"
  exact ⟨selects, set, absolute, sound, installs, (selected "/opt/bin").mpr selects,
    runs selects optHost optSettings (optFiles webText) (installation "web" webText).2 set
      absolute sound (Prod.ext installs rfl)⟩

def strayText : String :=
  "applets:\n  ../setup:\n    image: alpine\n  dockerbox:\n    image: debian\n" ++
  "  setup:\n    image: busybox\n"

/-- Both applets can be installed. The link of the first one runs an applet of another name, and the
link of the second one is the program by its own name. -/
theorem stray_links_select_otherwise :
    (optSession strayText).table.toOption.map (·.applets.names) =
      some ["../setup", "dockerbox", "setup"] ∧
    (installation "../setup" strayText).1 = .ok () ∧
    appletOfPath? (linkPath "/opt/bin" "../setup") = some "setup" ∧
    Request.ofArguments [linkPath "/opt/bin" "../setup", "sh"] = .ok (.run "setup" ["sh"]) ∧
    (installation "dockerbox" strayText).1 = .ok () ∧
    appletOfPath? (linkPath "/opt/bin" "dockerbox") = none ∧
    Request.ofArguments [linkPath "/opt/bin" "dockerbox", "version"] = .ok .version := by
  decide +kernel

end ContainerApplets
