import ContainerApplets.Proofs.Files.Entries
import ContainerApplets.Proofs.Links.Installing

/-!
One call that installs or uninstalls an applet. It asks two questions about the path of the link:
whether a link stands there, and whether the path leads to something. From the answers it knows
whether the entry of the applet may go.
-/

namespace ContainerApplets

inductive LinkCall
  | install (executable name : String)
  | uninstall (name : String)
  deriving DecidableEq

namespace LinkCall

def name : LinkCall → String
  | .install _ name | .uninstall name => name

/-- Uninstalling answers whether there was a link. -/
def perform (directory : String) : LinkCall → Action (Option Bool)
  | .install executable name => do
      Action.installLink executable directory name
      return none
  | .uninstall name => return some (← Action.uninstallLink directory name)

/-- Where the link leads that the call makes. -/
def target? : LinkCall → Option String
  | .install executable _ => some executable
  | .uninstall _ => none

/-- What the call leaves at its entry. -/
def leaves (call : LinkCall) : Option FileNode := call.target?.map .link

/-- What the call answers, by what stood at its entry. -/
def answer (stood : Option FileNode) : LinkCall → Option Bool
  | .install .. => none
  | .uninstall _ => some stood.isSome

end LinkCall

/-- The system can be asked about an entry with this name. -/
structure IsReachable (directory name : String) : Prop where
  plain : Path.IsPlain name
  short : name.utf8ByteSize ≤ FileTree.longestName
  checked : FileTree.checkPath (linkPath directory name) = .ok ()

instance (directory name : String) : Decidable (IsReachable directory name) :=
  decidable_of_iff (Path.IsPlain name ∧ name.utf8ByteSize ≤ FileTree.longestName ∧
      FileTree.checkPath (linkPath directory name) = .ok ())
    ⟨fun all => ⟨all.1, all.2.1, all.2.2⟩,
      fun reachable => ⟨reachable.plain, reachable.short, reachable.checked⟩⟩

/-- No path that the call gives to the system is refused as such. -/
structure LinkCall.IsPossible (directory : String) (call : LinkCall) : Prop where
  reachable : IsReachable directory call.name
  target : ∀ executable ∈ call.target?, FileTree.checkPath executable = .ok ()

instance (directory : String) (call : LinkCall) : Decidable (call.IsPossible directory) :=
  decidable_of_iff (IsReachable directory call.name ∧
      ∀ executable ∈ call.target?, FileTree.checkPath executable = .ok ())
    ⟨fun both => ⟨both.1, both.2⟩, fun possible => ⟨possible.reachable, possible.target⟩⟩

theorem FileTree.not_free_iff {tree : FileTree} {place : Place} :
    ¬tree.IsFree place ↔ ∃ node, tree.node? place = some node ∧ node.isLink = false := by
  constructor
  · intro blocked
    simp only [IsFree, not_forall] at blocked
    obtain ⟨node, stands, other⟩ := blocked
    refine ⟨node, stands, ?_⟩
    cases node with
    | link target => exact absurd ⟨target, rfl⟩ other
    | directory => rfl
    | file => rfl
  · intro stands free
    obtain ⟨node, stands, other⟩ := stands
    obtain ⟨target, rfl⟩ := free node stands
    cases other

namespace Files

variable {files after last : Files} {directory name : String} {inside place : Place}
  {node between : Option FileNode}

/-! ### What changes -/

/-- Something else stands at one place, and everywhere else the same. -/
structure BecomesAt (files : Files) (place : Place) (node : Option FileNode) (after : Files) :
    Prop where
  stands : after.tree.node? place = node
  elsewhere : ∀ other, other ≠ place → after.tree.node? other = files.tree.node? other
  here : after.here = files.here
  sound : after.Sound

theorem BecomesAt.refl (sound : files.Sound) (stands : files.tree.node? place = node) :
    files.BecomesAt place node files :=
  ⟨stands, fun _ _ => rfl, rfl, sound⟩

theorem BecomesAt.trans (first : files.BecomesAt place between after)
    (second : after.BecomesAt place node last) : files.BecomesAt place node last where
  stands := second.stands
  elsewhere := fun other different =>
    (second.elsewhere other different).trans (first.elsewhere other different)
  here := second.here.trans first.here
  sound := second.sound

/-! ### Past the links -/

/-- The links with these names in a directory are left out. -/
def without (files : Files) (inside : Place) (names : List String) : Files where
  tree := files.tree.keep fun place =>
    !(decide (∃ name ∈ names, place = inside ++ [name]) &&
      (files.tree.node? place).any FileNode.isLink)
  here := files.here

/-- The directory is there, and none of these links is on the way to it. -/
def LeadsPast (files : Files) (directory : String) (inside : Place) (names : List String) : Prop :=
  (files.without inside names).placeOf? directory = some inside

instance (files : Files) (directory : String) (inside : Place) (names : List String) :
    Decidable (files.LeadsPast directory inside names) :=
  inferInstanceAs (Decidable (_ = _))

theorem node_without {names : List String} {found : FileNode} :
    (files.without inside names).tree.node? place = some found ↔
      files.tree.node? place = some found ∧
        ((∃ name ∈ names, place = inside ++ [name]) → found.isLink = false) := by
  by_cases root : place = []
  · subst root
    simp only [FileTree.node?, List.isEmpty_nil, if_true, Option.some.injEq]
    refine ⟨?_, And.left⟩
    rintro rfl
    exact ⟨rfl, fun _ => rfl⟩
  · rw [without, FileTree.node_keep root]
    cases stands : files.tree.node? place with
    | none => simp
    | some node =>
        by_cases same : node = found
        · subst same
          by_cases among : ∃ name ∈ names, place = inside ++ [name] <;> simp [among]
        · simp [same]

theorem LeadsPast.leads {names : List String} (past : files.LeadsPast directory inside names) :
    files.placeOf? directory = some inside :=
  place_of_grows past (fun _ _ present => (node_without.mp present).1) rfl

/-- A change of one of the links does not move the directory. -/
theorem LeadsPast.becomes {names : List String} (past : files.LeadsPast directory inside names)
    (member : name ∈ names) (free : files.tree.IsFree (inside ++ [name]))
    (becomes : files.BecomesAt (inside ++ [name]) node after) :
    after.LeadsPast directory inside names := by
  refine place_of_grows past (fun other found present => ?_) becomes.here
  obtain ⟨stands, unlinked⟩ := node_without.mp present
  have different : other ≠ inside ++ [name] := by
    rintro rfl
    obtain ⟨target, rfl⟩ := free found stands
    cases unlinked ⟨name, member, rfl⟩
  exact node_without.mpr ⟨(becomes.elsewhere other different).trans stands, unlinked⟩

/-! ### What is spared -/

/-- Whatever is no link stays where it is. -/
structure Spares (files after : Files) : Prop where
  sound : after.Sound
  keeps : ∀ place node, files.tree.node? place = some node → node.isLink = false →
    after.tree.node? place = some node

theorem Spares.refl (sound : files.Sound) : files.Spares files :=
  ⟨sound, fun _ _ stands _ => stands⟩

theorem Spares.trans (first : files.Spares after) (second : after.Spares last) :
    files.Spares last :=
  ⟨second.sound, fun place node stands other =>
    second.keeps place node (first.keeps place node stands other) other⟩

theorem spares_of_grows (sound : after.Sound) (grows : files.tree.Grows after.tree) :
    files.Spares after :=
  ⟨sound, fun place node stands _ => grows place node stands⟩

section Spares

variable {path executable : String} (sound : files.Sound)

include sound

/-- The link that is found is the node that is removed. -/
theorem remove_spares (link : files.isLink path = true)
    (removes : files.removeFile path = .ok after) : files.Spares after := by
  obtain ⟨place, target, leads⟩ := is_link_iff.mp link
  have stands : files.tree.node? place = some (.link target) := sound.found leads
  rw [removeFile, leads] at removes
  cases removes
  rcases List.eq_nil_or_concat place with rfl | ⟨inside, last, rfl⟩
  · cases stands
  · rw [List.concat_eq_append] at stands ⊢
    refine ⟨(sound.remove_link stands).1, fun other node present kind => ?_⟩
    dsimp only
    rw [sound.tree.closed.node_remove (by simp) (by simp [stands]), if_neg]
    · exact present
    · rintro rfl
      cases stands.symm.trans present
      cases kind

theorem clear_link_spares (cleared : clearLink path files = .ok after) : files.Spares after := by
  rw [clearLink] at cleared
  split at cleared
  · next link => exact remove_spares sound link (of_file_eq_ok_iff.mp cleared)
  · split at cleared
    · cases cleared
    · cases cleared
      exact .refl sound

theorem place_link_spares (placed : placeLink executable path files = .ok after) :
    files.Spares after := by
  obtain ⟨inside, name, checked, _, leads, rfl⟩ := make_link_eq_ok (of_file_eq_ok_iff.mp placed)
  have stands := sound.found_new leads
  apply spares_of_grows
  · apply sound.set_vacant stands
    rintro target same
    cases same
    exact (check_eq_ok_iff.mp checked).1
  · exact FileTree.grows_set stands.2.1 _

theorem remove_link_spares {removed : Bool}
    (removes : removeLink directory name files = .ok (removed, after)) : files.Spares after := by
  rw [removeLink] at removes
  split at removes
  · next link =>
    obtain ⟨_, removal, same⟩ := bind_eq_ok.mp removes
    cases same
    exact remove_spares sound link (of_file_eq_ok_iff.mp removal)
  · split at removes
    · cases removes
    · cases removes
      exact .refl sound

end Spares

/-! ### What is asked -/

/-- The answers to the two questions about a path, by the entry that it names. -/
inductive Tells (files : Files) (path : String) : Option FileNode → Prop
  | vacant (link : files.isLink path = false) (present : files.exists? path = false) :
      Tells files path none
  | link {target : String} (link : files.isLink path = true) :
      Tells files path (some (.link target))
  | other {node : FileNode} (kind : node.isLink = false) (link : files.isLink path = false)
      (present : files.exists? path = true) : Tells files path (some node)

theorem Tells.of_free {path : String} (tells : files.Tells path (files.tree.node? place))
    (free : files.tree.IsFree place) :
    (files.isLink path = true ∧ (files.tree.node? place).isSome = true) ∨
      (files.isLink path = false ∧ files.exists? path = false ∧
        files.tree.node? place = none) := by
  generalize stands : files.tree.node? place = node at tells
  cases tells with
  | vacant link present => exact .inr ⟨link, present, rfl⟩
  | link link => exact .inl ⟨link, rfl⟩
  | other kind => exact absurd free (FileTree.not_free_iff.mpr ⟨_, stands, kind⟩)

theorem Tells.of_blocked {path : String} (tells : files.Tells path (files.tree.node? place))
    (blocked : ¬files.tree.IsFree place) :
    files.isLink path = false ∧ files.exists? path = true := by
  obtain ⟨node, stands, kind⟩ := FileTree.not_free_iff.mp blocked
  rw [stands] at tells
  cases tells with
  | link => cases kind
  | other _ link present => exact ⟨link, present⟩

section Entry

variable (reachable : IsReachable directory name) (leads : files.placeOf? directory = some inside)

include reachable leads

theorem find_link (follow : Bool) {found : FileTree.Found}
    (walks : ∀ left, files.tree.Walks follow left inside [name] found) :
    files.tree.find follow files.here (linkPath directory name) = .ok found := by
  obtain ⟨plain, _, checked⟩ := reachable
  apply find_of_arrives (Path.below_join directory plain.relative plain.names_eq)
    (Path.ends_in_name_join directory plain) checked
  · exact (place_of_eq_some_iff.mp leads).2
  · exact walks

theorem entry_tells :
    files.Tells (linkPath directory name) (files.tree.node? (inside ++ [name])) := by
  have named : FileTree.IsEntryName name := ⟨reachable.plain.proper, reachable.short⟩
  cases stands : files.tree.node? (inside ++ [name]) with
  | none =>
      have looked := find_link reachable leads false fun _ => .vacant named stands
      have followed := find_link reachable leads true fun _ => .vacant named stands
      apply Tells.vacant
      · rw [isLink, looked]
      · rw [exists?, node?, followed]
        rfl
  | some node =>
      have looked := find_link reachable leads false fun _ => named.walks stands
      cases node with
      | link target =>
          apply Tells.link
          rw [isLink, looked]
      | directory =>
          have followed := find_link reachable leads true
            fun _ => .down named stands .done
          apply Tells.other rfl
          · rw [isLink, looked]
          · rw [exists?, node?, followed]
            rfl
      | file text isExecutable =>
          have followed := find_link reachable leads true fun _ => .file named stands
          apply Tells.other rfl
          · rw [isLink, looked]
          · rw [exists?, node?, followed]
            rfl

/-! ### What is done -/

variable (sound : files.Sound)

include sound

theorem remove_at (link : files.isLink (linkPath directory name) = true) :
    ∃ after, files.removeFile (linkPath directory name) = .ok after ∧
      files.BecomesAt (inside ++ [name]) none after := by
  have below := Path.below_join directory reachable.plain.relative reachable.plain.names_eq
  have named := (check_eq_ok_iff.mp (place_of_eq_some_iff.mp leads).1).2.1
  obtain ⟨place, target, there, stands, removed⟩ := remove_link_below below named link
  cases leads.symm.trans there
  have lost := sound.tree.closed.node_remove (by simp) (by simp [stands] : files.tree.node?
    (inside ++ [name]) ≠ some .directory)
  refine ⟨_, removed, ?_, fun other different => ?_, rfl, (sound.remove_link stands).1⟩
  · rw [lost, if_pos rfl]
  · rw [lost, if_neg different]

theorem make_at {executable : String} (target : FileTree.checkPath executable = .ok ())
    (vacant : files.tree.node? (inside ++ [name]) = none) :
    ∃ after, files.makeLink executable (linkPath directory name) = .ok after ∧
      files.BecomesAt (inside ++ [name]) (some (.link executable)) after := by
  have named : FileTree.IsEntryName name := ⟨reachable.plain.proper, reachable.short⟩
  have below := Path.below_join directory reachable.plain.relative reachable.plain.names_eq
  have ends := Path.ends_in_name_join directory reachable.plain
  have looked := find_link reachable leads false fun _ => .vacant named vacant
  rw [linkPath, ← find_new_eq below ends] at looked
  have stands := sound.found_new looked
  have proper := FileTree.proper_append (FileTree.proper_of_node stands.1) stands.2.2
  have makes : files.makeLink executable (linkPath directory name) =
      .ok { files with tree := files.tree.set (inside ++ [name]) (.link executable) } := by
    rw [makeLink, target, ok_bind, linkPath, looked, ok_bind]
    dsimp only
    rw [unslashed_of_ends ends]
    rfl
  refine ⟨_, makes, ?_, fun other different => ?_, rfl, sound.set_vacant stands ?_⟩
  · rw [FileTree.node_set proper, if_pos rfl]
  · rw [FileTree.node_set proper, if_neg different]
  · intro path same
    cases same
    exact (check_eq_ok_iff.mp target).1

theorem place_link_at {executable : String} (target : FileTree.checkPath executable = .ok ())
    (vacant : files.tree.node? (inside ++ [name]) = none) :
    ∃ after, placeLink executable (linkPath directory name) files = .ok after ∧
      files.BecomesAt (inside ++ [name]) (some (.link executable)) after := by
  obtain ⟨after, makes, becomes⟩ := make_at reachable leads sound target vacant
  exact ⟨after, of_file_eq_ok_iff.mpr makes, becomes⟩

theorem clear_link_at (free : files.tree.IsFree (inside ++ [name])) :
    ∃ after, clearLink (linkPath directory name) files = .ok after ∧
      files.BecomesAt (inside ++ [name]) none after := by
  rcases (entry_tells reachable leads).of_free free with there | absent
  · obtain ⟨link, _⟩ := there
    obtain ⟨after, removes, becomes⟩ := remove_at reachable leads sound link
    refine ⟨after, ?_, becomes⟩
    rw [clearLink, if_pos link]
    exact of_file_eq_ok_iff.mpr removes
  · obtain ⟨link, present, stands⟩ := absent
    refine ⟨files, ?_, .refl sound stands⟩
    rw [clearLink, link, present]
    rfl

theorem remove_link_at (free : files.tree.IsFree (inside ++ [name])) :
    ∃ after, removeLink directory name files =
        .ok ((files.tree.node? (inside ++ [name])).isSome, after) ∧
      files.BecomesAt (inside ++ [name]) none after := by
  rcases (entry_tells reachable leads).of_free free with there | absent
  · obtain ⟨link, stands⟩ := there
    obtain ⟨after, removes, becomes⟩ := remove_at reachable leads sound link
    refine ⟨after, ?_, becomes⟩
    rw [removeLink, if_pos link, removes, stands]
    rfl
  · obtain ⟨link, present, stands⟩ := absent
    refine ⟨files, ?_, .refl sound stands⟩
    rw [removeLink, link, present, stands]
    rfl

end Entry

end Files

/-! ### How a call ends -/

namespace LinkCall

variable {directory executable name : String} {world : World} {made : Files}

theorem install_apply (makes : world.files.makeDirectories directory = (made, none)) :
    (install executable name).perform directory world =
      match clearLink (linkPath directory name) made with
      | .error refusal => (.error refusal, { world with files := made })
      | .ok cleared =>
          match placeLink executable (linkPath directory name) cleared with
          | .error refusal => (.error refusal, { world with files := cleared })
          | .ok after => (.ok none, { world with files := after }) := by
  rw [perform, Action.bind_apply, Action.installLink, Action.bind_apply,
    Action.make_directories_apply, makes]
  dsimp only
  rw [Action.bind_apply, Action.change_apply]
  cases clearLink (linkPath directory name) made with
  | error refusal => rfl
  | ok cleared =>
      dsimp only
      rw [Action.change_apply]
      cases placeLink executable (linkPath directory name) cleared <;> rfl

theorem uninstall_apply :
    (uninstall name).perform directory world =
      match removeLink directory name world.files with
      | .error refusal => (.error refusal, world)
      | .ok (removed, after) => (.ok (some removed), { world with files := after }) := by
  rw [perform, Action.bind_apply, Action.uninstallLink, Action.bind_apply, Action.read_apply]
  cases removeLink directory name world.files <;> rfl

theorem install_unmade {fault : FileFault}
    (makes : world.files.makeDirectories directory = (made, some fault)) :
    ((install executable name).perform directory world).2 = { world with files := made } := by
  rw [perform, Action.bind_apply, Action.installLink, Action.bind_apply,
    Action.make_directories_apply, makes]

/-- Whatever goes wrong, what is no link is spared. -/
theorem perform_spares (directory : String) (call : LinkCall) (sound : world.files.Sound) :
    world.files.Spares (call.perform directory world).2.files := by
  cases call with
  | install executable name =>
      have keeps := (Files.make_directories_makes world.files directory).keeps sound
      rcases makes : world.files.makeDirectories directory with ⟨made, _ | fault⟩
      · rw [makes] at keeps
        have first := Files.spares_of_grows keeps.1 keeps.2.1
        rw [install_apply makes]
        cases clears : clearLink (linkPath directory name) made with
        | error refusal => exact first
        | ok cleared =>
            have second := first.trans (Files.clear_link_spares first.sound clears)
            dsimp only
            cases places : placeLink executable (linkPath directory name) cleared with
            | error refusal => exact second
            | ok after => exact second.trans (Files.place_link_spares second.sound places)
      · rw [makes] at keeps
        rw [install_unmade makes]
        exact Files.spares_of_grows keeps.1 keeps.2.1
  | uninstall name =>
      rw [uninstall_apply]
      cases removes : removeLink directory name world.files with
      | error refusal => exact .refl sound
      | ok found => exact Files.remove_link_spares sound removes

section Ends

variable {inside : Place} {names : List String} (reachable : IsReachable directory name)
  (member : name ∈ names)

include reachable

theorem uninstall_refused (leads : world.files.placeOf? directory = some inside)
    (blocked : ¬world.files.tree.IsFree (inside ++ [name])) :
    (uninstall name).perform directory world = (notALink (linkPath directory name), world) := by
  obtain ⟨link, present⟩ := (Files.entry_tells reachable leads).of_blocked blocked
  rw [uninstall_apply, removeLink, link, present]
  rfl

theorem uninstall_done (leads : world.files.placeOf? directory = some inside)
    (sound : world.files.Sound) (free : world.files.tree.IsFree (inside ++ [name])) :
    ∃ after, (uninstall name).perform directory world =
        (.ok (some (world.files.tree.node? (inside ++ [name])).isSome),
          { world with files := after }) ∧
      world.files.BecomesAt (inside ++ [name]) none after := by
  obtain ⟨after, removes, becomes⟩ := Files.remove_link_at reachable leads sound free
  refine ⟨after, ?_, becomes⟩
  rw [uninstall_apply, removes]

theorem install_refused (makes : world.files.makeDirectories directory = (made, none))
    (leads : made.placeOf? directory = some inside)
    (blocked : ¬made.tree.IsFree (inside ++ [name])) :
    (install executable name).perform directory world =
      (notALink (linkPath directory name), { world with files := made }) := by
  obtain ⟨link, present⟩ := (Files.entry_tells reachable leads).of_blocked blocked
  rw [install_apply makes, clearLink, link, present]
  rfl

include member

theorem install_done (target : FileTree.checkPath executable = .ok ())
    (makes : world.files.makeDirectories directory = (made, none))
    (past : made.LeadsPast directory inside names) (sound : made.Sound)
    (free : made.tree.IsFree (inside ++ [name])) :
    ∃ after, (install executable name).perform directory world =
        (.ok none, { world with files := after }) ∧
      made.BecomesAt (inside ++ [name]) (some (.link executable)) after := by
  obtain ⟨cleared, clears, first⟩ := Files.clear_link_at reachable past.leads sound free
  have still := past.becomes member free first
  obtain ⟨after, places, second⟩ :=
    Files.place_link_at reachable still.leads first.sound target first.stands
  refine ⟨after, ?_, first.trans second⟩
  rw [install_apply makes, clears]
  dsimp only
  rw [places]

end Ends

end LinkCall

end ContainerApplets
