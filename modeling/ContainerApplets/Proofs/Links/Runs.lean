import ContainerApplets.Proofs.Links.Calls

/-!
Runs of calls that install and uninstall applets. Whatever is in the install directory, a run
touches links only: what stands at the entry of an applet is decided by the last call for it, unless
something else than a link is in the way.
-/

namespace ContainerApplets

/-- The install directory is there or can be made, and none of these links is on the way to it: a
link there would take the directory with it. -/
inductive Files.Serves (files : Files) (directory : String) (inside : Place)
    (names : List String) : Prop
  | there (past : files.LeadsPast directory inside names)
  /-- It is made for the first link that is installed, and it is empty then. -/
  | onDemand {made : Files} (absent : files.isDirectory directory = false)
      (makes : files.makeDirectories directory = (made, none))
      (leads : made.placeOf? directory = some inside)
      (empty : ∀ name, made.tree.node? (inside ++ [name]) = none)

namespace Files

variable {files made : Files} {directory name : String} {inside : Place} {names : List String}

/-- The install directory as an installation finds it. -/
structure Provides (files : Files) (directory : String) (inside : Place) (names : List String)
    (made : Files) : Prop where
  makes : files.makeDirectories directory = (made, none)
  past : made.LeadsPast directory inside names
  sound : made.Sound
  grows : files.tree.Grows made.tree
  below : ∀ name rest,
    made.tree.node? (inside ++ name :: rest) = files.tree.node? (inside ++ name :: rest)
  /-- A directory that is made has nothing in it that could be in the way. -/
  stays : ∀ name, ¬files.tree.IsFree (inside ++ [name]) → made = files

theorem LeadsPast.provides (past : files.LeadsPast directory inside names) (sound : files.Sound) :
    files.Provides directory inside names files where
  makes := by
    apply make_directories_of_is_directory
    obtain ⟨checked, arrives⟩ := place_of_eq_some_iff.mp past.leads
    exact is_directory_iff.mpr ⟨checked, inside, arrives⟩
  past := past
  sound := sound
  grows := .refl files.tree
  below := fun _ _ => rfl
  stays := fun _ _ => rfl

theorem nothing_in_empty (sound : made.Sound)
    (empty : ∀ name, made.tree.node? (inside ++ [name]) = none) (name : String)
    (rest : List String) : made.tree.node? (inside ++ name :: rest) = none := by
  cases rest with
  | nil => exact empty name
  | cons next rest =>
      have nothing : made.tree.node? (inside ++ [name] ++ next :: rest) = none :=
        sound.tree.closed.nothing_below (by simp [empty name]) (by simp)
      rw [List.append_assoc] at nothing
      exact nothing

theorem Serves.provides (serves : files.Serves directory inside names) (sound : files.Sound) :
    ∃ made, files.Provides directory inside names made := by
  cases serves with
  | there past => exact ⟨files, past.provides sound⟩
  | @onDemand made absent makes leads empty =>
      have keeps := (make_directories_makes files directory).keeps sound
      rw [makes] at keeps
      obtain ⟨soundMade, grows, _⟩ := keeps
      have nothing := nothing_in_empty soundMade empty
      have absentBefore (name : String) (rest : List String) :
          files.tree.node? (inside ++ name :: rest) = none := by
        rw [Option.eq_none_iff_forall_ne_some]
        intro node stands
        cases (nothing name rest).symm.trans (grows _ _ stands)
      refine ⟨made, makes, ?_, soundMade, grows, fun name rest => ?_, fun name blocked => ?_⟩
      · refine place_of_grows leads (fun place node stands => node_without.mpr ⟨stands, ?_⟩) rfl
        rintro ⟨name, _, rfl⟩
        cases (empty name).symm.trans stands
      · rw [nothing, absentBefore]
      · obtain ⟨node, stands, _⟩ := FileTree.not_free_iff.mp blocked
        cases (absentBefore name []).symm.trans stands

/-- Without its directory a link is not there. -/
theorem remove_link_absent (plain : Path.IsPlain name) (named : directory ≠ "")
    (absent : files.isDirectory directory = false) :
    removeLink directory name files = .ok (false, files) := by
  have below := Path.below_join directory plain.relative plain.names_eq
  have ends := Path.ends_in_name_join directory plain
  have missing : ¬files.isDirectory directory = true := by simp [absent]
  have link : files.isLink (linkPath directory name) = false := by
    rw [Bool.eq_false_iff]
    intro link
    obtain ⟨_, _, leads⟩ := is_link_iff.mp link
    exact missing (is_directory_of_found below ends named leads)
  have present : files.exists? (linkPath directory name) = false := by
    rw [exists?, linkPath, (unreached below ends named missing).1]
    rfl
  rw [removeLink, link, present]
  rfl

end Files

namespace LinkCall

variable {directory : String} {inside : Place} {names touched : List String} {call : LinkCall}
  {world before after last : World}

/-- Every call with one of these names finds the install directory. -/
structure Ready (directory : String) (inside : Place) (names : List String) (world : World) :
    Prop where
  sound : world.files.Sound
  serves : world.files.Serves directory inside names

/-- Nothing has changed but the entries with these names, apart from directories above them that
have been made. -/
structure Touches (inside : Place) (touched : List String) (before after : World) : Prop where
  stays : ∀ place node, (∀ name ∈ touched, place ≠ inside ++ [name]) →
    before.files.tree.node? place = some node → after.files.tree.node? place = some node
  beside : ∀ name ∉ touched, ∀ rest, after.files.tree.node? (inside ++ name :: rest) =
    before.files.tree.node? (inside ++ name :: rest)

theorem Touches.refl (world : World) : Touches inside touched world world :=
  ⟨fun _ _ _ stands => stands, fun _ _ _ => rfl⟩

theorem Touches.trans (first : Touches inside touched before after)
    (second : Touches inside touched after last) : Touches inside touched before last where
  stays := fun place node elsewhere stands =>
    second.stays place node elsewhere (first.stays place node elsewhere stands)
  beside := fun name apart rest =>
    (second.beside name apart rest).trans (first.beside name apart rest)

theorem Touches.mono {more : List String} (touches : Touches inside touched before after)
    (among : touched ⊆ more) : Touches inside more before after where
  stays := fun place node elsewhere =>
    touches.stays place node fun name member => elsewhere name (among member)
  beside := fun name apart => touches.beside name fun member => apart (among member)

/-- How a call ends: what is in its way is reported and stays, or the call has its way. -/
inductive Ends (directory : String) (inside : Place) (names : List String) (world : World)
    (call : LinkCall) : Except Refusal (Option Bool) × World → Prop
  | refused (blocked : ¬world.files.tree.IsFree (inside ++ [call.name])) :
      Ends directory inside names world call (notALink (linkPath directory call.name), world)
  | done {after : World} (free : world.files.tree.IsFree (inside ++ [call.name]))
      (ready : Ready directory inside names after)
      (touches : Touches inside [call.name] world after)
      (stands : after.files.tree.node? (inside ++ [call.name]) = call.leaves) :
      Ends directory inside names world call
        (.ok (call.answer (world.files.tree.node? (inside ++ [call.name]))), after)

/-- A link that is put or taken away in a directory that is there. -/
theorem touches_of_becomes {files : Files} {name : String} {node : Option FileNode}
    (provides : before.files.Provides directory inside names files)
    (becomes : files.BecomesAt (inside ++ [name]) node after.files) :
    Touches inside [name] before after where
  stays := by
    intro place found elsewhere stands
    rw [becomes.elsewhere place (elsewhere name (by simp))]
    exact provides.grows place found stands
  beside := by
    intro other apart rest
    rw [becomes.elsewhere, provides.below]
    intro same
    cases List.append_cancel_left same
    exact apart (by simp)

theorem uninstall_ends {name : String} (ready : Ready directory inside names world)
    (reachable : IsReachable directory name) (member : name ∈ names) :
    Ends directory inside names world (.uninstall name)
      ((uninstall name).perform directory world) := by
  obtain ⟨sound, serves⟩ := ready
  cases serves with
  | there past =>
      by_cases free : world.files.tree.IsFree (inside ++ [name])
      · obtain ⟨after, ended, becomes⟩ := uninstall_done reachable past.leads sound free
        rw [ended]
        refine .done free ⟨becomes.sound, .there (past.becomes member free becomes)⟩ ?_
          becomes.stands
        exact touches_of_becomes (past.provides sound) becomes
      · rw [uninstall_refused reachable past.leads free]
        exact .refused free
  | @onDemand made absent makes leads empty =>
      have named := (Files.check_eq_ok_iff.mp (Files.place_of_eq_some_iff.mp leads).1).2.1
      have serves : world.files.Serves directory inside names :=
        .onDemand absent makes leads empty
      obtain ⟨_, provides⟩ := serves.provides sound
      cases makes.symm.trans provides.makes
      have vacant : world.files.tree.node? (inside ++ [name]) = none :=
        (provides.below name []).symm.trans (empty name)
      have free : world.files.tree.IsFree (inside ++ [name]) := by
        intro node stands
        cases vacant.symm.trans stands
      have stood : (uninstall name).answer (world.files.tree.node? (inside ++ [name])) =
          some false := by
        rw [vacant]
        rfl
      rw [uninstall_apply, Files.remove_link_absent reachable.plain named absent]
      dsimp only
      rw [← stood]
      exact .done free ⟨sound, serves⟩ (.refl world) vacant

theorem install_ends {executable name : String} (ready : Ready directory inside names world)
    (reachable : IsReachable directory name) (member : name ∈ names)
    (target : FileTree.checkPath executable = .ok ()) :
    Ends directory inside names world (.install executable name)
      ((install executable name).perform directory world) := by
  obtain ⟨made, provides⟩ := ready.serves.provides ready.sound
  have same := provides.below name []
  by_cases free : world.files.tree.IsFree (inside ++ [name])
  · obtain ⟨after, ended, becomes⟩ := install_done reachable member target provides.makes
      provides.past provides.sound (free.of_node same)
    rw [ended]
    refine .done free ⟨becomes.sound, .there ?_⟩ ?_ becomes.stands
    · exact provides.past.becomes member (free.of_node same) becomes
    · exact touches_of_becomes provides becomes
  · have blocked : ¬made.tree.IsFree (inside ++ [name]) :=
      fun cleared => free (cleared.of_node same.symm)
    rw [install_refused reachable provides.makes provides.past.leads blocked,
      provides.stays name free]
    exact .refused free

/-- One call: either something is in the way and nothing happens, or only the entry changes. -/
theorem perform_ends (ready : Ready directory inside names world)
    (possible : call.IsPossible directory) (member : call.name ∈ names) :
    Ends directory inside names world call (call.perform directory world) := by
  cases call with
  | install executable name =>
      exact install_ends ready possible.reachable member (possible.target executable rfl)
  | uninstall name => exact uninstall_ends ready possible.reachable member

/-! ### Runs -/

/-- Calls one after another, also behind one that is refused. -/
def run (directory : String) (calls : List LinkCall) (world : World) : World :=
  calls.foldl (fun world call => (call.perform directory world).2) world

/-- The call is not refused. -/
def Succeeds (directory : String) (world : World) (call : LinkCall) : Prop :=
  ∃ answer, (call.perform directory world).1 = .ok answer

theorem run_append (before after : List LinkCall) :
    run directory (before ++ after) world =
      run directory after (run directory before world) :=
  List.foldl_append

theorem run_concat (calls : List LinkCall) (call : LinkCall) :
    run directory (calls ++ [call]) world =
      (call.perform directory (run directory calls world)).2 :=
  List.foldl_concat ..

/-- A run spares what is no link, whatever it is called with and wherever that leads. -/
theorem run_spares (directory : String) (calls : List LinkCall) (sound : world.files.Sound) :
    world.files.Spares (run directory calls world).files := by
  induction calls using List.reverseRecOn with
  | nil => exact .refl sound
  | append_singleton calls call induction =>
      rw [run_concat]
      exact induction.trans (perform_spares directory call induction.sound)

section Ends

variable {ended : Except Refusal (Option Bool) × World}
  (ends : Ends directory inside names world call ended)

include ends

theorem Ends.ready (ready : Ready directory inside names world) :
    Ready directory inside names ended.2 := by
  cases ends with
  | refused => exact ready
  | done _ ready => exact ready

theorem Ends.touches : Touches inside [call.name] world ended.2 := by
  cases ends with
  | refused => exact .refl world
  | done _ _ touches => exact touches

theorem Ends.stands (free : world.files.tree.IsFree (inside ++ [call.name])) :
    ended.2.files.tree.node? (inside ++ [call.name]) = call.leaves := by
  cases ends with
  | refused blocked => exact absurd free blocked
  | done _ _ _ stands => exact stands

theorem Ends.succeeds_iff :
    (∃ answer, ended.1 = .ok answer) ↔ world.files.tree.IsFree (inside ++ [call.name]) := by
  cases ends with
  | refused blocked => exact ⟨nofun, fun free => absurd free blocked⟩
  | done free => exact ⟨fun _ => free, fun _ => ⟨_, rfl⟩⟩

theorem Ends.unchanged (refused : ¬∃ answer, ended.1 = .ok answer) :
    ended = (notALink (linkPath directory call.name), world) := by
  cases ends with
  | refused => rfl
  | done => exact absurd ⟨_, rfl⟩ refused

end Ends

/-- The answer is about a link, since whatever else stands there is in the way. -/
theorem Ends.answers_iff {name : String} {ended : Except Refusal (Option Bool) × World}
    (ends : Ends directory inside names world (uninstall name) ended) :
    ended.1 = .ok (some true) ↔
      ∃ target, world.files.tree.node? (inside ++ [name]) = some (.link target) := by
  cases ends with
  | refused blocked =>
      refine ⟨nofun, fun there => ?_⟩
      obtain ⟨target, stands⟩ := there
      obtain ⟨node, found, other⟩ := FileTree.not_free_iff.mp blocked
      cases stands.symm.trans found
      cases other
  | done free =>
      simp only [answer, LinkCall.name, Except.ok.injEq, Option.some.injEq,
        Option.isSome_iff_exists]
      constructor
      · intro there
        obtain ⟨node, stands⟩ := there
        obtain ⟨target, rfl⟩ := free node stands
        exact ⟨target, stands⟩
      · intro there
        obtain ⟨target, stands⟩ := there
        exact ⟨_, stands⟩

theorem link_of_leaves {node : FileNode} (left : call.leaves = some node) :
    ∃ target, node = .link target := by
  obtain ⟨target, _, same⟩ := Option.map_eq_some_iff.mp left
  exact ⟨target, same.symm⟩

/-- What the last call for a name leaves is never in the way of the next one. -/
theorem free_of_last_call {calls : List LinkCall} {name : String}
    (free : world.files.tree.IsFree (inside ++ [name]))
    (stands : after.files.tree.node? (inside ++ [name]) =
      match calls.reverse.find? fun call => call.name = name with
      | some call => call.leaves
      | none => world.files.tree.node? (inside ++ [name])) :
    after.files.tree.IsFree (inside ++ [name]) := by
  intro node present
  rw [stands] at present
  split at present
  · exact link_of_leaves present
  · exact free node present

section Runs

variable {calls : List LinkCall} (possible : ∀ call ∈ calls, call.IsPossible directory)
  (among : ∀ call ∈ calls, call.name ∈ names) (ready : Ready directory inside names world)

include possible among ready

theorem run_ready : Ready directory inside names (run directory calls world) := by
  induction calls using List.reverseRecOn with
  | nil => exact ready
  | append_singleton calls call induction =>
      simp only [List.forall_mem_append, List.forall_mem_singleton] at possible among
      rw [run_concat]
      have earlier := induction possible.1 among.1
      exact (perform_ends earlier possible.2 among.2).ready earlier

theorem run_touches :
    Touches inside (calls.map LinkCall.name) world (run directory calls world) := by
  induction calls using List.reverseRecOn with
  | nil => exact .refl world
  | append_singleton calls call induction =>
      simp only [List.forall_mem_append, List.forall_mem_singleton] at possible among
      rw [run_concat, List.map_append]
      have earlier := run_ready possible.1 among.1 ready
      have ends := perform_ends earlier possible.2 among.2
      exact ((induction possible.1 among.1).mono (by simp)).trans (ends.touches.mono (by simp))

/-- The last call for a name decides. Without one, the entry is what it was. -/
theorem run_stands {name : String} (free : world.files.tree.IsFree (inside ++ [name])) :
    (run directory calls world).files.tree.node? (inside ++ [name]) =
      match calls.reverse.find? fun call => call.name = name with
      | some call => call.leaves
      | none => world.files.tree.node? (inside ++ [name]) := by
  -- From the end of the run, where the last call is found.
  induction calls using List.reverseRecOn with
  | nil => rfl
  | append_singleton calls call induction =>
      simp only [List.forall_mem_append, List.forall_mem_singleton] at possible among
      have ends := perform_ends (run_ready possible.1 among.1 ready) possible.2 among.2
      rw [run_concat, List.reverse_concat, List.find?_cons]
      by_cases same : call.name = name
      · subst same
        simp only [decide_true]
        apply ends.stands
        exact free_of_last_call free (induction possible.1 among.1)
      · simp only [same, decide_false]
        rw [ends.touches.beside name (by simpa using Ne.symm same) [], induction possible.1 among.1]

end Runs

/-- An installation that succeeds, and none behind it with this name does. -/
structure IsLastInstall (directory : String) (world : World) (front : List LinkCall)
    (executable name : String) (back : List LinkCall) : Prop where
  succeeds : (install executable name).Succeeds directory (run directory front world)
  last : ∀ between other, between ++ [install other name] <+: back →
    ¬(install other name).Succeeds directory
      (run directory (front ++ install executable name :: between) world)

/-- Where only removals are left, the last call is one if there is any. -/
theorem last_call_eq {back : List LinkCall} {name : String}
    (removals : ∀ other, install other name ∉ back) :
    (back.reverse.find? fun call => call.name = name) =
      if uninstall name ∈ back then some (uninstall name) else none := by
  have only (call : LinkCall) (member : call ∈ back) (same : call.name = name) :
      call = uninstall name := by
    cases call with
    | install executable other =>
        cases same
        exact absurd member (removals executable)
    | uninstall other => exact congrArg uninstall same
  split
  · next member =>
    cases found : back.reverse.find? fun call => call.name = name with
    | none =>
        rw [List.find?_eq_none] at found
        exact absurd (decide_eq_true rfl) (found (uninstall name) (List.mem_reverse.mpr member))
    | some call =>
        have named : call.name = name := by simpa using List.find?_some found
        rw [only call (List.mem_reverse.mp (List.mem_of_find?_eq_some found)) named]
  · next apart =>
    rw [List.find?_eq_none]
    intro call member named
    have there := List.mem_reverse.mp member
    exact apart (only call there (of_decide_eq_true named) ▸ there)

section LastInstall

variable {front back : List LinkCall} {executable name : String}
  (latest : IsLastInstall directory world front executable name back)

include latest

/-- Nothing would be in the way of a further installation, so it would succeed. -/
theorem no_install_behind_last
    (possible : ∀ call ∈ install executable name :: back, call.IsPossible directory)
    (among : ∀ call ∈ install executable name :: back, call.name ∈ names)
    (ready : Ready directory inside names (run directory front world))
    (free : (run directory front world).files.tree.IsFree (inside ++ [name])) (other : String) :
    install other name ∉ back := by
  intro member
  obtain ⟨between, rest, rfl⟩ := List.append_of_mem member
  have ahead : install executable name :: between ⊆
      install executable name :: (between ++ install other name :: rest) := by
    simp
  have possibleAhead := fun call inside => possible call (ahead inside)
  have amongAhead := fun call inside => among call (ahead inside)
  have again := perform_ends (run_ready possibleAhead amongAhead ready)
    (possible (install other name) (by simp)) (among (install other name) (by simp))
  apply latest.last between other ⟨rest, by simp⟩
  rw [run_append]
  apply again.succeeds_iff.mpr
  exact free_of_last_call free (run_stands possibleAhead amongAhead ready free)

theorem stands_of_last_install
    (possible : ∀ call ∈ front ++ install executable name :: back, call.IsPossible directory)
    (among : ∀ call ∈ front ++ install executable name :: back, call.name ∈ names)
    (ready : Ready directory inside names world) :
    (run directory (front ++ install executable name :: back) world).files.tree.node?
        (inside ++ [name]) =
      if uninstall name ∈ back then none else some (.link executable) := by
  obtain ⟨possibleFront, possibleBack⟩ := List.forall_mem_append.mp possible
  obtain ⟨amongFront, amongBack⟩ := List.forall_mem_append.mp among
  have readyThere := run_ready possibleFront amongFront ready
  have ends := perform_ends readyThere (possibleBack _ List.mem_cons_self)
    (amongBack _ List.mem_cons_self)
  have free : (run directory front world).files.tree.IsFree (inside ++ [name]) :=
    ends.succeeds_iff.mp latest.succeeds
  have removals := no_install_behind_last latest possibleBack amongBack readyThere free
  rw [run_append, run_stands possibleBack amongBack readyThere free, List.reverse_cons,
    List.find?_append, last_call_eq removals]
  by_cases removed : uninstall name ∈ back
  · rw [if_pos removed, if_pos removed]
    rfl
  · rw [if_neg removed, if_neg removed]
    simp [leaves, target?, LinkCall.name]

end LastInstall

/-- What a run of calls does to the files, with the install directory at this place. -/
structure TouchesOnlyLinks (directory : String) (inside : Place) (world : World)
    (calls : List LinkCall) : Prop where
  fails_iff : ∀ front call, front ++ [call] <+: calls →
    (¬call.Succeeds directory (run directory front world) ↔
      ∃ node, (run directory front world).files.tree.node? (inside ++ [call.name]) = some node ∧
        node.isLink = false)
  unchanged : ∀ front call, front ++ [call] <+: calls →
    ¬call.Succeeds directory (run directory front world) →
      call.perform directory (run directory front world) =
        (notALink (linkPath directory call.name), run directory front world)
  last : ∀ front executable name back, calls = front ++ install executable name :: back →
    IsLastInstall directory world front executable name back →
      (run directory calls world).files.tree.node? (inside ++ [name]) =
        if uninstall name ∈ back then none else some (.link executable)
  answers_iff : ∀ front name, front ++ [uninstall name] <+: calls →
    (((uninstall name).perform directory (run directory front world)).1 = .ok (some true) ↔
      ∃ target, (run directory front world).files.tree.node? (inside ++ [name]) =
        some (.link target))
  untouched : ∀ name, (∀ call ∈ calls, call.name ≠ name) → ∀ rest,
    (run directory calls world).files.tree.node? (inside ++ name :: rest) =
      world.files.tree.node? (inside ++ name :: rest)
  /-- Whatever is no entry of the calls, also outside of the directory. -/
  elsewhere : ∀ place node, (∀ call ∈ calls, place ≠ inside ++ [call.name]) →
    world.files.tree.node? place = some node →
      (run directory calls world).files.tree.node? place = some node

theorem touches_only_links {calls : List LinkCall}
    (possible : ∀ call ∈ calls, call.IsPossible directory) (sound : world.files.Sound)
    (serves : world.files.Serves directory inside (calls.map LinkCall.name)) :
    TouchesOnlyLinks directory inside world calls := by
  have among : ∀ call ∈ calls, call.name ∈ calls.map LinkCall.name :=
    fun call member => List.mem_map_of_mem member
  have ready : Ready directory inside (calls.map LinkCall.name) world := ⟨sound, serves⟩
  have ends (front : List LinkCall) (call : LinkCall) (ahead : front ++ [call] <+: calls) :
      Ends directory inside (calls.map LinkCall.name) (run directory front world) call
        (call.perform directory (run directory front world)) := by
    have inFront {earlier : LinkCall} (member : earlier ∈ front) : earlier ∈ calls :=
      ahead.subset (List.mem_append_left [call] member)
    have last : call ∈ calls := ahead.subset (by simp)
    apply perform_ends _ (possible call last) (among call last)
    apply run_ready _ _ ready
    · exact fun earlier member => possible earlier (inFront member)
    · exact fun earlier member => among earlier (inFront member)
  have touches := run_touches possible among ready
  constructor
  case fails_iff =>
    intro front call ahead
    rw [← FileTree.not_free_iff, not_iff_not]
    exact (ends front call ahead).succeeds_iff
  case unchanged =>
    intro front call ahead refused
    exact (ends front call ahead).unchanged refused
  case last =>
    rintro front executable name back rfl last
    exact stands_of_last_install last possible among ready
  case answers_iff =>
    intro front name ahead
    exact (ends front (uninstall name) ahead).answers_iff
  case untouched =>
    intro name apart rest
    apply touches.beside
    simpa using apart
  case elsewhere =>
    intro place node apart stands
    apply touches.stays place node _ stands
    simpa using apart

/-- From any point of a run to any later one, whatever is no link stays. If the calls reach the
install directory, a call fails exactly if something else than a link is in its way, and the links
are as the last calls have left them. -/
theorem run_touches_only_links {calls : List LinkCall} (sound : world.files.Sound) :
    (∀ earlier later, earlier <+: later →
      (run directory earlier world).files.Spares (run directory later world).files) ∧
    ((∀ call ∈ calls, call.IsPossible directory) →
      world.files.Serves directory inside (calls.map LinkCall.name) →
        TouchesOnlyLinks directory inside world calls) := by
  constructor
  · rintro earlier later ⟨between, rfl⟩
    rw [run_append]
    exact run_spares directory between (run_spares directory earlier sound).sound
  · intro possible serves
    exact touches_only_links possible sound serves

/-! ### All kinds of entries -/

/-- In the install directory there are a file, a directory, a link to the file and a dangling
link. -/
def binFiles : Files where
  tree := ((((optFiles "").tree.set ["opt", "bin", "notes"] (.file "kept" false)).set
    ["opt", "bin", "lib"] .directory).set ["opt", "bin", "web"] (.link "/opt/bin/notes")).set
    ["opt", "bin", "gone"] (.link "/nowhere")
  here := []

theorem bin_files_sound : binFiles.Sound := by
  have notes := (opt_files_sound "").tree.set
    (by decide : Place.isProper (["opt", "bin"] ++ ["notes"]) = true) (by decide +kernel)
    (by decide +kernel) (nofun : ∀ target, FileNode.file "kept" false = .link target → _)
  have lib := notes.set (by decide : Place.isProper (["opt", "bin"] ++ ["lib"]) = true)
    (by decide +kernel) (by decide +kernel)
    (nofun : ∀ target, FileNode.directory = .link target → _)
  have web := lib.set (by decide : Place.isProper (["opt", "bin"] ++ ["web"]) = true)
    (by decide +kernel) (by decide +kernel)
    (fun target (same : FileNode.link "/opt/bin/notes" = .link target) => by
      cases same
      decide)
  have gone := web.set (by decide : Place.isProper (["opt", "bin"] ++ ["gone"]) = true)
    (by decide +kernel) (by decide +kernel)
    (fun target (same : FileNode.link "/nowhere" = .link target) => by
      cases same
      decide)
  exact ⟨gone, rfl⟩

def binCalls : List LinkCall :=
  [.install "/usr/bin/dockerbox" "notes", .uninstall "lib", .uninstall "web",
    .install "/usr/bin/dockerbox" "gone", .install "/usr/bin/dockerbox" "web", .uninstall "gone",
    .install "/opt/dockerbox" "web"]

/-- The file and the directory stay, and of the links only the one that was put there last. -/
theorem bin_calls_touch_only_links :
    binFiles.Sound ∧ (∀ call ∈ binCalls, call.IsPossible "/opt/bin") ∧
    binFiles.Serves "/opt/bin" ["opt", "bin"] (binCalls.map LinkCall.name) ∧
    (∀ earlier later, earlier <+: later →
      (run "/opt/bin" earlier (Action.start binFiles)).files.Spares
        (run "/opt/bin" later (Action.start binFiles)).files) ∧
    TouchesOnlyLinks "/opt/bin" ["opt", "bin"] (Action.start binFiles) binCalls ∧
    (["notes", "lib", "web", "gone"].map fun name =>
      (run "/opt/bin" binCalls (Action.start binFiles)).files.tree.node? ["opt", "bin", name]) =
      [some (.file "kept" false), some .directory, some (.link "/opt/dockerbox"), none] := by
  have possible : ∀ call ∈ binCalls, call.IsPossible "/opt/bin" := by decide +kernel
  have past : binFiles.LeadsPast "/opt/bin" ["opt", "bin"] (binCalls.map LinkCall.name) := by
    decide +kernel
  have sound : (Action.start binFiles).files.Sound := bin_files_sound
  obtain ⟨spares, touches⟩ := run_touches_only_links sound
  exact ⟨bin_files_sound, possible, .there past, spares, touches possible (.there past),
    by decide +kernel⟩

end LinkCall

end ContainerApplets
