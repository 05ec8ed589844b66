import ContainerApplets.Proofs.Actions
import ContainerApplets.Proofs.Files.Writing

/-!
Where the registry and the cache are: two files in one directory, which is made when it is needed.
Storing one of them leaves the other one as it is.
-/

namespace ContainerApplets

open ContainerApplets.Action (Stores)

namespace Settings

/-- The directory of the registry and the cache. -/
structure IsHome (settings : Settings) (home : String) : Prop where
  registryAbove : Path.parent? settings.registryPath = some home
  registryBelow : Path.IsBelow home settings.registryPath "registry.yaml"
  registryEnds : Path.EndsInName settings.registryPath
  cacheAbove : Path.parent? settings.cachePath = some home
  cacheBelow : Path.IsBelow home settings.cachePath "cache.yaml"
  cacheEnds : Path.EndsInName settings.cachePath
  names : Path.names home = Path.names settings.rootDirectory
  tidy : Path.names home ≠ [] → Path.EndsInName home

theorem exists_home (settings : Settings) : ∃ home, settings.IsHome home := by
  obtain ⟨home, parents⟩ := Path.parent_join settings.rootDirectory
  obtain ⟨registryAbove, registryBelow, names, tidy, registryEnds⟩ :=
    parents "registry.yaml" ⟨by decide, by decide⟩
  obtain ⟨cacheAbove, cacheBelow, _, _, cacheEnds⟩ :=
    parents "cache.yaml" ⟨by decide, by decide⟩
  exact ⟨home, registryAbove, registryBelow, registryEnds, cacheAbove, cacheBelow, cacheEnds, names,
    tidy⟩

variable {settings : Settings} {home : String} {files made written after : Files}

theorem IsHome.arrives (atHome : settings.IsHome home) {place : Place}
    (arrives : files.Arrives settings.rootDirectory place) : files.Arrives home place := by
  have absolute : Path.isAbsolute home = Path.isAbsolute settings.rootDirectory :=
    atHome.cacheBelow.absolute.trans (Path.absolute_join _ (by decide))
  rw [Files.Arrives, FileTree.startOf, absolute, atHome.names]
  exact arrives

theorem registry_plain : Path.IsPlain "registry.yaml" := ⟨by decide, by decide⟩

theorem cache_plain : Path.IsPlain "cache.yaml" := ⟨by decide, by decide⟩

/-- The registry and the cache are two files, and the way to them does not change when their
directory is made. A path that goes up again out of a directory that is yet to be made would lead
to other files once it is. -/
structure Apart (settings : Settings) (files : Files) : Prop where
  steady : files.isDirectory settings.rootDirectory = true ∨
    ".." ∉ Path.names settings.rootDirectory
  apart : ∀ place, files.leadsTo? settings.registryPath = some place →
    files.leadsTo? settings.cachePath ≠ some place

/-- The files are still sound, and the cache is as it was. -/
structure Keeps (settings : Settings) (files after : Files) : Prop where
  sound : after.Sound
  apart : settings.Apart after
  cache : after.node? settings.cachePath = files.node? settings.cachePath

theorem Keeps.refl (sound : files.Sound) (apart : settings.Apart files) :
    settings.Keeps files files := ⟨sound, apart, rfl⟩

theorem Keeps.trans (first : settings.Keeps files made) (second : settings.Keeps made after) :
    settings.Keeps files after :=
  ⟨second.sound, second.apart, second.cache.trans first.cache⟩

/-! ### Making the directory -/

theorem make_home_keeps (atHome : settings.IsHome home) (sound : files.Sound)
    (apart : settings.Apart files) {fault : Option FileFault}
    (result : files.makeDirectories home = (made, fault)) : settings.Keeps files made := by
  by_cases present : files.isDirectory home = true
  · rw [Files.make_directories_of_is_directory present] at result
    cases result
    exact .refl sound apart
  have makes := Files.make_directories_makes files home
  rw [result] at makes
  by_cases named : home = ""
  · obtain ⟨_, rfl⟩ := makes.empty named
    exact .refl sound apart
  obtain ⟨soundMade, grows, here⟩ := makes.keeps sound
  have steady : made.isDirectory settings.rootDirectory = true ∨
      ".." ∉ Path.names settings.rootDirectory :=
    apart.steady.imp_left fun there => Files.is_directory_grows there grows here
  have noCache := (Files.unreached atHome.cacheBelow atHome.cacheEnds named present).1
  cases fault with
  | some fault =>
      have absent := makes.not_directory rfl
      have noRegistry := (Files.unreached atHome.registryBelow atHome.registryEnds named absent).2
      have stillNoCache := (Files.unreached atHome.cacheBelow atHome.cacheEnds named absent).1
      refine ⟨soundMade, ⟨steady, ?_⟩, stillNoCache.trans noCache.symm⟩
      intro place led
      rw [noRegistry] at led
      cases led
  | none =>
      have there := makes.is_directory sound atHome.tidy named rfl
      have down : ".." ∉ Path.names home := by
        rw [atHome.names]
        refine apart.steady.resolve_left fun rooted => present ?_
        obtain ⟨_, place, arrives⟩ := Files.is_directory_iff.mp rooted
        exact Files.is_directory_iff.mpr
          ⟨(Files.is_directory_iff.mp there).1, place, atHome.arrives arrives⟩
      rcases makes.leads_to_empty sound down atHome.tidy rfl with same | empty
      · exact absurd (same ▸ there) present
      obtain ⟨place, arrives, nothing⟩ := empty
      refine ⟨soundMade, ⟨steady, ?_⟩, Eq.trans ?_ noCache.symm⟩
      · intro spot registry cache
        obtain ⟨_, leads, reached⟩ := Files.leads_to_eq_some_iff.mp registry
        obtain ⟨_, leadsToo, reachedToo⟩ := Files.leads_to_eq_some_iff.mp cache
        rw [Files.vacant_of_empty arrives nothing atHome.registryBelow atHome.registryEnds
          registry_plain leads] at reached
        rw [Files.vacant_of_empty arrives nothing atHome.cacheBelow atHome.cacheEnds
          cache_plain leadsToo, ← reached] at reachedToo
        simp [FileTree.Found.place] at reachedToo
      · rw [Option.eq_none_iff_forall_ne_some]
        intro node found
        obtain ⟨_, leads⟩ := Files.node_eq_some_iff.mp found
        cases Files.vacant_of_empty arrives nothing atHome.cacheBelow atHome.cacheEnds cache_plain
          leads

/-! ### Storing -/

/-- A text can be written wherever the cache is not. -/
theorem write_text_keeps (sound : files.Sound) (apart : settings.Apart files) {path text : String}
    (elsewhere : ∀ place, files.leadsTo? path = some place →
      files.leadsTo? settings.cachePath ≠ some place)
    (writes : files.writeText path text = .ok written) : settings.Keeps files written := by
  obtain ⟨place, holds⟩ := Files.write_text_holds sound writes
  have same := Files.leads_to_alike holds.alike holds.here
  refine ⟨holds.sound, ⟨?_, ?_⟩, ?_⟩
  · exact apart.steady.imp_left (Files.is_directory_alike holds.alike holds.here sound)
  · rw [same, same]
    exact apart.apart
  · exact Files.node_alike holds.alike holds.here (elsewhere place holds.leads)

theorem store_registry_keeps (atHome : settings.IsHome home) (sound : files.Sound)
    (apart : settings.Apart files) {text : String} {outcome : Except Refusal Unit}
    (stores : Stores files home settings.registryPath text outcome after) :
    settings.Keeps files after := by
  cases stores with
  | unmade makes => exact make_home_keeps atHome sound apart makes
  | unwritten makes => exact make_home_keeps atHome sound apart makes
  | written makes writes =>
      have first := make_home_keeps atHome sound apart makes
      exact first.trans (write_text_keeps first.sound first.apart first.apart.apart writes)

/-- A cache that is stored is read back, and one that is not is as it was. -/
theorem store_cache_keeps (atHome : settings.IsHome home) (sound : files.Sound)
    (apart : settings.Apart files) {text : String} {outcome : Except Refusal Unit}
    (stores : Stores files home settings.cachePath text outcome after) :
    settings.Keeps files after ∨
      after.Sound ∧ settings.Apart after ∧ after.readText settings.cachePath = .ok text := by
  cases stores with
  | unmade makes => exact .inl (make_home_keeps atHome sound apart makes)
  | unwritten makes => exact .inl (make_home_keeps atHome sound apart makes)
  | written makes writes =>
      have first := make_home_keeps atHome sound apart makes
      obtain ⟨place, holds⟩ := Files.write_text_holds first.sound writes
      have same := Files.leads_to_alike holds.alike holds.here
      refine .inr ⟨holds.sound, ⟨?_, ?_⟩, holds.read_text⟩
      · exact first.apart.steady.imp_left
          (Files.is_directory_alike holds.alike holds.here first.sound)
      · rw [same, same]
        exact first.apart.apart

theorem sound_of_makes (sound : files.Sound) {fault : Option FileFault}
    (makes : files.makeDirectories home = (made, fault)) : made.Sound := by
  have general := Files.make_directories_makes files home
  rw [makes] at general
  exact (general.keeps sound).1

theorem store_keeps_sound (sound : files.Sound) {path text : String}
    {outcome : Except Refusal Unit} (stores : Stores files home path text outcome after) :
    after.Sound := by
  cases stores with
  | unmade makes => exact sound_of_makes sound makes
  | unwritten makes => exact sound_of_makes sound makes
  | written makes writes =>
      obtain ⟨_, holds⟩ := Files.write_text_holds (sound_of_makes sound makes) writes
      exact holds.sound

/-- What has been stored is read back. -/
theorem store_read_back (sound : files.Sound) {path text : String}
    (stores : Stores files home path text (.ok ()) after) : after.readText path = .ok text := by
  cases stores with
  | written makes writes =>
      obtain ⟨_, holds⟩ := Files.write_text_holds (sound_of_makes sound makes) writes
      exact holds.read_text

section Refused

variable {path last text : String} (below : Path.IsBelow home path last)
  (ends : Path.EndsInName path)

include below ends

/-- Where a text can be read, its directory is there. -/
theorem made_of_read {content : String} (reads : files.readText path = .ok content) :
    files.makeDirectories home = (files, none) := by
  by_cases named : home = ""
  · rw [named, Files.makeDirectories, if_pos (by simp)]
  · obtain ⟨_, present⟩ := Files.read_text_eq_ok_iff.mp reads
    obtain ⟨_, leads⟩ := Files.node_eq_some_iff.mp present
    exact Files.make_directories_of_is_directory
      (Files.is_directory_of_found below ends named leads)

/-- Wherever the files are, a text that cannot be stored leaves the one that can be read. -/
theorem store_refused {refusal : Refusal}
    (stores : Stores files home path text (.error refusal) after) (content : String) :
    after.readText path = .ok content ↔ files.readText path = .ok content := by
  have unchanged (made : Files) (fault : Option FileFault)
      (makes : files.makeDirectories home = (made, fault))
      (unread : made.readText path ≠ .ok content) :
      made.readText path = .ok content ↔ files.readText path = .ok content := by
    refine ⟨fun reads => absurd reads unread, fun reads => ?_⟩
    cases makes.symm.trans (made_of_read below ends reads)
    exact reads
  cases stores with
  | unmade makes =>
      refine unchanged _ _ makes fun reads => ?_
      have general := Files.make_directories_makes files home
      rw [makes] at general
      have named : home ≠ "" := fun empty => by cases (general.empty empty).1
      obtain ⟨_, present⟩ := Files.read_text_eq_ok_iff.mp reads
      rw [(Files.unreached below ends named (general.not_directory rfl)).1] at present
      cases present
  | unwritten makes refused =>
      exact unchanged _ _ makes (Files.not_text_of_unwritten ends refused)

end Refused

end Settings

end ContainerApplets
