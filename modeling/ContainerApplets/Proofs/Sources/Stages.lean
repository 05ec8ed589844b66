import ContainerApplets.Proofs.Checked
import ContainerApplets.Proofs.Sources.Edits
import ContainerApplets.Proofs.Sources.Places

/-!
A registry that is edited, saved and loaded in any order. What is stored is what was saved last, as
long as that is read back; so a registry that is loaded is the one that was saved, and at all times
the registry is the ordered map that its history makes.
-/

namespace ContainerApplets.Registry

inductive Step
  | edit (edit : Edit)
  | save
  | load
  deriving DecidableEq

/-- A registry and the files, and where they come from: the edits that have led to the registry, and
those that had led to it whenever it was saved, the latest first. -/
structure Stage where
  registry : Registry
  files : Files
  history : List Edit
  saved : List (List Edit)

namespace Stage

def edit (stage : Stage) (edit : Edit) : Stage :=
  { stage with registry := stage.registry.edit edit, history := stage.history ++ [edit] }

/-- A save that is refused can have made directories. -/
def afterSave (stage : Stage) : Except Refusal Unit × World → Stage
  | (.ok (), after) => { stage with files := after.files, saved := stage.history :: stage.saved }
  | (.error _, after) => { stage with files := after.files }

def save (settings : Settings) (stage : Stage) : Stage :=
  stage.afterSave (Action.saveRegistry settings stage.registry (Action.start stage.files))

def afterLoad (stage : Stage) : Except Refusal Registry × World → Stage
  | (.ok registry, after) =>
      { stage with
        registry := registry, files := after.files, history := stage.saved.head?.getD [] }
  | (.error _, after) => { stage with files := after.files }

def load (settings : Settings) (stage : Stage) : Stage :=
  stage.afterLoad (Action.loadRegistry settings (Action.start stage.files))

def step (settings : Settings) (stage : Stage) : Step → Stage
  | .edit edit => stage.edit edit
  | .save => stage.save settings
  | .load => stage.load settings

def follow (settings : Settings) (stage : Stage) (steps : List Step) : Stage :=
  steps.foldl (step settings) stage

/-- Steps from the empty registry. -/
def run (settings : Settings) (first : Files) : List Step → Stage :=
  follow settings ⟨.empty, first, [], []⟩

end Stage

/-- The text that is stored for a registry is read as that registry. -/
def ReadsBack (registry : Registry) : Prop := ofText registry.text = .ok registry

variable {settings : Settings} {stage : Stage} {home : String} {first : Files}

/-! ### What is stored -/

theorem load_eq_ok_iff {files : Files} {path : String} {registry : Registry} :
    load files path = .ok registry ↔
      files.exists? path = false ∧ registry = .empty ∨
        ∃ content, files.readText path = .ok content ∧ ofText content = .ok registry := by
  rw [load, loadStored]
  cases present : files.exists? path with
  | false =>
      have unread (content : String) : files.readText path ≠ .ok content := by
        intro reads
        cases present.symm.trans (Files.exists_of_read_text reads)
      simp [unread, eq_comm, pure, Except.pure]
  | true =>
      cases reads : files.readText path with
      | error fault => simp [Outcome.ofFile]
      | ok content =>
          rw [Outcome.ofFile, ok_bind]
          cases read : ofText content <;>
            simp [read, pure, Except.pure, throw, throwThe, MonadExceptOf.throw]

namespace Stage

/-- What holds at all times of a run. -/
structure Fits (settings : Settings) (stage : Stage) : Prop where
  made : stage.registry = ofEdits stage.history
  sound : stage.files.Sound
  stored : ∀ content, stage.files.readText settings.registryPath = .ok content ↔
    content ∈ stage.saved.head?.map fun edits => (ofEdits edits).text

theorem Fits.loads (fits : stage.Fits settings)
    (readBack : ∀ edits ∈ stage.saved, ReadsBack (ofEdits edits)) {edits : List Edit}
    (last : stage.saved.head? = some edits) :
    Registry.load stage.files settings.registryPath = .ok (ofEdits edits) := by
  refine load_eq_ok_iff.mpr (.inr ⟨(ofEdits edits).text, ?_, ?_⟩)
  · exact (fits.stored _).mpr (by simp [last])
  · exact readBack edits (List.mem_of_head? last)

/-- Where nothing has been saved, a registry that can be loaded is the empty one. -/
theorem Fits.of_loaded (fits : stage.Fits settings)
    (readBack : ∀ edits ∈ stage.saved, ReadsBack (ofEdits edits)) {registry : Registry}
    (loaded : Registry.load stage.files settings.registryPath = .ok registry) :
    registry = ofEdits (stage.saved.head?.getD []) := by
  cases last : stage.saved.head? with
  | some edits => exact Except.ok.inj (loaded.symm.trans (fits.loads readBack last))
  | none =>
      rcases load_eq_ok_iff.mp loaded with ⟨_, rfl⟩ | ⟨content, reads, _⟩
      · rfl
      · have stored := (fits.stored content).mp reads
        rw [last] at stored
        cases stored

theorem load_of_refused {refusal : Refusal}
    (refused : Registry.load stage.files settings.registryPath = .error refusal) :
    stage.load settings = stage := by
  rw [load, Action.loadRegistry, Action.read_apply, Action.start, refused]
  rfl

theorem load_of_accepted {registry : Registry}
    (loaded : Registry.load stage.files settings.registryPath = .ok registry) :
    stage.load settings =
      { stage with registry := registry, history := stage.saved.head?.getD [] } := by
  rw [load, Action.loadRegistry, Action.read_apply, Action.start, loaded]
  rfl

theorem Fits.after_save (fits : stage.Fits settings) (atHome : settings.IsHome home)
    {ended : Except Refusal Unit × World}
    (stores : Action.Stores stage.files home settings.registryPath stage.registry.text ended.1
      ended.2.files) : (stage.afterSave ended).Fits settings := by
  obtain ⟨outcome, after⟩ := ended
  have sound := Settings.store_keeps_sound fits.sound stores
  cases outcome with
  | error refusal =>
      -- Directories can be left behind, but no text that was not there before.
      exact ⟨fits.made, sound, fun content =>
        (Settings.store_refused atHome.registryBelow atHome.registryEnds stores content).trans
          (fits.stored content)⟩
  | ok =>
      refine ⟨fits.made, sound, fun content => ?_⟩
      have reads : after.files.readText settings.registryPath = .ok stage.registry.text :=
        Settings.store_read_back fits.sound stores
      rw [afterSave, reads, fits.made]
      simp [eq_comm]

theorem Fits.step (fits : stage.Fits settings) (atHome : settings.IsHome home)
    (readBack : ∀ edits ∈ stage.saved, ReadsBack (ofEdits edits)) (next : Step) :
    (stage.step settings next).Fits settings := by
  cases next with
  | edit edit =>
      refine ⟨?_, fits.sound, fits.stored⟩
      rw [Stage.step, Stage.edit, of_edits_concat, fits.made]
  | save =>
      rw [Stage.step, save, Action.saveRegistry]
      exact fits.after_save atHome (Action.store_stores atHome.registryAbove "registry"
        stage.registry.text (Action.start stage.files))
  | load =>
      rw [Stage.step]
      cases loaded : Registry.load stage.files settings.registryPath with
      | error refusal =>
          rw [load_of_refused loaded]
          exact fits
      | ok registry =>
          rw [load_of_accepted loaded]
          exact ⟨fits.of_loaded readBack loaded, fits.sound, fits.stored⟩

theorem Fits.distinct (fits : stage.Fits settings) : stage.registry.names.Nodup :=
  fits.made ▸ names_of_edits_nodup stage.history

theorem saved_step (settings : Settings) (stage : Stage) (next : Step) :
    (stage.step settings next).saved = stage.saved ∨
      next = .save ∧ (stage.step settings next).saved = stage.history :: stage.saved := by
  cases next with
  | edit edit => exact .inl rfl
  | save =>
      rw [step, save]
      rcases Action.saveRegistry settings stage.registry (Action.start stage.files) with
        ⟨_ | ⟨⟩, _⟩
      · exact .inl rfl
      · exact .inr ⟨rfl, rfl⟩
  | load =>
      left
      rw [step]
      cases loaded : Registry.load stage.files settings.registryPath with
      | error refusal => rw [load_of_refused loaded]
      | ok registry => rw [load_of_accepted loaded]

theorem saved_subset_follow (settings : Settings) (stage : Stage) (steps : List Step) :
    stage.saved ⊆ (stage.follow settings steps).saved := by
  induction steps generalizing stage with
  | nil => exact List.Subset.refl _
  | cons next steps induction =>
      refine List.Subset.trans ?_ (induction (stage.step settings next))
      rcases saved_step settings stage next with same | ⟨_, longer⟩
      · rw [same]
        exact List.Subset.refl _
      · rw [longer]
        exact List.subset_cons_self _ _

theorem Fits.follow (fits : stage.Fits settings) (steps : List Step)
    (readBack : ∀ edits ∈ (stage.follow settings steps).saved, ReadsBack (ofEdits edits)) :
    (stage.follow settings steps).Fits settings := by
  obtain ⟨home, atHome⟩ := settings.exists_home
  induction steps generalizing stage with
  | nil => exact fits
  | cons next steps induction =>
      have earlier : ∀ edits ∈ stage.saved, ReadsBack (ofEdits edits) :=
        fun edits member =>
          readBack edits (saved_subset_follow settings stage (next :: steps) member)
      exact induction (fits.step atHome earlier next) readBack

end Stage

end ContainerApplets.Registry
