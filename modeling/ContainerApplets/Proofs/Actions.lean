import ContainerApplets.Program.Launch

/-!
What actions do to the world. An action that is refused leaves the world as it was when it was
refused.
-/

namespace ContainerApplets

variable {Value Other : Type}

theorem of_result_eq_ok_iff {result : Except Failure Value} {value : Value} :
    Outcome.ofResult result = .ok value ↔ result = .ok value := by
  cases result <;> simp [Outcome.ofResult]

theorem within_eq_ok_iff {context : String} {outcome : Outcome Value} {value : Value} :
    outcome.within context = .ok value ↔ outcome = .ok value := by
  cases outcome <;> simp [Outcome.within]

namespace Action

theorem bind_apply (action : Action Value) (next : Value → Action Other) (world : World) :
    (action >>= next) world =
      match action world with
      | (.ok value, after) => next value after
      | (.error refusal, after) => (.error refusal, after) := by
  change StateT.bind action (ExceptT.bindCont next) world = _
  rw [StateT.bind]
  rcases action world with ⟨_ | _, _⟩ <;> rfl

theorem bind_apply_eq_ok {action : Action Value} {next : Value → Action Other} {world after : World}
    {other : Other} :
    (action >>= next) world = (.ok other, after) ↔
      ∃ value between, action world = (.ok value, between) ∧
        next value between = (.ok other, after) := by
  rw [bind_apply]
  rcases action world with ⟨refusal | value, between⟩
  · exact ⟨nofun, fun ⟨_, _, same, _⟩ => nomatch same⟩
  · refine ⟨fun ends => ⟨value, between, rfl, ends⟩, fun ⟨_, _, same, ends⟩ => ?_⟩
    cases same
    exact ends

theorem each_apply {Item : Type} (perform : Item → Action Unit) (item : Item) (rest : List Item)
    (world : World) :
    (item :: rest).forM perform world =
      match perform item world with
      | (.ok _, after) => rest.forM perform after
      | (.error refusal, after) => (.error refusal, after) := by
  change (perform item >>= fun _ => rest.forM perform) world = _
  rw [bind_apply]
  rcases perform item world with ⟨_ | _, _⟩ <;> rfl

theorem print_bind_apply (line : ReportLine) (next : Unit → Action Other) (world : World) :
    (print line >>= next) world = next () { world with lines := world.lines ++ [line] } :=
  bind_apply (print line) next world

theorem get_bind_apply (next : World → Action Other) (world : World) :
    (get >>= next) world = next world world :=
  bind_apply get next world

theorem of_outcome_apply (outcome : Outcome Value) (world : World) :
    ofOutcome outcome world = (outcome, world) := by
  cases outcome <;> rfl

theorem of_outcome_apply_eq_ok {outcome : Outcome Value} {world after : World} {value : Value} :
    ofOutcome outcome world = (.ok value, after) ↔ outcome = .ok value ∧ after = world := by
  rw [of_outcome_apply]
  refine ⟨fun same => ⟨congrArg Prod.fst same, (congrArg Prod.snd same).symm⟩, fun ends => ?_⟩
  rw [ends.1, ends.2]

theorem read_apply (look : Files → Outcome Value) (world : World) :
    read look world = (look world.files, world) :=
  of_outcome_apply (look world.files) world

theorem change_apply (step : Files → Outcome Files) (world : World) :
    change step world =
      match step world.files with
      | .ok files => (.ok (), { world with files := files })
      | .error refusal => (.error refusal, world) := by
  rw [change, bind_apply, read_apply]
  cases step world.files <;> rfl

theorem change_apply_eq_ok {step : Files → Outcome Files} {world after : World} :
    change step world = (.ok (), after) ↔
      ∃ files, step world.files = .ok files ∧ after = { world with files := files } := by
  rw [change_apply]
  cases step world.files with
  | error refusal => exact ⟨nofun, fun ⟨_, same, _⟩ => nomatch same⟩
  | ok files =>
      refine ⟨fun same => ⟨files, rfl, (congrArg Prod.snd same).symm⟩, fun ⟨_, same, ends⟩ => ?_⟩
      cases same
      rw [ends]

theorem make_directories_apply (path : String) (world : World) :
    makeDirectories path world =
      match world.files.makeDirectories path with
      | (files, some fault) =>
          (.error ⟨["Failed to create directory " ++ path], .file fault⟩,
            { world with files := files })
      | (files, none) => (.ok (), { world with files := files }) := by
  rw [makeDirectories, get_bind_apply]
  rcases world.files.makeDirectories path with ⟨files, _ | fault⟩ <;> rfl

theorem within_apply (context : String) (action : Action Value) (world : World) :
    within context action world =
      match action world with
      | (.ok value, after) => (.ok value, after)
      | (.error refusal, after) => (.error (refusal.within context), after) := by
  simp only [within, tryCatch, tryCatchThe, MonadExceptOf.tryCatch, ExceptT.tryCatch, ExceptT.mk,
    bind, StateT.bind]
  rcases action world with ⟨_ | _, _⟩ <;> rfl

theorem within_apply_eq_ok {context : String} {action : Action Value} {world after : World}
    {value : Value} :
    within context action world = (.ok value, after) ↔ action world = (.ok value, after) := by
  rw [within_apply]
  rcases action world with ⟨_ | _, _⟩
  · exact ⟨nofun, nofun⟩
  · rfl

/-- Whatever a refusal is reported as, the files are left as they are. -/
theorem finish_files (action : Action Unit) (files : Files) :
    (action.finish files).files = (action (start files)).2.files := by
  rw [finish]
  split
  · next stands => rw [stands]; rfl
  · next refusal world stands =>
    rw [stands, Ending.addRefusal]
    split
    · rw [Ending.addUsage]
      split <;> rfl
    · rfl
    · rfl

/-! ### Storing -/

/-- How storing a text at a path in a directory can end, and what it leaves behind. -/
inductive Stores (files : Files) (directory path text : String) :
    Except Refusal Unit → Files → Prop
  | unmade {made : Files} {fault : FileFault} {refusal : Refusal}
      (makes : files.makeDirectories directory = (made, some fault)) :
      Stores files directory path text (.error refusal) made
  | unwritten {made : Files} {fault : FileFault} {refusal : Refusal}
      (makes : files.makeDirectories directory = (made, none))
      (refused : made.writeText path text = .error fault) :
      Stores files directory path text (.error refusal) made
  | written {made written : Files} (makes : files.makeDirectories directory = (made, none))
      (writes : made.writeText path text = .ok written) :
      Stores files directory path text (.ok ()) written

theorem store_stores {directory path : String} (above : Path.parent? path = some directory)
    (what text : String) (world : World) :
    Stores world.files directory path text (store what text path world).1
      (store what text path world).2.files := by
  have stored : store what text path world =
      (makeDirectories directory >>= fun _ => write what text path) world := by
    rw [store, above]
    rfl
  rw [stored, bind_apply, make_directories_apply]
  rcases makes : world.files.makeDirectories directory with ⟨made, _ | fault⟩
  · simp only [write, change_apply]
    cases writes : made.writeText path text with
    | ok written => exact .written makes writes
    | error fault => exact .unwritten makes writes
  · exact .unmade makes

end Action

end ContainerApplets
