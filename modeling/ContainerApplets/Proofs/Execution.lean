import ContainerApplets.Proofs.Actions
import Mathlib.Data.List.Induction

/-!
How a run of commands ends. It stops at the first command that is not silent and does not succeed,
whatever becomes of the silent ones, and the program then exits with the code of that command.
-/

namespace ContainerApplets

/-! ### Children that have ended -/

/-- The word that is reported for a child, and the exit code that stands for its end: it has exited
with a code, or a signal has killed it, with or without a dump. -/
inductive WaitStatus.Finished : WaitStatus → Nat → Prop
  | exited {code : Nat} (small : code < 256) : Finished ⟨UInt32.ofNat (code * 256)⟩ code
  | killed {signal : Nat} (positive : 0 < signal) (small : signal < 127) (dumped : Bool) :
      Finished ⟨UInt32.ofNat (signal + if dumped then 128 else 0)⟩ (128 + signal)

namespace WaitStatus

theorem of_exit_code_zero : ofExitCode 0 = ⟨0⟩ := rfl

theorem succeeded_iff {status : WaitStatus} :
    status.succeeded = true ↔ status = ofExitCode 0 := by
  rw [of_exit_code_zero, succeeded, beq_iff_eq]
  exact ⟨fun same => congrArg mk same, congrArg word⟩

theorem Finished.mirrored_eq {status : WaitStatus} {code : Nat} (finished : status.Finished code) :
    status.mirrored = code := by
  cases finished with
  | exited small =>
      have word : (UInt32.ofNat (code * 256)).toNat = code * 256 := by
        rw [UInt32.toNat_ofNat', Nat.mod_eq_of_lt (by omega)]
      have ended : code * 256 % 128 = 0 := by omega
      have value : code * 256 / 256 % 256 = code := by omega
      simp only [mirrored, exitCode?, termination, word, ended, value, if_true]
  | @killed signal positive small dumped =>
      have word : (UInt32.ofNat (signal + if dumped then 128 else 0)).toNat =
          signal + if dumped then 128 else 0 := by
        rw [UInt32.toNat_ofNat', Nat.mod_eq_of_lt (by split <;> omega)]
      have ended : (signal + if dumped then 128 else 0) % 128 = signal := by split <;> omega
      have exited : ¬signal = 0 := by omega
      have running : ¬(signal = 0 ∨ signal = 127) := by omega
      simp only [mirrored, exitCode?, signal?, termination, word, ended, if_neg exited,
        if_neg running]

/-- Only the code of a child that succeeded is zero, and every code fits into a byte. -/
theorem Finished.code_of_failure {status : WaitStatus} {code : Nat}
    (finished : status.Finished code) (failed : status ≠ ofExitCode 0) : 0 < code ∧ code < 256 := by
  cases finished with
  | exited small =>
      refine ⟨Nat.pos_of_ne_zero ?_, small⟩
      rintro rfl
      exact failed rfl
  | killed positive small dumped => omega

end WaitStatus

/-! ### Runs of commands -/

section Runs

variable {runner : Runner} {commands before rest : List Command} {command : Command}
  {execution : Execution} {code : Nat}

/-- The answer to a command that comes behind others, all of which have been called. -/
def Runner.answer (runner : Runner) (earlier : List Command) (command : Command) : Answer :=
  runner (earlier.map Command.call) command.call

/-- Every command that is not silent succeeds. -/
def Runner.Passes (runner : Runner) (commands : List Command) : Prop :=
  ∀ before command after, commands = before ++ command :: after → command.silent = false →
    runner.answer before command = .ended (.ofExitCode 0)

/-- A command that fails where all commands ahead of it pass. -/
structure Runner.Stops (runner : Runner) (commands before : List Command) (command : Command) :
    Prop where
  split : ∃ after, commands = before ++ command :: after
  passed : runner.Passes before
  loud : command.silent = false
  fails : runner.answer before command ≠ .ended (.ofExitCode 0)

/-- How a run of commands ends, and the exit code that the program gives for it. Nothing behind the
first command that fails is called. -/
inductive Runner.Ends (runner : Runner) (commands : List Command) : Execution → Nat → Prop
  | completed (passed : runner.Passes commands) :
      Ends runner commands ⟨commands.map Command.call, .ok ()⟩ 0
  | failed {before : List Command} {command : Command} {status : WaitStatus}
      (stops : runner.Stops commands before command)
      (answered : runner.answer before command = .ended status) :
      Ends runner commands
        ⟨(before ++ [command]).map Command.call,
          .error (.ofFailure (.exited command.line status.mirrored))⟩ status.mirrored
  | unstarted {before : List Command} {command : Command} {refusal : Refusal}
      (stops : runner.Stops commands before command)
      (answered : runner.answer before command = .unstarted refusal) :
      Ends runner commands ⟨(before ++ [command]).map Command.call, .error refusal⟩ 1

theorem Command.refusal_of_silent (silent : command.silent = true) (answer : Answer) :
    command.refusal? answer = none :=
  if_pos silent

theorem Command.refusal_of_success : command.refusal? (.ended (.ofExitCode 0)) = none := by
  rw [refusal?]
  split <;> rfl

theorem Command.refusal_of_failure (loud : command.silent = false) {status : WaitStatus}
    (unsuccessful : status ≠ .ofExitCode 0) :
    command.refusal? (.ended status) =
      some (.ofFailure (.exited command.line status.mirrored)) := by
  have failed : status.succeeded = false :=
    Bool.eq_false_iff.mpr fun succeeded => unsuccessful (WaitStatus.succeeded_iff.mp succeeded)
  simp only [refusal?, loud, failed, Bool.false_eq_true, if_false]

theorem Command.refusal_of_unstarted (loud : command.silent = false) (refusal : Refusal) :
    command.refusal? (.unstarted refusal) = some refusal := by
  simp only [refusal?, loud, Bool.false_eq_true, if_false]

/-- A passed command is called, and the run goes on. -/
theorem execute_after_passed (earlier : List Command)
    (passed : command.silent = false → runner.answer earlier command = .ended (.ofExitCode 0)) :
    executeAfter runner (earlier.map Command.call) (command :: rest) =
      executeAfter runner ((earlier ++ [command]).map Command.call) rest := by
  have unrefused : command.refusal? (runner (earlier.map Command.call) command.call) = none := by
    cases loud : command.silent with
    | true => exact Command.refusal_of_silent loud _
    | false =>
        have answered := passed loud
        rw [Runner.answer] at answered
        rw [answered, Command.refusal_of_success]
  rw [executeAfter, unrefused, List.map_append, List.map_singleton]

theorem execute_after_refused (earlier : List Command) {refusal : Refusal}
    (refused : command.refusal? (runner.answer earlier command) = some refusal) :
    executeAfter runner (earlier.map Command.call) (command :: rest) =
      ⟨(earlier ++ [command]).map Command.call, .error refusal⟩ := by
  rw [Runner.answer] at refused
  rw [executeAfter, refused, List.map_append, List.map_singleton]

theorem Runner.Passes.append_left (passed : runner.Passes (before ++ rest)) :
    runner.Passes before := by
  intro earlier command after split loud
  exact passed earlier command (after ++ rest) (by simp [split]) loud

theorem Runner.passes_append_singleton :
    runner.Passes (before ++ [command]) ↔ runner.Passes before ∧
      (command.silent = false → runner.answer before command = .ended (.ofExitCode 0)) := by
  constructor
  · intro passed
    exact ⟨passed.append_left, passed before command [] rfl⟩
  · intro passed earlier other after split loud
    rcases List.eq_nil_or_concat after with rfl | ⟨between, last, rfl⟩
    · obtain ⟨rfl, same⟩ := List.append_inj' split rfl
      cases same
      exact passed.2 loud
    · rw [List.concat_eq_append, ← List.cons_append, ← List.append_assoc] at split
      obtain ⟨rfl, _⟩ := List.append_inj' split rfl
      exact passed.1 earlier other between rfl loud

/-- Commands that pass are called one after the other. -/
theorem execute_behind_passed (passed : runner.Passes before) (rest : List Command) :
    execute runner (before ++ rest) = executeAfter runner (before.map Command.call) rest := by
  induction before using List.reverseRecOn generalizing rest with
  | nil => rfl
  | append_singleton before command induction =>
      obtain ⟨earlier, last⟩ := Runner.passes_append_singleton.mp passed
      rw [List.append_assoc, induction earlier, List.singleton_append,
        execute_after_passed before last]

/-- The commands pass, or there is a first one that does not. -/
theorem Runner.passes_or_stops (runner : Runner) (commands : List Command) :
    runner.Passes commands ∨ ∃ before command, runner.Stops commands before command := by
  induction commands using List.reverseRecOn with
  | nil => exact .inl fun before command after split => by simp at split
  | append_singleton commands command induction =>
      rcases induction with passed | ⟨before, first, stops⟩
      · by_cases last :
          command.silent = false → runner.answer commands command = .ended (.ofExitCode 0)
        · exact .inl (passes_append_singleton.mpr ⟨passed, last⟩)
        · obtain ⟨loud, fails⟩ := Classical.not_imp.mp last
          exact .inr ⟨commands, command, ⟨[], rfl⟩, passed, loud, fails⟩
      · obtain ⟨after, split⟩ := stops.split
        exact .inr ⟨before, first, ⟨after ++ [command], by simp [split]⟩, stops.passed, stops.loud,
          stops.fails⟩

theorem Runner.Stops.not_passes (stops : runner.Stops commands before command) :
    ¬runner.Passes commands := by
  intro passed
  obtain ⟨after, split⟩ := stops.split
  exact stops.fails (passed before command after split stops.loud)

/-- A command that fails is not among those ahead of another that fails. -/
theorem Runner.Stops.unique {other : List Command} {last : Command}
    (first : runner.Stops commands before command) (second : runner.Stops commands other last) :
    before = other ∧ command = last := by
  have ahead {left right : List Command} {one two : Command}
      (stops : runner.Stops commands left one) (passes : runner.Stops commands right two)
      (longer : ∃ more, right = left ++ more) : left = right ∧ one = two := by
    obtain ⟨more, rfl⟩ := longer
    obtain ⟨after, split⟩ := stops.split
    obtain ⟨behind, again⟩ := passes.split
    rw [split, List.append_assoc, List.append_cancel_left_eq] at again
    cases more with
    | nil => exact ⟨(List.append_nil left).symm, (List.cons.inj again).1⟩
    | cons same more =>
        obtain ⟨rfl, _⟩ := List.cons.inj again
        exact absurd (passes.passed left one more rfl stops.loud) stops.fails
  obtain ⟨after, split⟩ := first.split
  obtain ⟨behind, again⟩ := second.split
  rcases List.append_eq_append_iff.mp (split.symm.trans again) with
    ⟨more, longer, _⟩ | ⟨more, shorter, _⟩
  · exact ahead first second ⟨more, longer⟩
  · have ⟨same, equal⟩ := ahead second first ⟨more, shorter⟩
    exact ⟨same.symm, equal.symm⟩

/-- The ways in which a run can end exclude each other. -/
theorem Runner.Ends.unique {other : Execution} {number : Nat}
    (first : runner.Ends commands execution code) (second : runner.Ends commands other number) :
    execution = other ∧ code = number := by
  cases first with
  | completed passed =>
      cases second with
      | completed => exact ⟨rfl, rfl⟩
      | failed stops | unstarted stops => exact absurd passed stops.not_passes
  | failed stops answered =>
      cases second with
      | completed passed => exact absurd passed stops.not_passes
      | failed again known =>
          obtain ⟨rfl, rfl⟩ := stops.unique again
          cases answered.symm.trans known
          exact ⟨rfl, rfl⟩
      | unstarted again known =>
          obtain ⟨rfl, rfl⟩ := stops.unique again
          cases answered.symm.trans known
  | unstarted stops answered =>
      cases second with
      | completed passed => exact absurd passed stops.not_passes
      | failed again known =>
          obtain ⟨rfl, rfl⟩ := stops.unique again
          cases answered.symm.trans known
      | unstarted again known =>
          obtain ⟨rfl, rfl⟩ := stops.unique again
          cases answered.symm.trans known
          exact ⟨rfl, rfl⟩

theorem Runner.Stops.execute_eq (stops : runner.Stops commands before command) {refusal : Refusal}
    (refused : command.refusal? (runner.answer before command) = some refusal) :
    execute runner commands =
      ⟨(before ++ [command]).map Command.call, .error refusal⟩ := by
  obtain ⟨after, split⟩ := stops.split
  rw [split, execute_behind_passed stops.passed, execute_after_refused before refused]

theorem Runner.execute_ends (runner : Runner) (commands : List Command) :
    ∃ code, runner.Ends commands (execute runner commands) code := by
  rcases runner.passes_or_stops commands with passed | ⟨before, command, stops⟩
  · have run := execute_behind_passed passed []
    rw [List.append_nil] at run
    exact ⟨_, by rw [run]; exact .completed passed⟩
  · cases answered : runner.answer before command with
    | ended status =>
        have unsuccessful : status ≠ .ofExitCode 0 := fun same => stops.fails (same ▸ answered)
        have run := stops.execute_eq
          (answered ▸ Command.refusal_of_failure stops.loud unsuccessful)
        exact ⟨_, by rw [run]; exact .failed stops answered⟩
    | unstarted refusal =>
        have run := stops.execute_eq (answered ▸ Command.refusal_of_unstarted stops.loud refusal)
        exact ⟨_, by rw [run]; exact .unstarted stops answered⟩

/-- Two runners that answer alike whenever the call is not quiet. -/
def Runner.SameLoud (runner other : Runner) : Prop :=
  ∀ earlier call, call.quiet = false → other earlier call = runner earlier call

theorem execute_after_congr {other : Runner} (same : runner.SameLoud other) (earlier : List Call)
    (commands : List Command) :
    executeAfter other earlier commands = executeAfter runner earlier commands := by
  induction commands generalizing earlier with
  | nil => rfl
  | cons command rest induction =>
      have alike : command.refusal? (other earlier command.call) =
          command.refusal? (runner earlier command.call) := by
        cases loud : command.silent with
        | true => rw [Command.refusal_of_silent loud, Command.refusal_of_silent loud]
        | false => rw [same earlier command.call loud]
      rw [executeAfter, executeAfter, alike]
      split
      · rfl
      · exact induction _

end Runs

/-! ### The exit code of the program -/

section Program

variable {host : Host} {argv : List String} {files : Files} {applet : String}
  {arguments : List String} {commands : List Command}

namespace Action

/-- Preparing an applet looks at the world and leaves it as it is. -/
theorem prepare_apply (host : Host) (applet : String) (arguments : List String) (world : World) :
    (prepare host applet arguments world).2 = world := by
  have opened : (session host world).2 = world := by
    rw [session, bind_apply, Action.settings, of_outcome_apply]
    cases host.settings <;> rfl
  rw [prepare, bind_apply]
  rcases begun : session host world with ⟨_ | session, after⟩
  · rwa [begun] at opened
  · rw [begun] at opened
    cases opened
    dsimp only
    rw [bind_apply, Action.table, of_outcome_apply]
    cases session.table with
    | error refusal => rfl
    | ok table =>
        dsimp only
        rw [of_outcome_apply]

theorem run_apply (prepared : (prepare host applet arguments (start files)).1 = .ok commands) :
    run host applet arguments (start files) =
      ((execute host.runner commands).result,
        { start files with calls := (execute host.runner commands).calls }) := by
  have whole : prepare host applet arguments (start files) = (.ok commands, start files) :=
    Prod.ext prepared (prepare_apply host applet arguments (start files))
  rw [run, bind_apply, whole]
  dsimp only
  rw [bind_apply]
  exact of_outcome_apply _ _

end Action

/-- The program calls what the run calls, and its exit code is that of the run. -/
theorem launch_ends (invoked : Request.ofArguments argv = .ok (.run applet arguments))
    (prepared : (Action.prepare host applet arguments (Action.start files)).1 = .ok commands) :
    (launch host argv files).calls = (execute host.runner commands).calls ∧
      host.runner.Ends commands (execute host.runner commands) (launch host argv files).code := by
  have finished : launch host argv files =
      match (execute host.runner commands).result with
      | .ok _ => Ending.ofWorld
          { Action.start files with calls := (execute host.runner commands).calls }
      | .error refusal => (Ending.ofWorld
          { Action.start files with calls := (execute host.runner commands).calls }).addRefusal
          refusal := by
    rw [launch, invoked]
    dsimp only [Request.perform]
    rw [Action.finish, Action.run_apply prepared]
    cases (execute host.runner commands).result <;> rfl
  obtain ⟨code, ends⟩ := host.runner.execute_ends commands
  rw [finished]
  generalize execute host.runner commands = execution at ends ⊢
  cases ends with
  | completed passed => exact ⟨rfl, .completed passed⟩
  | failed stops answered => exact ⟨rfl, .failed stops answered⟩
  | @unstarted before command refusal stops answered =>
      have reported : ∃ fault, refusal =
          ⟨["Failed to run '" ++ command.call.program ++ "'"], .file fault⟩ := by
        rw [Runner.answer, Host.runner] at answered
        split at answered
        · cases answered
        · next fault _ =>
          cases answered
          exact ⟨fault, rfl⟩
      obtain ⟨fault, rfl⟩ := reported
      exact ⟨rfl, .unstarted stops answered⟩

end Program

/-- There is one way for a run to end, for every runner, and the run ends in it: all commands up to
the first that is not silent and fails are called, in order, and its failure is the result. How
silent commands end makes no difference. The exit code that is passed on for a child that has ended
is its own or tells its signal, and it is not zero if the child has failed; it becomes the exit code
of a program that makes the run. -/
theorem run_stops_at_first_failure (runner : Runner) (commands : List Command) :
    (∃ code, runner.Ends commands (execute runner commands) code) ∧
    (∀ execution other code number, runner.Ends commands execution code →
      runner.Ends commands other number → execution = other ∧ code = number) ∧
    (∀ other : Runner, runner.SameLoud other →
      execute other commands = execute runner commands) ∧
    (∀ (status : WaitStatus) (code : Nat), status.Finished code →
      status.mirrored = code ∧ (status ≠ .ofExitCode 0 → 0 < code ∧ code < 256)) ∧
    ∀ (host : Host) (argv : List String) (files : Files) (applet : String)
      (arguments : List String), host.runner = runner →
      Request.ofArguments argv = .ok (.run applet arguments) →
      (Action.prepare host applet arguments (Action.start files)).1 = .ok commands →
      (launch host argv files).calls = (execute runner commands).calls ∧
        runner.Ends commands (execute runner commands) (launch host argv files).code := by
  refine ⟨runner.execute_ends commands, ?_, ?_, ?_, ?_⟩
  · intro execution other code number first second
    exact first.unique second
  · intro other same
    exact execute_after_congr same [] commands
  · intro status code finished
    exact ⟨finished.mirrored_eq, finished.code_of_failure⟩
  · intro host argv files applet arguments same invoked prepared
    subst same
    exact launch_ends invoked prepared

/-! ### A container that is killed -/

/-- There is nothing to kill ahead of the run, and the run itself is killed. -/
def interruptedHost : Host where
  lookup := fun name => if name = "HOME" then some "/home" else none
  home := none
  network := ⟨fun _ => .error "no connection"⟩
  executable := "/usr/bin/dockerbox"
  now := default
  stdinIsTerminal := false
  start := fun _ call => .ok (match call.arguments.head? with
    | some "kill" => .ofExitCode 1
    | some "run" => .ofSignal 9
    | _ => .ofExitCode 0)

def pulledFiles : Files where
  tree := ((FileTree.empty.set ["home"] .directory).set ["home", ".dockerbox"] .directory).set
    ["home", ".dockerbox", "web.dbx.yaml"]
    (.file "applets:\n  web:\n    image: nginx\n    pull: true\n    kill: true\n" false)
  here := []

theorem interrupted_run_ends :
    let commands : List Command := [
      .loud "docker" ["pull", "nginx:latest"],
      .quiet "docker" ["kill", "web"],
      .loud "docker" ["run", "--rm", "--interactive", "nginx:latest"]]
    let patient : Runner := fun earlier call =>
      if call.quiet then .ended (.ofExitCode 0) else interruptedHost.runner earlier call
    let ending := launch interruptedHost ["/usr/bin/web"] pulledFiles
    interruptedHost.runner.SameLoud patient ∧ (WaitStatus.ofSignal 9).Finished 137 ∧
    WaitStatus.ofSignal 9 ≠ .ofExitCode 0 ∧
    Request.ofArguments ["/usr/bin/web"] = .ok (.run "web" []) ∧
    (Action.prepare interruptedHost "web" [] (Action.start pulledFiles)).1 = .ok commands ∧
    execute patient commands = execute interruptedHost.runner commands ∧
    (WaitStatus.ofSignal 9).mirrored = 137 ∧
    ending.calls = (execute interruptedHost.runner commands).calls ∧
    interruptedHost.runner.Ends commands (execute interruptedHost.runner commands) ending.code ∧
    ending.calls = commands.map Command.call ∧ ending.code = 137 := by
  intro commands patient ending
  have same : interruptedHost.runner.SameLoud patient := by
    intro earlier call loud
    exact if_neg (by simp [loud])
  have finished : (WaitStatus.ofSignal 9).Finished 137 :=
    @WaitStatus.Finished.killed 9 (by decide) (by decide) false
  have evaluated :
      (Action.prepare interruptedHost "web" [] (Action.start pulledFiles)).1 = .ok commands ∧
      ending.calls = commands.map Command.call ∧ ending.code = 137 := by decide +kernel
  obtain ⟨prepared, calls, code⟩ := evaluated
  obtain ⟨_, _, silent, children, program⟩ :=
    run_stops_at_first_failure interruptedHost.runner commands
  obtain ⟨called, ends⟩ :=
    program interruptedHost ["/usr/bin/web"] pulledFiles "web" [] rfl rfl prepared
  exact ⟨same, finished, by decide, rfl, prepared, silent patient same,
    (children _ _ finished).1, called, ends, calls, code⟩

end ContainerApplets
