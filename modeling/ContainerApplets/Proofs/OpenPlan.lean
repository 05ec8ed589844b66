import ContainerApplets.Proofs.Invocation

/-!
What is given to the container has no part in planning. A plan is fixed by the table and the flags
up to the end of one command, the run of the invoked applet, and the arguments of the container come
to stand there and nowhere else, whatever they look like.
-/

namespace ContainerApplets

/-- A plan in which the end of one command is left open. -/
structure OpenPlan where
  before : List Command
  line : List String
  after : List Command

/-- Two plans that differ in the end of one command. -/
structure DifferAt (position : Nat) (line leftEnd rightEnd : List String)
    (left right : List Command) : Prop where
  length : left.length = right.length
  elsewhere : ∀ index, index ≠ position → left[index]? = right[index]?
  left : left[position]? = some ⟨false, line ++ leftEnd⟩
  right : right[position]? = some ⟨false, line ++ rightEnd⟩

namespace OpenPlan

def fill (plan : OpenPlan) (lineEnd : List String) : List Command :=
  plan.before ++ ⟨false, plan.line ++ lineEnd⟩ :: plan.after

theorem fill_differ (plan : OpenPlan) (leftEnd rightEnd : List String) :
    DifferAt plan.before.length plan.line leftEnd rightEnd (plan.fill leftEnd)
      (plan.fill rightEnd) where
  length := by simp [fill]
  elsewhere := by
    intro index other
    rcases Nat.lt_or_gt_of_ne other with early | late
    · simp [fill, List.getElem?_append_left early]
    · -- Behind the open place both plans go on alike.
      obtain ⟨beyond, rfl⟩ := Nat.exists_eq_add_of_lt late
      rw [fill, fill, Nat.add_assoc, List.getElem?_append_right (Nat.le_add_right _ _),
        List.getElem?_append_right (Nat.le_add_right _ _), Nat.add_sub_cancel_left,
        List.getElem?_cons_succ, List.getElem?_cons_succ]
  left := by simp [fill]
  right := by simp [fill]

end OpenPlan

/-! ### The own commands of an applet -/

namespace Applet

def preparation (applet : Applet) (options : RunOptions) : List Command :=
  (if applet.switch .pull then [.loud options.runtime (pullLine applet)] else []) ++
  (if applet.switch .kill then [.quiet options.runtime (killLine applet)] else [])

/-- The own run of an applet as far as the image reference. -/
def imageLine (applet : Applet) (options : RunOptions) : List String :=
  options.runtime :: "run" :: flagTokens applet options ++ [applet.imageReference]

/-- What comes after the image reference. The configured command is for when nothing is given, or
it goes ahead of what is given. -/
def lineEnd (applet : Applet) : TrailingArguments → List String → List String
  | .replace, [] => applet.command
  | .replace, given => given
  | .append, given => applet.command ++ given

theorem container_arguments_eq (applet : Applet) (given : List String) (mode : TrailingArguments) :
    containerArguments applet given mode = applet.lineEnd mode given := by
  cases mode with
  | replace => cases given <;> rfl
  | append => rfl

theorem commands_eq (applet : Applet) (given : List String) (options : RunOptions) :
    applet.commands given options = applet.preparation options ++
      [⟨false, applet.imageLine options ++ applet.lineEnd options.trailing given⟩] := by
  simp [commands, preparation, runLine, container_arguments_eq, imageLine, Command.loud]

end Applet

namespace AppletTable

/-- The plan for an unfolding, open after the image reference of the root. -/
def openPlan (table : AppletTable) (tree : HookTree) (options : RunOptions) : OpenPlan where
  before := table.resourceCommands tree.inOrder options ++
    tree.before.inOrder.flatMap (fun applet => applet.commands [] options) ++
    tree.applet.preparation options
  line := tree.applet.imageLine options
  after := tree.after.inOrder.flatMap fun applet => applet.commands [] options

variable {table : AppletTable} {name separator : String} {flags : List String}
  {options : RunOptions}

theorem resources_commands_eq_fill (tree : HookTree) (given : List String) :
    table.resourceCommands tree.inOrder options ++ tree.commands given options =
      (table.openPlan tree options).fill (tree.applet.lineEnd options.trailing given) := by
  simp [HookTree.commands, Applet.commands_eq tree.applet, openPlan, OpenPlan.fill]

/-- Planning fails in one way for all arguments, or it leaves one place open for them. -/
theorem plan_fills (table : AppletTable) (root : Applet) (options : RunOptions) :
    (∃ failure, ∀ given, table.plan root given options = .error failure) ∨
    ∃ tree, table.IsUnfolding root tree ∧ ∀ given, table.plan root given options =
      .ok ((table.openPlan tree options).fill (root.lineEnd options.trailing given)) := by
  cases closed : table.closure root with
  | error failure =>
      left
      exact ⟨failure, fun given => by rw [plan, closed, error_bind]⟩
  | ok order =>
      right
      obtain ⟨tree, unfolding, distinct, rfl⟩ := closure_eq_ok_iff.mp closed
      refine ⟨tree, unfolding, fun given => ?_⟩
      cases unfolding.applet
      rw [plan, closed, ok_bind, hook_commands_eq distinct, resources_commands_eq_fill, pure_eq_ok]

/-! ### Splitting -/

theorem split_separated (unseparated : separator ∉ flags) (given : List String) :
    splitArguments separator (flags ++ separator :: given) = ⟨flags, given⟩ := by
  have flag : ∀ other ∈ flags, decide (other ≠ separator) = true := by
    intro other member
    exact decide_eq_true fun same => unseparated (same ▸ member)
  rw [splitArguments, if_pos (by simp), List.takeWhile_append_of_pos flag,
    List.dropWhile_append_of_pos flag]
  simp

/-- Arguments without a separator are taken as if one stood in front of them. -/
theorem split_unseparated {given : List String} (unseparated : separator ∉ given) :
    splitArguments separator given = splitArguments separator (separator :: given) := by
  rw [← List.nil_append (separator :: given), split_separated (by simp), splitArguments,
    if_neg unseparated]

/-- An invocation with given flags is refused in one way for all arguments, or it leaves one place
open for them. -/
theorem prepare_fills (unseparated : separator ∉ flags) :
    (∃ refusal, ∀ given,
      table.prepare name (flags ++ separator :: given) separator options = .error refusal) ∨
    ∃ base overrides tree, table.get? name = some base ∧
      Overrides.ofFlags name flags = .ok overrides ∧
      table.IsUnfolding (overrides.apply base) tree ∧
      ∀ given, table.prepare name (flags ++ separator :: given) separator options =
        .ok ((table.openPlan tree options).fill
          ((overrides.apply base).lineEnd options.trailing given)) := by
  -- All that is checked ahead of planning is checked on the name and the flags.
  simp only [prepare, split_separated unseparated, named]
  cases present : table.get? name with
  | none => exact .inl ⟨_, fun _ => rfl⟩
  | some base =>
      cases parsed : Overrides.ofFlags name flags with
      | error report => exact .inl ⟨_, fun _ => rfl⟩
      | ok overrides =>
          simp only [Outcome.ofResult, Outcome.ofUsage, ok_bind]
          cases checked : checkOverridden name (overrides.apply base) with
          | error failure => exact .inl ⟨_, fun _ => rfl⟩
          | ok =>
              rcases plan_fills table (overrides.apply base) options with
                ⟨failure, refused⟩ | ⟨tree, unfolding, planned⟩
              · exact .inl ⟨.ofFailure failure, fun given => by simp [refused]⟩
              · exact .inr ⟨base, overrides, tree, rfl, rfl, unfolding,
                  fun given => by simp [planned]⟩

/-- Planning does not look at the arguments of the container. Behind the separator anything may
stand: two invocations that differ there are refused alike, or their plans differ in the end of the
command that runs the invoked applet. Without a separator all arguments are the container's. -/
theorem planning_ignores_container_arguments (unseparated : separator ∉ flags)
    (first second : List String) :
    ((∃ refusal,
        table.prepare name (flags ++ separator :: first) separator options = .error refusal ∧
        table.prepare name (flags ++ separator :: second) separator options = .error refusal) ∨
      ∃ base overrides tree left right, table.get? name = some base ∧
        Overrides.ofFlags name flags = .ok overrides ∧
        table.IsUnfolding (overrides.apply base) tree ∧
        table.prepare name (flags ++ separator :: first) separator options = .ok left ∧
        table.prepare name (flags ++ separator :: second) separator options = .ok right ∧
        DifferAt (table.openPlan tree options).before.length
          (options.runtime :: "run" :: flagTokens (overrides.apply base) options ++
            [(overrides.apply base).imageReference])
          ((overrides.apply base).lineEnd options.trailing first)
          ((overrides.apply base).lineEnd options.trailing second) left right) ∧
    ∀ arguments, separator ∉ arguments →
      table.prepare name arguments separator options =
        table.prepare name (separator :: arguments) separator options := by
  refine ⟨?_, fun arguments absent => by rw [prepare, prepare, split_unseparated absent]⟩
  rcases @prepare_fills table name separator flags options unseparated with
    ⟨refusal, refused⟩ | ⟨base, overrides, tree, present, parsed, unfolding, prepared⟩
  · exact .inl ⟨refusal, refused first, refused second⟩
  · refine .inr ⟨base, overrides, tree, _, _, present, parsed, unfolding, prepared first,
      prepared second, ?_⟩
    have differ := (table.openPlan tree options).fill_differ
      ((overrides.apply base).lineEnd options.trailing first)
      ((overrides.apply base).lineEnd options.trailing second)
    rw [openPlan, unfolding.applet] at differ
    rw [openPlan, unfolding.applet]
    exact differ

/-- What looks like a flag, a separator or a hook goes to the container as it stands. -/
theorem planning_ignores_served_arguments :
    "--" ∉ ["--pull"] ∧
    ∃ position line left right,
      servedTable.prepare "web" ["--pull", "--", "--rm", "--", "db"] "--"
        ⟨"docker", true, .replace⟩ = .ok left ∧
      servedTable.prepare "web" ["--pull", "--"] "--" ⟨"docker", true, .replace⟩ = .ok right ∧
      DifferAt position line ["--rm", "--", "db"] [] left right := by
  have unseparated : "--" ∉ ["--pull"] := by decide
  have accepted : ∃ commands, servedTable.prepare "web" ["--pull", "--"] "--"
      ⟨"docker", true, .replace⟩ = .ok commands := ⟨_, rfl⟩
  have ⟨alike, _⟩ := @planning_ignores_container_arguments servedTable "web" "--" ["--pull"]
    ⟨"docker", true, .replace⟩ unseparated ["--rm", "--", "db"] []
  refine ⟨unseparated, ?_⟩
  rcases alike with
    ⟨refusal, _, refused⟩ |
    ⟨base, overrides, tree, left, right, present, _, _, first, second, differ⟩
  · obtain ⟨commands, planned⟩ := accepted
    exact nomatch planned.symm.trans refused
  · have bare : base.command = [] := by
      cases present
      rfl
    rw [show (overrides.apply base).lineEnd .replace [] = base.command from rfl, bare] at differ
    exact ⟨_, _, left, right, first, second, differ⟩

end AppletTable

end ContainerApplets
