import ContainerApplets.CommandLine.Request
import ContainerApplets.Proofs.Checked

/-!
An applet is run by a path that ends in its name, or by its name behind a management command. The
arguments are the same in both forms unless the first of them is a flag of the management command
line itself, which then answers it.
-/

namespace ContainerApplets.CommandLine

/-- The command line answers `--help` and `--version`, also with a value, and the letters `h` and
`V` when they stand behind a hyphen without others. -/
def isOwnFlag (argument : String) : Bool :=
  match Argument.ofText argument with
  | .long name _ => name == "help" || name == "version"
  | .short first rest => (first :: rest).all fun letter => letter == 'h' || letter == 'V'
  | _ => false

namespace Verb

/-- An applet and its arguments follow. -/
def Invokes (verb : Verb) : Prop := verb = .plan ∨ verb = .run

/-- What is asked for by an applet and its arguments behind a command. -/
def invocation (verb : Verb) (applet : String) (arguments : List String) : Request :=
  if verb = .plan then .plan applet arguments else .run applet arguments

variable {verb : Verb}

theorem Invokes.words (invokes : verb.Invokes) : verb.words = [.applet, .arguments] := by
  rcases invokes with rfl | rfl <;> rfl

theorem Invokes.no_command (invokes : verb.Invokes) (name : String) :
    verb.command? name = none := by
  rcases invokes with rfl | rfl <;> rfl

theorem Invokes.flags (invokes : verb.Invokes) : verb.flags = [.help, .version] := by
  rcases invokes with rfl | rfl <;> rfl

theorem Invokes.of_long (invokes : verb.Invokes) {name : String} {flag : Flag}
    (found : verb.long? name = some flag) : flag = .help ∨ flag = .version := by
  simpa [invokes.flags] using List.mem_of_find?_eq_some found

theorem Invokes.of_short (invokes : verb.Invokes) {letter : Char} {flag : Flag}
    (found : verb.short? letter = some flag) : flag = .help ∨ flag = .version := by
  simpa [invokes.flags] using List.mem_of_find?_eq_some found

theorem Invokes.long_known (invokes : verb.Invokes) (name : String) :
    (verb.long? name).isSome = (name == "help" || name == "version") := by
  rw [long?, invokes.flags, Bool.eq_iff_iff, List.find?_isSome]
  simp [Flag.long, @eq_comm _ name]

theorem Invokes.short_known (invokes : verb.Invokes) (letter : Char) :
    (verb.short? letter).isSome = (letter == 'h' || letter == 'V') := by
  rw [short?, invokes.flags, Bool.eq_iff_iff, List.find?_isSome]
  simp [Flag.short?, @eq_comm _ letter]

end Verb

namespace Level

/-- The applet has been named, and nothing that is still to be checked can be wrong. -/
structure Names (level : Level) (verb : Verb) (name : String) : Prop where
  verb : level.verb = verb
  words : ∃ rest, level.words = name :: rest
  settles : level.settle = .ok { level with pending := .nothing }

/-- The level after one argument of the applet. -/
def collect (level : Level) (argument : String) : Level :=
  { level with words := level.words ++ [argument], pending := .nothing, ended := true }

/-- The level when the applet has just been named. -/
def atApplet (verb : Verb) (name : String) : Level :=
  { start verb with words := [name], pending := .word .applet name }

variable {level : Level} {verb : Verb} {name : String}

theorem at_applet_names : (atApplet verb name).Names verb name := ⟨rfl, ⟨[], rfl⟩, rfl⟩

theorem Names.collect (names : level.Names verb name) (argument : String) :
    (level.collect argument).Names verb name := by
  obtain ⟨rest, words⟩ := names.words
  exact ⟨names.verb, ⟨rest ++ [argument], by simp [Level.collect, words]⟩, rfl⟩

theorem Names.settled (names : level.Names verb name) :
    { level with pending := .nothing }.Names verb name := ⟨names.verb, names.words, rfl⟩

theorem Names.next_word (invokes : verb.Invokes) (names : level.Names verb name) :
    level.nextWord? = some .arguments := by
  obtain ⟨rest, words⟩ := names.words
  rw [nextWord?, names.verb, invokes.words, words]
  cases rest <;> simp

theorem Names.awaits (invokes : verb.Invokes) (names : level.Names verb name) :
    level.awaitsArguments = true := by
  rw [awaitsArguments, names.next_word invokes]
  rfl

theorem Names.word (invokes : verb.Invokes) (names : level.Names verb name) (argument : String) :
    level.word argument = .ok (level.collect argument) := by
  rw [Level.word, names.next_word invokes]
  simp only [names.settles, ok_bind, pure_eq_ok, Level.collect]

/-- The command line answers a flag of its own before the applet sees any argument. -/
theorem Names.plain_flag_refused (names : level.Names verb name) {flag : Flag}
    (own : flag = .help ∨ flag = .version) : ∃ report, level.plainFlag flag = .error report := by
  rcases own with rfl | rfl
  · exact ⟨_, by rw [plainFlag, names.settles]; rfl⟩
  · exact ⟨_, by rw [plainFlag, names.settles]; rfl⟩

theorem no_value_of_own {flag : Flag} (own : flag = .help ∨ flag = .version) :
    flag.takesValue = false := by
  rcases own with rfl | rfl <;> rfl

theorem Names.long_flag (invokes : verb.Invokes) (names : level.Names verb name)
    (argument flag : String) (value : Option String) :
    (verb.long? flag).isSome ∧ (∃ report, level.longFlag argument flag value = .error report) ∨
    verb.long? flag = none ∧ level.longFlag argument flag value = level.valueOrWord argument := by
  rw [longFlag, names.verb]
  cases found : verb.long? flag with
  | none => exact .inr ⟨rfl, if_pos (names.awaits invokes)⟩
  | some known =>
      have own := invokes.of_long found
      refine .inl ⟨rfl, ?_⟩
      simp only [no_value_of_own own, Bool.false_eq_true, if_false]
      cases value with
      | none => exact names.plain_flag_refused own
      | some value => exact ⟨_, rfl⟩

theorem Names.short_argument (invokes : verb.Invokes) (names : level.Names verb name)
    (argument : String) (first : Char) (rest : List Char) :
    (first :: rest).all (fun letter => (verb.short? letter).isSome) = true ∧
      (∃ report, level.shortArgument argument (first :: rest) = .error report) ∨
    (first :: rest).all (fun letter => (verb.short? letter).isSome) = false ∧
      level.shortArgument argument (first :: rest) = level.valueOrWord argument := by
  simp only [shortArgument, names.awaits invokes, true_and, names.verb]
  cases letters : (first :: rest).all fun letter => (verb.short? letter).isSome with
  | false => exact .inr ⟨rfl, if_pos (by simp)⟩
  | true =>
      have leading : (verb.short? first).isSome := List.all_eq_true.mp letters first (by simp)
      obtain ⟨known, found⟩ := Option.isSome_iff_exists.mp leading
      obtain ⟨report, refused⟩ := names.plain_flag_refused (invokes.of_short found)
      refine .inl ⟨rfl, report, ?_⟩
      simp [shortFlags, names.verb, found, no_value_of_own (invokes.of_short found), refused]

/-- Behind the name of an applet the flags of the command line are answered, and all else is the
first of the arguments of the applet. -/
theorem step_at_applet (invokes : verb.Invokes) (argument : String) :
    (isOwnFlag argument = true ∧ ∃ report, (atApplet verb name).step argument = .error report) ∨
    (isOwnFlag argument = false ∧ ∃ next, (atApplet verb name).step argument = .ok next ∧
      next.Names verb name ∧ next.ended = true) := by
  have named : (atApplet verb name).Names verb name := at_applet_names
  have collected : ∃ next, (atApplet verb name).valueOrWord argument = .ok next ∧
      next.Names verb name ∧ next.ended = true :=
    ⟨_, named.word invokes argument, named.collect argument, rfl⟩
  -- Only what is written as a flag can be a flag of the command line; the rest are words.
  rw [step, if_neg (by simp [atApplet, start]), isOwnFlag]
  cases Argument.ofText argument with
  | endOfFlags => exact .inr ⟨rfl, _, rfl, ⟨rfl, ⟨[], rfl⟩, rfl⟩, rfl⟩
  | word => exact .inr ⟨rfl, collected⟩
  | long flag value =>
      simp only [← invokes.long_known]
      obtain ⟨known, refused⟩ | ⟨unknown, taken⟩ := named.long_flag invokes argument flag value
      · exact .inl ⟨known, refused⟩
      · exact .inr ⟨by rw [unknown]; rfl, by simpa only [taken] using collected⟩
  | short first rest =>
      simp only [← invokes.short_known]
      obtain ⟨known, refused⟩ | ⟨unknown, taken⟩ := named.short_argument invokes argument first rest
      · exact .inl ⟨known, refused⟩
      · exact .inr ⟨unknown, by simpa only [taken] using collected⟩

theorem applet_taken (invokes : verb.Invokes) (unhyphened : name.toList.head? ≠ some '-') :
    (start verb).step name = .ok (atApplet verb name) := by
  have plain : Argument.ofText name = .word := by
    rw [Argument.ofText]
    split <;> simp_all
  rcases invokes with rfl | rfl <;> simp only [step, plain] <;> rfl

theorem Names.request (invokes : verb.Invokes) (names : level.Names verb name)
    (program command : String) (arguments : List String) :
    level.request (program :: command :: name :: arguments) =
      .ok (verb.invocation name arguments) := by
  obtain ⟨rest, words⟩ := names.words
  -- The name is found where it was given, also if one of the arguments repeats it.
  have behind : rawArguments name rest (program :: command :: name :: arguments) = arguments := by
    simp [rawArguments]
  rcases invokes with rfl | rfl
  · simp [Level.request, names.verb, words, behind, Verb.invocation]
  · simp [Level.request, names.verb, words, behind, Verb.invocation]

end Level

namespace State

variable {level : Level} {verb : Verb} {name : String}

/-- No command stands below one that invokes an applet, so its level takes every argument. -/
theorem step_reading (invokes : verb.Invokes) (reading : level.verb = verb) (argument : String) :
    step (.reading level) argument = .reading <$> level.step argument := by
  simp only [step, command?, reading, invokes.no_command, ite_self]

theorem named_applet (invokes : verb.Invokes) (unhyphened : name.toList.head? ≠ some '-') :
    [verb.name, name].foldlM step (.reading (.start .main)) =
      .ok (.reading (.atApplet verb name)) := by
  have entered : step (.reading (.start .main)) verb.name = .ok (.reading (.start verb)) := by
    rcases invokes with rfl | rfl <;> rfl
  rw [List.foldlM_cons, entered, ok_bind, List.foldlM_cons, step_reading invokes rfl,
    Level.applet_taken invokes unhyphened]
  rfl

theorem run_ended (invokes : verb.Invokes) (names : level.Names verb name)
    (ended : level.ended = true) (arguments : List String) :
    ∃ last, arguments.foldlM step (.reading level) = .ok (.reading last) ∧
      last.Names verb name := by
  -- Collecting an argument keeps the applet named and the flags ended.
  induction arguments generalizing level with
  | nil => exact ⟨level, rfl, names⟩
  | cons argument rest induction =>
      have taken : level.step argument = .ok (level.collect argument) := by
        rw [Level.step, if_pos ended, names.word invokes]
      rw [List.foldlM_cons, step_reading invokes names.verb, taken]
      exact induction (names.collect argument) rfl

theorem run_at_applet (invokes : verb.Invokes) (arguments : List String) :
    let run := arguments.foldlM step (.reading (.atApplet verb name))
    if arguments.head?.any isOwnFlag then ∃ report, run = .error report
    else ∃ last, run = .ok (.reading last) ∧ last.Names verb name := by
  cases arguments with
  | nil => exact ⟨_, rfl, Level.at_applet_names⟩
  | cons argument rest =>
      have stepped : step (.reading (.atApplet verb name)) argument =
          .reading <$> (Level.atApplet verb name).step argument := step_reading invokes rfl argument
      simp only [List.head?_cons, Option.any_some, List.foldlM_cons, stepped]
      obtain ⟨own, report, refused⟩ | ⟨foreign, next, taken, names, ended⟩ :=
        @Level.step_at_applet verb name invokes argument
      · rw [if_pos own, refused]
        exact ⟨report, rfl⟩
      · rw [if_neg (by simp [foreign]), taken]
        exact run_ended invokes names ended rest

end State

/-- Behind a command and the name of an applet, the arguments stand as they were given unless the
first of them is answered by the command line. -/
theorem request_behind_command {verb : Verb} (invokes : verb.Invokes) {name : String}
    (unhyphened : name.toList.head? ≠ some '-') (program : String) (arguments : List String) :
    let request := requestOf (program :: verb.name :: name :: arguments)
    if arguments.head?.any isOwnFlag then ∃ report, request = .error report
    else request = .ok (verb.invocation name arguments) := by
  have read : (verb.name :: name :: arguments).foldlM State.step (.reading (.start .main)) =
      arguments.foldlM State.step (.reading (.atApplet verb name)) := by
    change ([verb.name, name] ++ arguments).foldlM State.step _ = _
    rw [List.foldlM_append, State.named_applet invokes unhyphened, ok_bind]
  have run := @State.run_at_applet verb name invokes arguments
  simp only [requestOf, List.tail_cons, read]
  by_cases own : arguments.head?.any isOwnFlag = true
  · rw [if_pos own] at run ⊢
    obtain ⟨report, refused⟩ := run
    exact ⟨report, by rw [refused, error_bind]⟩
  · rw [if_neg own] at run ⊢
    obtain ⟨last, taken, names⟩ := run
    rw [taken, ok_bind, State.finish, names.settles, ok_bind]
    exact names.settled.request invokes program verb.name arguments

end CommandLine

namespace Request

open CommandLine

/-- The two forms of calling an applet agree exactly as long as the first argument is no flag of the
command line itself. -/
theorem forms_agree_iff {name : String} (slashless : '/' ∉ name.toList)
    (unhyphened : name.toList.head? ≠ some '-') (foreign : name ≠ programName)
    (directory : String) (arguments : List String) :
    (name ∉ ["", ".", ".."] →
      ofArguments ((directory ++ "/" ++ name) :: arguments) = .ok (.run name arguments)) ∧
    (ofArguments (programName :: "run" :: name :: arguments) = .ok (.run name arguments) ↔
      arguments.head?.any isOwnFlag = false) ∧
    (ofArguments (programName :: "plan" :: name :: arguments) = .ok (.plan name arguments) ↔
      arguments.head?.any isOwnFlag = false) := by
  have managed (verb : Verb) (invokes : verb.Invokes) :
      ofArguments (programName :: verb.name :: name :: arguments) =
        .ok (verb.invocation name arguments) ↔ arguments.head?.any isOwnFlag = false := by
    have own : appletOfPath? programName = none := by decide
    rw [ofArguments, List.headD_cons, own]
    have request := request_behind_command invokes unhyphened programName arguments
    split at request
    · next flag =>
      obtain ⟨report, refused⟩ := request
      simp [refused, flag]
    · next plain => simp [request, plain]
  refine ⟨fun proper => ?_, managed .run (.inr rfl), managed .plan (.inl rfl)⟩
  have selected : appletOfPath? (directory ++ "/" ++ name) = some name := by
    simp [appletOfPath?, Path.file_name_below directory slashless proper, foreign]
  rw [ofArguments, List.headD_cons, selected]
  rfl

/-- Behind a separator the letters of the command line reach the applet in every form. -/
theorem forms_agree_behind_separator :
    ofArguments ["/usr/bin/web", "--", "-h"] = .ok (.run "web" ["--", "-h"]) ∧
    ofArguments ["dockerbox", "run", "web", "--", "-h"] = .ok (.run "web" ["--", "-h"]) ∧
    ofArguments ["dockerbox", "plan", "web", "--", "-h"] = .ok (.plan "web" ["--", "-h"]) := by
  obtain ⟨linked, run, plan⟩ := @forms_agree_iff "web" (by decide) (by decide) (by decide)
    "/usr/bin" ["--", "-h"]
  exact ⟨linked (by decide), run.mpr (by decide), plan.mpr (by decide)⟩

/-- The flag for help reaches the applet in one form and is answered in the other. -/
theorem help_splits_forms :
    ofArguments ["/usr/bin/web", "--help"] = .ok (.run "web" ["--help"]) ∧
    ofArguments ["dockerbox", "run", "web", "--help"] = .error (.help Verb.run.page) ∧
    ofArguments ["dockerbox", "plan", "web", "--help"] = .error (.help Verb.plan.page) :=
  ⟨rfl, rfl, rfl⟩

end Request

end ContainerApplets
