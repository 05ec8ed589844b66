import ContainerApplets.RunLine

/-!
A run line can be read back from its tokens. The reader knows the flags of `run` and which of them
bring a value along; it never looks at a value, so no value can pose as a flag, and it stops at the
image reference, behind which all belongs to the container.
-/

namespace ContainerApplets

/-- A switch stands alone; a text and every element of a list bring a value along. -/
def FlagSource.takesValue : FlagSource → Bool
  | .text _ | .list _ => true
  | .switch _ | .terminal _ => false

/-- Whether a token is a flag of `run`, and then whether a value follows it. -/
def runFlagTakesValue? (token : String) : Option Bool :=
  (runFlags.find? fun rule => rule.flag == token).map fun rule => rule.source.takesValue

structure ReadFlag where
  flag : String
  value : Option String
  deriving DecidableEq

structure RunReading where
  flags : List ReadFlag
  imageReference : String
  arguments : List String
  deriving DecidableEq

namespace RunReading

/-- Puts flags in front that have been read before. -/
def after (reading : RunReading) (flags : List ReadFlag) : RunReading :=
  { reading with flags := flags ++ reading.flags }

/-- Reads flags, with the next token where one takes a value, up to the first token that is no flag.
That one is the image reference. -/
def ofTokens? : List String → Option RunReading
  | [] => none
  | token :: rest =>
      match runFlagTakesValue? token with
      | none => some ⟨[], token, rest⟩
      | some false => (ofTokens? rest).map fun reading => reading.after [⟨token, none⟩]
      | some true =>
          match rest with
          | [] => none
          | value :: rest =>
              (ofTokens? rest).map fun reading => reading.after [⟨token, some value⟩]

def ofLine? : List String → Option RunReading
  | "run" :: rest => ofTokens? rest
  | _ => none

/-- All that is read for one flag, in order: its values, or nothing more than the flag itself. -/
def valuesOf (reading : RunReading) (flag : String) : List (Option String) :=
  (reading.flags.filter fun read => read.flag == flag).map ReadFlag.value

theorem after_after (reading : RunReading) (first later : List ReadFlag) :
    (reading.after later).after first = reading.after (first ++ later) := by
  simp [after]

end RunReading

/-! ### The reader keeps in step with the writer -/

/-- What is to be read from the tokens of one rule. -/
def RunFlag.readings (rule : RunFlag) (applet : Applet) (options : RunOptions) : List ReadFlag :=
  match rule.source with
  | .text field =>
      if (applet.text field).isEmpty then [] else [⟨rule.flag, some (applet.text field)⟩]
  | .switch field => if applet.switch field then [⟨rule.flag, none⟩] else []
  | .terminal field =>
      if options.stdinIsTerminal && applet.switch field then [⟨rule.flag, none⟩] else []
  | .list field => (applet.list field).map fun value => ⟨rule.flag, some value⟩

namespace RunReading

variable {applet : Applet} {options : RunOptions}

theorem takes_value_of_mem :
    ∀ rule ∈ runFlags, runFlagTakesValue? rule.flag = some rule.source.takesValue := by
  decide

theorem of_tokens_switch {flag : String} (known : runFlagTakesValue? flag = some false)
    (rest : List String) :
    ofTokens? (flag :: rest) =
      (ofTokens? rest).map fun reading => reading.after [⟨flag, none⟩] := by
  rw [ofTokens?.eq_def]
  simp only [known]

theorem of_tokens_valued {flag : String} (known : runFlagTakesValue? flag = some true)
    (value : String) (rest : List String) :
    ofTokens? (flag :: value :: rest) =
      (ofTokens? rest).map fun reading => reading.after [⟨flag, some value⟩] := by
  rw [ofTokens?, known]

theorem of_tokens_repeated {flag : String} (known : runFlagTakesValue? flag = some true)
    (values rest : List String) :
    ofTokens? (values.flatMap (fun value => [flag, value]) ++ rest) =
      (ofTokens? rest).map fun reading =>
        reading.after (values.map fun value => ⟨flag, some value⟩) := by
  induction values with
  | nil => simp [after]
  | cons value values induction =>
      change ofTokens? (flag :: value :: (values.flatMap (fun value => [flag, value]) ++ rest)) = _
      rw [of_tokens_valued known, induction, Option.map_map]
      rfl

/-- The tokens of a rule are read as they were written, whatever the values look like. -/
theorem of_tokens_rule {rule : RunFlag} (member : rule ∈ runFlags) (rest : List String) :
    ofTokens? (rule.tokens applet options ++ rest) =
      (ofTokens? rest).map fun reading => reading.after (rule.readings applet options) := by
  have known := takes_value_of_mem rule member
  obtain ⟨flag, source⟩ := rule
  cases source with
  | text field =>
      by_cases empty : (applet.text field).isEmpty
      · simp [RunFlag.tokens, RunFlag.readings, empty, after]
      · simpa [RunFlag.tokens, RunFlag.readings, empty] using
          of_tokens_valued known (applet.text field) rest
  | switch field =>
      by_cases on : applet.switch field
      · simp only [RunFlag.tokens, RunFlag.readings, on, if_true]
        exact of_tokens_switch known rest
      · simp [RunFlag.tokens, RunFlag.readings, on, after]
  | terminal field =>
      by_cases shown : options.stdinIsTerminal && applet.switch field
      · simp only [RunFlag.tokens, RunFlag.readings, shown, if_true]
        exact of_tokens_switch known rest
      · simp [RunFlag.tokens, RunFlag.readings, shown, after]
  | list field => exact of_tokens_repeated known (applet.list field) rest

theorem of_tokens_rules {rules : List RunFlag} (known : ∀ rule ∈ rules, rule ∈ runFlags)
    (rest : List String) :
    ofTokens? (rules.flatMap (fun rule => rule.tokens applet options) ++ rest) =
      (ofTokens? rest).map fun reading =>
        reading.after (rules.flatMap fun rule => rule.readings applet options) := by
  -- Behind the tokens of one rule the reader stands in front of those of the next.
  induction rules with
  | nil => simp [after]
  | cons rule rules induction =>
      rw [List.flatMap_cons, List.append_assoc, of_tokens_rule (known rule (by simp)),
        induction fun other member => known other (List.mem_cons_of_mem _ member), Option.map_map]
      congr 1
      funext reading
      exact reading.after_after _ _

/-! ### The reader stops at the image reference -/

theorem hyphen_of_takes_value {token : String} (known : (runFlagTakesValue? token).isSome) :
    token.toList.head? = some '-' := by
  have hyphened : ∀ rule ∈ runFlags, rule.flag.toList.head? = some '-' := by decide
  rw [runFlagTakesValue?, Option.isSome_map, List.find?_isSome] at known
  obtain ⟨rule, member, same⟩ := known
  rw [← eq_of_beq same]
  exact hyphened rule member

theorem head_image_reference (imaged : applet.image ≠ "") :
    applet.imageReference.toList.head? = applet.image.toList.head? := by
  cases letters : applet.image.toList with
  | nil => exact absurd (String.toList_eq_nil_iff.mp letters) imaged
  | cons first rest =>
      rw [Applet.imageReference]
      split
      · rw [letters]
      · simp [letters]

theorem of_tokens_image (imaged : applet.image ≠ "")
    (plain : applet.image.toList.head? ≠ some '-') (rest : List String) :
    ofTokens? (applet.imageReference :: rest) = some ⟨[], applet.imageReference, rest⟩ := by
  have unknown : runFlagTakesValue? applet.imageReference = none := by
    rw [← Option.not_isSome_iff_eq_none]
    intro known
    exact plain ((head_image_reference imaged).symm.trans (hyphen_of_takes_value known))
  rw [ofTokens?.eq_def]
  simp only [unknown]

theorem of_line_run_line (imaged : applet.image ≠ "")
    (plain : applet.image.toList.head? ≠ some '-') (given : List String) :
    ofLine? (runLine applet given options) =
      some ⟨runFlags.flatMap fun rule => rule.readings applet options, applet.imageReference,
        containerArguments applet given options.trailing⟩ := by
  change ofTokens? (flagTokens applet options ++ applet.imageReference ::
    containerArguments applet given options.trailing) = _
  rw [flagTokens, of_tokens_rules fun _ member => member, of_tokens_image imaged plain]
  simp [after]

end RunReading

/-! ### Every setting is recovered -/

/-- The flag of a text that has one to itself. Image and tag make up the image reference. -/
def TextField.runFlag? : TextField → Option String
  | .name => some "--name"
  | .workDir => some "--workdir"
  | .entrypoint => some "--entrypoint"
  | .restart => some "--restart"
  | .hostname => some "--hostname"
  | .network | .image | .tag => none

/-- The flag of a switch. Killing and pulling are commands of their own. -/
def SwitchField.runFlag? : SwitchField → Option String
  | .rm => some "--rm"
  | .privileged => some "--privileged"
  | .detach => some "--detach"
  | .interactive => some "--interactive"
  | .tty => some "--tty"
  | .kill | .pull => none

def ListField.runFlag? : ListField → Option String
  | .dns => some "--dns"
  | .dnsSearch => some "--dns-search"
  | .dnsOption => some "--dns-option"
  | .environment => some "-e"
  | .volumes => some "-v"
  | .ports => some "-p"
  | .envFile => some "--env-file"
  | .links => some "--link"
  | .networks => none

/-- The flag that the primary network and the further networks share. -/
def networkFlag : String := "--network"

def settingFlags : List String :=
  networkFlag :: TextField.all.filterMap TextField.runFlag? ++
    SwitchField.all.filterMap SwitchField.runFlag? ++ ListField.all.filterMap ListField.runFlag?

/-- A text that is not empty is read once, a switch if it is on, and a list element by element. A
terminal is asked for only where there is one. -/
structure RunReading.Recovers (reading : RunReading) (applet : Applet) (given : List String)
    (options : RunOptions) : Prop where
  text : ∀ field flag, TextField.runFlag? field = some flag →
    reading.valuesOf flag = if applet.text field = "" then [] else [some (applet.text field)]
  switch : ∀ field flag, SwitchField.runFlag? field = some flag →
    reading.valuesOf flag =
      if applet.switch field ∧ (field = .tty → options.stdinIsTerminal) then [none] else []
  list : ∀ field flag, ListField.runFlag? field = some flag →
    reading.valuesOf flag = (applet.list field).map some
  networks : reading.valuesOf networkFlag =
    (if applet.text .network = "" then [] else [some (applet.text .network)]) ++
      (applet.list .networks).map some
  only : ∀ read ∈ reading.flags, read.flag ∈ settingFlags
  image : reading.imageReference = applet.imageReference
  replaced : options.trailing = .replace → given ≠ [] → reading.arguments = given
  configured : options.trailing = .replace → given = [] → reading.arguments = applet.command
  appended : options.trailing = .append → reading.arguments = applet.command ++ given

namespace RunReading

variable {applet : Applet} {options : RunOptions}

theorem flag_of_mem_readings {rule : RunFlag} {read : ReadFlag}
    (member : read ∈ rule.readings applet options) : read.flag = rule.flag := by
  obtain ⟨flag, source⟩ := rule
  cases source with
  | text field => grind [RunFlag.readings]
  | switch field => grind [RunFlag.readings]
  | terminal field => grind [RunFlag.readings]
  | list field => grind [RunFlag.readings]

/-- What is read for a flag comes from the rules of that flag. -/
theorem filter_readings (rules : List RunFlag) (flag : String) :
    ((rules.flatMap fun rule => rule.readings applet options).filter
        fun read => read.flag == flag) =
      (rules.filter fun rule => rule.flag == flag).flatMap
        fun rule => rule.readings applet options := by
  induction rules with
  | nil => rfl
  | cons rule rules induction =>
      rw [List.flatMap_cons, List.filter_append, induction]
      by_cases same : rule.flag = flag
      · have all : (rule.readings applet options).filter (fun read => read.flag == flag) =
            rule.readings applet options := by
          apply List.filter_eq_self.mpr
          intro read member
          exact beq_of_eq ((flag_of_mem_readings member).trans same)
        rw [all, List.filter_cons_of_pos (by simpa using same), List.flatMap_cons]
      · have none : (rule.readings applet options).filter (fun read => read.flag == flag) = [] := by
          apply List.filter_eq_nil_iff.mpr
          intro read member equal
          exact same ((flag_of_mem_readings member).symm.trans (eq_of_beq equal))
        rw [none, List.filter_cons_of_neg (by simpa using same), List.nil_append]

theorem rules_of_text {field : TextField} {flag : String} (own : field.runFlag? = some flag) :
    runFlags.filter (fun rule => rule.flag == flag) = [⟨flag, .text field⟩] := by
  cases field <;> cases own <;> decide

theorem rules_of_switch {field : SwitchField} {flag : String} (own : field.runFlag? = some flag) :
    runFlags.filter (fun rule => rule.flag == flag) =
      [⟨flag, if field = .tty then .terminal field else .switch field⟩] := by
  cases field <;> cases own <;> decide

theorem rules_of_list {field : ListField} {flag : String} (own : field.runFlag? = some flag) :
    runFlags.filter (fun rule => rule.flag == flag) = [⟨flag, .list field⟩] := by
  cases field <;> cases own <;> decide

theorem rules_of_networks :
    runFlags.filter (fun rule => rule.flag == networkFlag) =
      [⟨networkFlag, .text .network⟩, ⟨networkFlag, .list .networks⟩] := by
  decide

theorem readings_recover (given : List String) :
    Recovers ⟨runFlags.flatMap fun rule => rule.readings applet options, applet.imageReference,
      containerArguments applet given options.trailing⟩ applet given options where
  text := by
    intro field flag own
    rw [valuesOf, filter_readings, rules_of_text own]
    simp [RunFlag.readings, apply_ite]
  switch := by
    intro field flag own
    rw [valuesOf, filter_readings, rules_of_switch own]
    by_cases terminal : field = .tty
    · simp [RunFlag.readings, terminal, apply_ite, and_comm]
    · simp [RunFlag.readings, terminal, apply_ite]
  list := by
    intro field flag own
    rw [valuesOf, filter_readings, rules_of_list own]
    simp [RunFlag.readings, Function.comp_def]
  networks := by
    rw [valuesOf, filter_readings, rules_of_networks]
    by_cases bare : applet.text .network = ""
    · simp [RunFlag.readings, bare, Function.comp_def]
    · simp [RunFlag.readings, bare, Function.comp_def]
  only := by
    have listed : ∀ rule ∈ runFlags, rule.flag ∈ settingFlags := by decide
    intro read member
    obtain ⟨rule, known, written⟩ := List.mem_flatMap.mp member
    rw [flag_of_mem_readings written]
    exact listed rule known
  image := rfl
  replaced := by
    intro mode some
    simp [mode, containerArguments, some]
  configured := by
    intro mode nothing
    simp [mode, containerArguments, nothing]
  appended := by
    intro mode
    simp [mode, containerArguments]

/-- A run line says what its applet says. With an image that does not look like a flag, whatever the
other settings hold, each of them is read back from the line as it was configured. -/
theorem run_line_read_back (imaged : applet.image ≠ "")
    (plain : applet.image.toList.head? ≠ some '-') (given : List String) :
    ∃ reading, ofLine? (runLine applet given options) = some reading ∧
      reading.Recovers applet given options :=
  ⟨_, of_line_run_line imaged plain given, readings_recover given⟩

/-- Values that look like flags, and an element that is empty, do not lead the reader astray. -/
def disguised : Applet :=
  { Applet.ofImage "web" "nginx" with
    text := fun
      | .image => "nginx"
      | .name => "--rm"
      | .network => "--network"
      | _ => ""
    list := fun
      | .environment => ["", "--detach"]
      | .networks => ["-p", "-p"]
      | _ => [] }

theorem disguised_read_back :
    disguised.image ≠ "" ∧ disguised.image.toList.head? ≠ some '-' ∧
    ∃ reading, ofLine? (runLine disguised ["--rm"] ⟨"docker", true, .replace⟩) = some reading ∧
      reading.valuesOf "--name" = [some "--rm"] ∧ reading.valuesOf "--detach" = [] ∧
      reading.valuesOf "-e" = [some "", some "--detach"] ∧
      reading.valuesOf networkFlag = [some "--network", some "-p", some "-p"] ∧
      reading.arguments = ["--rm"] := by
  have imaged : disguised.image ≠ "" := by decide
  have plain : disguised.image.toList.head? ≠ some '-' := by decide
  obtain ⟨reading, read, recovers⟩ :=
    @run_line_read_back disguised ⟨"docker", true, .replace⟩ imaged plain ["--rm"]
  refine ⟨imaged, plain, reading, read, ?_, ?_, ?_, ?_, ?_⟩
  · exact recovers.text .name _ rfl
  · exact recovers.switch .detach _ rfl
  · exact recovers.list .environment _ rfl
  · exact recovers.networks
  · exact recovers.replaced rfl (by decide)

end RunReading

end ContainerApplets
