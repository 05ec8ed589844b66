import ContainerApplets.Proofs.Checked
import ContainerApplets.Proofs.Template.Grammar
import ContainerApplets.Settings

/-!
Where settings come from. A setting is what the value of its variable expands to, and its default if
the variable is unset or empty. Emptiness is looked for ahead of expansion, so that a value which
expands to nothing is taken as it is: an empty text, or a mode that there is not.
-/

namespace ContainerApplets

/-- What a variable holds; an unset one holds nothing. -/
def Environment.text (lookup : Environment) (name : String) : String := (lookup name).getD ""

namespace Settings

/-- The settings that are texts; all but the mode for trailing arguments. -/
inductive TextSetting
  | root
  | install
  | separator
  | runtime
  deriving DecidableEq

namespace TextSetting

def name : TextSetting → String
  | .root => rootVariable
  | .install => installVariable
  | .separator => separatorVariable
  | .runtime => runtimeVariable

def default (home : String) : TextSetting → String
  | .root => Path.join home ".dockerbox"
  | .install => Path.join (Path.join home ".dockerbox") "bin"
  | .separator => defaultSeparator
  | .runtime => defaultRuntime

end TextSetting

def text (settings : Settings) : TextSetting → String
  | .root => settings.rootDirectory
  | .install => settings.installDirectory
  | .separator => settings.separator
  | .runtime => settings.runtime

variable {known : Option String} {lookup : Environment} {home name : String} {settings : Settings}

/-! ### One variable -/

/-- What the value of a variable stands for. -/
def expanded (lookup : Environment) (name : String) : String := expand lookup (lookup.text name)

/-- The variable holds something that stands for nothing. -/
structure Vanishes (lookup : Environment) (name : String) : Prop where
  holds : lookup.text name ≠ ""
  gone : expanded lookup name = ""

theorem value_eq (lookup : Environment) (name : String) :
    value? lookup name =
      if lookup.text name = "" then none else some (expanded lookup name) := by
  unfold value? expanded Environment.text
  cases lookup name with
  | none => simp
  | some value => simp

theorem expanded_of_empty (empty : lookup.text name = "") : expanded lookup name = "" := by
  rw [expanded, empty, Template.expand_empty]

/-- A variable vanishes if nothing is left of what it holds. -/
theorem empty_of_gone (gone : expanded lookup name = "") (kept : ¬Vanishes lookup name) :
    lookup.text name = "" :=
  Classical.byContradiction fun holds => kept ⟨holds, gone⟩

/-! ### The home directory -/

theorem home_of_eq (known : Option String) (lookup : Environment) :
    homeOf? known lookup =
      if lookup.text "HOME" = "" then known else some (lookup.text "HOME") := by
  unfold homeOf? Environment.text
  cases lookup "HOME" with
  | none => rfl
  | some home =>
      by_cases empty : home = ""
      · rw [empty]
        rfl
      · simp [empty]

theorem home_of_set (known : Option String) (set : lookup "HOME" = some home)
    (named : home ≠ "") : homeOf? known lookup = some home := by
  rw [home_of_eq, Environment.text, set]
  exact if_neg named

/-! ### All settings -/

theorem trailing_of_eq (lookup : Environment) :
    trailingOf lookup =
      if lookup.text trailingVariable = "" then .ok .replace
      else (TrailingArguments.ofText (expanded lookup trailingVariable)).mapError fun message =>
        ⟨[], .note (trailingVariable ++ ": " ++ message)⟩ := by
  unfold trailingOf
  rw [value_eq]
  by_cases empty : lookup.text trailingVariable = ""
  · rw [if_pos empty, if_pos empty]
  · rw [if_neg empty, if_neg empty]
    dsimp only
    cases TrailingArguments.ofText (expanded lookup trailingVariable) <;> rfl

/-- No mode has an empty name. -/
theorem trailing_of_vanishing (vanishes : Vanishes lookup trailingVariable) :
    trailingOf lookup = .error ⟨[], .note (trailingVariable ++
      ": invalid trailing args mode '' (expected 'replace' or 'append')")⟩ := by
  have unnamed : TrailingArguments.ofText "" =
      .error "invalid trailing args mode '' (expected 'replace' or 'append')" := by
    decide +kernel
  rw [trailing_of_eq, if_neg vanishes.holds, vanishes.gone, unnamed]
  rfl

section Home

variable (atHome : homeOf? known lookup = some home)

include atHome

theorem of_environment_eq :
    ofEnvironment known lookup = (trailingOf lookup).map fun trailing => {
      rootDirectory := (value? lookup rootVariable).getD (TextSetting.root.default home)
      installDirectory := (value? lookup installVariable).getD (TextSetting.install.default home)
      separator := (value? lookup separatorVariable).getD (TextSetting.separator.default home)
      runtime := (value? lookup runtimeVariable).getD (TextSetting.runtime.default home)
      trailing := trailing } := by
  unfold ofEnvironment
  rw [atHome]
  cases trailingOf lookup <;> rfl

theorem of_environment_eq_error_iff {refusal : Refusal} :
    ofEnvironment known lookup = .error refusal ↔ trailingOf lookup = .error refusal := by
  rw [of_environment_eq atHome]
  cases trailingOf lookup <;> simp [Except.map]

/-- The settings are those that their variables give, one by one. -/
theorem of_environment_eq_ok_iff :
    ofEnvironment known lookup = .ok settings ↔
      trailingOf lookup = .ok settings.trailing ∧
      ∀ setting : TextSetting, settings.text setting =
        if lookup.text setting.name = "" then setting.default home
        else expanded lookup setting.name := by
  have chosen (setting : TextSetting) :
      (value? lookup setting.name).getD (setting.default home) =
        if lookup.text setting.name = "" then setting.default home
        else expanded lookup setting.name := by
    rw [value_eq]
    split <;> rfl
  simp only [← chosen]
  rw [of_environment_eq atHome]
  cases trailingOf lookup with
  | error refusal => simp [Except.map]
  | ok trailing =>
      obtain ⟨root, install, separator, runtime, mode⟩ := settings
      simp only [Except.map, Except.ok.injEq, Settings.mk.injEq]
      constructor
      · rintro ⟨rfl, rfl, rfl, rfl, rfl⟩
        refine ⟨rfl, fun setting => ?_⟩
        cases setting <;> rfl
      · rintro ⟨rfl, same⟩
        exact ⟨(same .root).symm, (same .install).symm, (same .separator).symm,
          (same .runtime).symm, rfl⟩

end Home

/-! ### Falling back -/

/-- Where nothing is left of the value of a variable its setting is the default and nothing is
refused for it; so no text is empty. -/
structure FallsBack (known : Option String) (lookup : Environment) (home : String) : Prop where
  texts : ∀ settings, ofEnvironment known lookup = .ok settings → ∀ setting : TextSetting,
    expanded lookup setting.name = "" → settings.text setting = setting.default home
  mode : ∀ settings, ofEnvironment known lookup = .ok settings →
    expanded lookup trailingVariable = "" → settings.trailing = .replace
  refused : ∀ refusal, ofEnvironment known lookup = .error refusal →
    expanded lookup trailingVariable ≠ ""
  filled : ∀ settings, ofEnvironment known lookup = .ok settings → ∀ setting,
    settings.text setting ≠ ""

theorem join_ne_empty (base : String) {path : String} (named : path ≠ "") :
    Path.join base path ≠ "" := by
  unfold Path.join
  split
  · exact named
  · split <;> simp [named]

theorem TextSetting.default_ne_empty (setting : TextSetting) (home : String) :
    setting.default home ≠ "" := by
  cases setting with
  | root => exact join_ne_empty home (by decide)
  | install => exact join_ne_empty _ (by decide)
  | separator => exact (by decide : defaultSeparator ≠ "")
  | runtime => exact (by decide : defaultRuntime ≠ "")

/-- Settings fall back to their defaults exactly if no variable vanishes that is looked at. -/
theorem empty_settings_fall_back_iff (atHome : homeOf? known lookup = some home) :
    FallsBack known lookup home ↔
      ¬Vanishes lookup trailingVariable ∧
      ∀ settings, ofEnvironment known lookup = .ok settings → ∀ setting : TextSetting,
        ¬Vanishes lookup setting.name := by
  constructor
  · intro fallsBack
    constructor
    · intro vanishes
      have refused := trailing_of_vanishing vanishes
      rw [← of_environment_eq_error_iff atHome] at refused
      exact fallsBack.refused _ refused vanishes.gone
    · intro settings accepted setting vanishes
      have given := ((of_environment_eq_ok_iff atHome).mp accepted).2 setting
      rw [if_neg vanishes.holds, vanishes.gone] at given
      exact fallsBack.filled settings accepted setting given
  · rintro ⟨modeKept, textsKept⟩
    have default_of_gone (settings : Settings)
        (accepted : ofEnvironment known lookup = .ok settings) (setting : TextSetting)
        (gone : expanded lookup setting.name = "") :
        settings.text setting = setting.default home := by
      have empty := empty_of_gone gone (textsKept settings accepted setting)
      rw [((of_environment_eq_ok_iff atHome).mp accepted).2 setting, if_pos empty]
    refine ⟨default_of_gone, ?_, ?_, ?_⟩
    · intro settings accepted gone
      have given := ((of_environment_eq_ok_iff atHome).mp accepted).1
      rw [trailing_of_eq, if_pos (empty_of_gone gone modeKept)] at given
      exact (Except.ok.inj given).symm
    · intro refusal refused gone
      rw [of_environment_eq_error_iff atHome, trailing_of_eq,
        if_pos (empty_of_gone gone modeKept)] at refused
      cases refused
    · intro settings accepted setting empty
      by_cases gone : expanded lookup setting.name = ""
      · rw [default_of_gone settings accepted setting gone] at empty
        exact setting.default_ne_empty home empty
      · have given := ((of_environment_eq_ok_iff atHome).mp accepted).2 setting
        rw [if_neg fun unset => gone (expanded_of_empty unset)] at given
        exact gone (given.symm.trans empty)

/-- The root directory is made from another variable, and the separator is empty. -/
def boxedVariables : Environment := fun name =>
  if name = "HOME" then some "/home/me"
  else if name = rootVariable then some "$HOME/boxes"
  else if name = separatorVariable then some ""
  else none

def boxedSettings : Settings where
  rootDirectory := "/home/me/boxes"
  installDirectory := "/home/me/.dockerbox/bin"
  separator := "--"
  runtime := "docker"
  trailing := .replace

theorem boxed_settings_fall_back :
    boxedVariables "HOME" = some "/home/me" ∧ "/home/me" ≠ "" ∧
    homeOf? none boxedVariables = some "/home/me" ∧
    ofEnvironment none boxedVariables = .ok boxedSettings ∧
    FallsBack none boxedVariables "/home/me" := by
  have set : boxedVariables "HOME" = some "/home/me" := by decide
  have named : "/home/me" ≠ "" := by decide
  have atHome := home_of_set none set named
  have accepted : ofEnvironment none boxedVariables = .ok boxedSettings := by decide +kernel
  have left : expanded boxedVariables rootVariable ≠ "" := by decide +kernel
  refine ⟨set, named, atHome, accepted, (empty_settings_fall_back_iff atHome).mpr ⟨?_, ?_⟩⟩
  · exact fun vanishes => vanishes.holds (by decide)
  · intro _ _ setting vanishes
    cases setting with
    | root => exact left vanishes.gone
    | install => exact vanishes.holds (by decide)
    | separator => exact vanishes.holds (by decide)
    | runtime => exact vanishes.holds (by decide)

/-- The variable holds the name of an unset one. -/
def pointingTo (name : String) : Environment := fun other =>
  if other = "HOME" then some "/home/me" else if other = name then some "$UNSET" else none

/-- A separator that expands to nothing is kept, and a mode that does is refused. -/
theorem vanishing_values_kept :
    pointingTo separatorVariable "HOME" = some "/home/me" ∧
    expanded (pointingTo separatorVariable) separatorVariable = "" ∧
    (ofEnvironment none (pointingTo separatorVariable)).toOption.map Settings.separator = some "" ∧
    ¬FallsBack none (pointingTo separatorVariable) "/home/me" ∧
    expanded (pointingTo trailingVariable) trailingVariable = "" ∧
    (ofEnvironment none (pointingTo trailingVariable)).toOption = none ∧
    ¬FallsBack none (pointingTo trailingVariable) "/home/me" := by
  have evaluated :
      expanded (pointingTo separatorVariable) separatorVariable = "" ∧
      ofEnvironment none (pointingTo separatorVariable) = .ok
        ⟨"/home/me/.dockerbox", "/home/me/.dockerbox/bin", "", "docker", .replace⟩ ∧
      expanded (pointingTo trailingVariable) trailingVariable = "" ∧
      (ofEnvironment none (pointingTo trailingVariable)).toOption = none := by decide +kernel
  obtain ⟨gone, accepted, modeGone, refused⟩ := evaluated
  refine ⟨by decide, gone, by rw [accepted]; rfl, ?_, modeGone, refused, ?_⟩
  · intro fallsBack
    exact fallsBack.filled _ accepted .separator rfl
  · intro fallsBack
    cases outcome : ofEnvironment none (pointingTo trailingVariable) with
    | error refusal => exact fallsBack.refused refusal outcome modeGone
    | ok settings =>
        rw [outcome] at refused
        cases refused

end Settings

end ContainerApplets
