import ContainerApplets.Overrides.Parse
import ContainerApplets.Proofs.Checked
import ContainerApplets.RunLine
import Mathlib.Data.List.Basic

/-!
The override flags understand every flag that a run line is written with. Read back as overrides,
the flags of an applet without a primary network carry all of its settings that the line shows.
-/

namespace ContainerApplets

/-- The flag that a token names, without a value in the same token. -/
def OverrideFlag.ofToken? (token : String) : Option OverrideFlag :=
  match Argument.ofText token with
  | .long name none => ofLong? name
  | .short letter [] => ofShort? letter
  | _ => none

namespace FlagSource

/-- What a flag of `run` is about. -/
def target : FlagSource → OverrideTarget
  | .text field => .text field
  | .switch field | .terminal field => .switch field
  | .list field => .list field

/-- What the line shows of it. -/
def shown (source : FlagSource) (applet : Applet) (options : RunOptions) : List OverrideTarget :=
  match source with
  | .text field => if (applet.text field).isEmpty then [] else [.text field]
  | .switch field => if applet.switch field then [.switch field] else []
  | .terminal field =>
      if options.stdinIsTerminal && applet.switch field then [.switch field] else []
  | .list field => [.list field]

end FlagSource

/-- No value begins like a flag, and the primary network is left alone. -/
structure Applet.Plain (applet : Applet) : Prop where
  unattached : applet.text .network = ""
  texts : ∀ field, (applet.text field).toList.head? ≠ some '-'
  lists : ∀ field, ∀ value ∈ applet.list field, value.toList.head? ≠ some '-'

/-- All but the primary network, whose flag attaches further networks here. -/
theorem run_flags_known : ∀ rule ∈ runFlags, rule.source ≠ .text .network →
    (OverrideFlag.ofToken? rule.flag).map OverrideFlag.target = some rule.source.target := by
  decide

theorem run_flags_distinct : (runFlags.map fun rule => rule.source.target).Nodup := by
  decide

theorem Argument.of_text_word {text : String} (plain : text.toList.head? ≠ some '-') :
    Argument.ofText text = .word := by
  rw [Argument.ofText]
  split
  · next letters => simp [letters] at plain
  · next letters => simp [letters] at plain
  · next letters => simp [letters] at plain
  · rfl

/-! ### What the flags of one setting do -/

/-- Whatever is still pending in this state comes to these overrides. -/
structure OverrideState.Reads (state : OverrideState) (appletName : String)
    (overrides : Overrides) : Prop where
  unended : state.ended = false
  settled : state.settle appletName = .ok ⟨overrides, none, false⟩

/-- The tokens are accepted wherever the first overrides have been read, and turn them into the
others. -/
def Overrides.Becomes (appletName : String) (tokens : List String)
    (before after : Overrides) : Prop :=
  ∀ state : OverrideState, state.Reads appletName before →
    ∃ next, tokens.foldlM (OverrideState.step appletName) state = .ok next ∧
      next.Reads appletName after

namespace OverrideState

variable {appletName token : String} {flag : OverrideFlag} {state : OverrideState}

theorem step_known (stays : state.ended = false) (known : OverrideFlag.ofToken? token = some flag) :
    state.step appletName token = state.flag appletName flag none := by
  rw [OverrideFlag.ofToken?] at known
  rw [step, if_neg (by simp [stays])]
  split at known
  · next name argument =>
    -- Only a value makes a difference between the flags here.
    simp only [argument, long, known]
    split
    · next help => cases help
    · rfl
  · next letter argument =>
    simp only [argument, shorts, known]
  · cases known

theorem step_value (stays : state.ended = false) (waits : state.pending = some ⟨flag, none⟩)
    {value : String} (plain : value.toList.head? ≠ some '-') :
    state.step appletName value = .ok { state with pending := some ⟨flag, some value⟩ } := by
  rw [step, if_neg (by simp [stays]), Argument.of_text_word plain]
  simp only [word, waits]

end OverrideState

namespace Overrides

variable {appletName token : String} {flag : OverrideFlag} {overrides : Overrides}

namespace Becomes

theorem nothing : Becomes appletName [] overrides overrides :=
  fun state reads => ⟨state, rfl, reads⟩

theorem append {first later : List String} {before middle after : Overrides}
    (one : Becomes appletName first before middle) (two : Becomes appletName later middle after) :
    Becomes appletName (first ++ later) before after := by
  intro state reads
  obtain ⟨next, accepted, reads⟩ := one state reads
  obtain ⟨last, finished, reads⟩ := two next reads
  refine ⟨last, ?_, reads⟩
  rw [List.foldlM_append, accepted, ok_bind, finished]

theorem alone {after : Overrides} (known : OverrideFlag.ofToken? token = some flag)
    (stands : standsAlone flag.target = true)
    (taken : overrides.take appletName flag "true" = .ok after) :
    Becomes appletName [token] overrides after := by
  intro state reads
  refine ⟨⟨after, Option.none, false⟩, ?_, ⟨rfl, rfl⟩⟩
  rw [List.foldlM_cons, OverrideState.step_known reads.unended known, OverrideState.flag,
    reads.settled]
  simp only [ok_bind, stands, if_true, taken, pure_eq_ok, List.foldlM_nil]

/-- The value is pending until the argument behind it has been seen. -/
theorem valued {after : Overrides} {value : String}
    (known : OverrideFlag.ofToken? token = some flag) (waits : standsAlone flag.target = false)
    (plain : value.toList.head? ≠ some '-')
    (taken : overrides.take appletName flag value = .ok after) :
    Becomes appletName [token, value] overrides after := by
  intro state reads
  refine ⟨⟨overrides, some ⟨flag, some value⟩, false⟩, ?_, rfl, ?_⟩
  · have begun : state.step appletName token =
        .ok ⟨overrides, some ⟨flag, Option.none⟩, false⟩ := by
      rw [OverrideState.step_known reads.unended known, OverrideState.flag, reads.settled]
      simp only [ok_bind, waits, Bool.false_eq_true, if_false, pure_eq_ok]
    rw [List.foldlM_cons, begun, ok_bind, List.foldlM_cons, OverrideState.step_value rfl rfl plain,
      ok_bind, List.foldlM_nil, pure_eq_ok]
  · simp only [OverrideState.settle, taken, ok_bind, pure_eq_ok]

/-- Flags that make something of no overrides at all are accepted. -/
theorem of_flags {tokens : List String} {after : Overrides}
    (becomes : Becomes appletName tokens .none after) : ofFlags appletName tokens = .ok after := by
  obtain ⟨last, accepted, reads⟩ := becomes .start ⟨rfl, rfl⟩
  rw [ofFlags, accepted, ok_bind, reads.settled, ok_bind, pure_eq_ok]

theorem text {field : TextField} {value : String}
    (known : (OverrideFlag.ofToken? token).map OverrideFlag.target = some (.text field))
    (unset : overrides.text field = Option.none) (plain : value.toList.head? ≠ some '-') :
    Becomes appletName [token, value] overrides (overrides.setText field value) := by
  obtain ⟨flag, named, target⟩ := Option.map_eq_some_iff.mp known
  refine valued named (by rw [target]; rfl) plain ?_
  simp only [take, target, unset, Option.isSome_none, Bool.false_eq_true, if_false]

theorem switch {field : SwitchField}
    (known : (OverrideFlag.ofToken? token).map OverrideFlag.target = some (.switch field))
    (unset : overrides.switch field = Option.none) :
    Becomes appletName [token] overrides (overrides.setSwitch field true) := by
  obtain ⟨flag, named, target⟩ := Option.map_eq_some_iff.mp known
  refine alone named (by rw [target]; rfl) ?_
  simp only [take, target, unset, Option.isSome_none, Bool.false_eq_true, if_false, switchValue?,
    if_true]

/-- A flag is repeated for every element, the empty ones included. -/
theorem list {field : ListField} {values : List String}
    (known : (OverrideFlag.ofToken? token).map OverrideFlag.target = some (.list field))
    (plain : ∀ value ∈ values, value.toList.head? ≠ some '-') :
    Becomes appletName (values.flatMap fun value => [token, value]) overrides
      (values.foldl (fun overrides value => overrides.addList field value) overrides) := by
  induction values generalizing overrides with
  | nil => exact nothing
  | cons value values induction =>
      obtain ⟨flag, named, target⟩ := Option.map_eq_some_iff.mp known
      have first : Becomes appletName [token, value] overrides (overrides.addList field value) := by
        refine valued named (by rw [target]; rfl) (plain value (by simp)) ?_
        simp only [take, target]
      exact first.append (induction fun other member => plain other (List.mem_cons_of_mem _ member))

end Becomes

theorem list_add_each (field : ListField) (values : List String) :
    values.foldl (fun overrides value => overrides.addList field value) overrides =
      { overrides with
        list := fun other =>
          if other = field then overrides.list other ++ values else overrides.list other } := by
  induction values generalizing overrides with
  | nil => simp
  | cons value values induction =>
      rw [List.foldl_cons, induction, addList]
      congr 1
      funext other
      by_cases same : other = field
      · simp [same]
      · simp [same]

/-! ### What the flags of an applet come to -/

/-- The settings of an applet that are named here. -/
def ofTargets (targets : List OverrideTarget) (applet : Applet) : Overrides where
  text := fun field => if .text field ∈ targets then some (applet.text field) else Option.none
  switch := fun field => if .switch field ∈ targets then some true else Option.none
  list := fun field => if .list field ∈ targets then applet.list field else []
  hooks := fun _ => []

variable {targets : List OverrideTarget} {applet : Applet} {options : RunOptions}

theorem of_targets_text (field : TextField) :
    (ofTargets targets applet).setText field (applet.text field) =
      ofTargets (targets ++ [.text field]) applet := by
  simp only [ofTargets, setText, List.mem_append, List.mem_singleton, reduceCtorEq, or_false,
    OverrideTarget.text.injEq]
  congr 1
  funext other
  by_cases same : other = field
  · simp [same]
  · simp [same]

theorem of_targets_switch (field : SwitchField) :
    (ofTargets targets applet).setSwitch field true =
      ofTargets (targets ++ [.switch field]) applet := by
  simp only [ofTargets, setSwitch, List.mem_append, List.mem_singleton, reduceCtorEq, or_false,
    OverrideTarget.switch.injEq]
  congr 1
  funext other
  by_cases same : other = field
  · simp [same]
  · simp [same]

theorem of_targets_list {field : ListField} (fresh : .list field ∉ targets) :
    (applet.list field).foldl (fun overrides value => overrides.addList field value)
        (ofTargets targets applet) =
      ofTargets (targets ++ [.list field]) applet := by
  rw [list_add_each]
  simp only [ofTargets, List.mem_append, List.mem_singleton, reduceCtorEq, or_false,
    OverrideTarget.list.injEq]
  congr 1
  funext other
  by_cases same : other = field
  · simp [same, fresh]
  · simp [same]

end Overrides

theorem FlagSource.target_of_mem_shown {source : FlagSource} {applet : Applet}
    {options : RunOptions} {target : OverrideTarget}
    (member : target ∈ source.shown applet options) : target = source.target := by
  cases source with
  | text field => grind [shown, FlagSource.target]
  | switch field => grind [shown, FlagSource.target]
  | terminal field => grind [shown, FlagSource.target]
  | list field => grind [shown, FlagSource.target]

/-- What the flags of a line are about. -/
def shownTargets (applet : Applet) (options : RunOptions) : List OverrideTarget :=
  runFlags.flatMap fun rule => rule.source.shown applet options

namespace Overrides

variable {appletName : String} {targets : List OverrideTarget} {applet : Applet}
  {options : RunOptions}

theorem Becomes.rule {rule : RunFlag} (member : rule ∈ runFlags)
    (plain : applet.Plain) (fresh : rule.source.target ∉ targets) :
    Becomes appletName (rule.tokens applet options) (ofTargets targets applet)
      (ofTargets (targets ++ rule.source.shown applet options) applet) := by
  have known := run_flags_known rule member
  obtain ⟨flag, source⟩ := rule
  cases source with
  | text field =>
      by_cases empty : (applet.text field).isEmpty
      · simpa only [RunFlag.tokens, FlagSource.shown, empty, if_true, List.append_nil] using nothing
      · have named : field ≠ .network := by
          rintro rfl
          exact empty (String.isEmpty_iff.mpr plain.unattached)
        have read := known fun same => named (FlagSource.text.inj same)
        simp only [RunFlag.tokens, FlagSource.shown, empty, Bool.false_eq_true, if_false]
        rw [← of_targets_text]
        exact text read (if_neg fresh) (plain.texts field)
  | switch field =>
      have read := known nofun
      by_cases on : applet.switch field
      · simp only [RunFlag.tokens, FlagSource.shown, on, if_true]
        rw [← of_targets_switch]
        exact switch read (if_neg fresh)
      · simpa [RunFlag.tokens, FlagSource.shown, on] using nothing
  | terminal field =>
      have read := known nofun
      by_cases on : options.stdinIsTerminal && applet.switch field
      · simp only [RunFlag.tokens, FlagSource.shown, on, if_true]
        rw [← of_targets_switch]
        exact switch read (if_neg fresh)
      · simpa [RunFlag.tokens, FlagSource.shown, on] using nothing
  | list field =>
      rw [FlagSource.shown, ← of_targets_list fresh]
      exact list (known nofun) (plain.lists field)

theorem Becomes.rules {rules : List RunFlag} (members : ∀ rule ∈ rules, rule ∈ runFlags)
    (plain : applet.Plain) (distinct : (rules.map fun rule => rule.source.target).Nodup)
    (fresh : ∀ rule ∈ rules, rule.source.target ∉ targets) :
    Becomes appletName (rules.flatMap fun rule => rule.tokens applet options)
      (ofTargets targets applet)
      (ofTargets (targets ++ rules.flatMap fun rule => rule.source.shown applet options)
        applet) := by
  -- No later rule is about anything that the rules so far have set.
  induction rules generalizing targets with
  | nil => simpa using nothing
  | cons rule rules induction =>
      obtain ⟨alone, distinct⟩ := List.nodup_cons.mp distinct
      have first : Becomes appletName (rule.tokens applet options) (ofTargets targets applet)
          (ofTargets (targets ++ rule.source.shown applet options) applet) :=
        Becomes.rule (members rule (by simp)) plain (fresh rule (by simp))
      have apart : ∀ other ∈ rules,
          other.source.target ∉ targets ++ rule.source.shown applet options := by
        intro other member shown
        obtain earlier | same := List.mem_append.mp shown
        · exact fresh other (List.mem_cons_of_mem _ member) earlier
        · have again := FlagSource.target_of_mem_shown same
          exact alone (List.mem_map.mpr ⟨other, member, again⟩)
      have later := induction (fun other member => members other (List.mem_cons_of_mem _ member))
        distinct apart
      rw [List.append_assoc] at later
      exact first.append later

theorem of_flag_tokens (plain : applet.Plain) :
    ofFlags appletName (flagTokens applet options) =
      .ok (ofTargets (shownTargets applet options) applet) := by
  have start : ofTargets [] applet = .none := by simp [ofTargets, none]
  apply Becomes.of_flags
  rw [← start]
  exact Becomes.rules (fun _ member => member) plain run_flags_distinct (by simp)

end Overrides

/-! ### The line is the same again -/

/-- The applet with its image and its command, but without any other setting. -/
def Applet.core (applet : Applet) : Applet :=
  { Applet.bare applet.appletName with
    text := fun field => if field = .image ∨ field = .tag then applet.text field else ""
    command := applet.command }

/-- What the flags of the line make of it. -/
def Applet.restored (applet : Applet) (options : RunOptions) : Applet :=
  (Overrides.ofTargets (shownTargets applet options) applet).apply applet.core

section Restored

variable {applet : Applet} {options : RunOptions}

theorem mem_shown_targets {rule : RunFlag} (member : rule ∈ runFlags) {target : OverrideTarget}
    (shown : target ∈ rule.source.shown applet options) : target ∈ shownTargets applet options :=
  List.mem_flatMap.mpr ⟨rule, member, shown⟩

theorem on_of_shown {field : SwitchField}
    (shown : .switch field ∈ shownTargets applet options) : applet.switch field := by
  obtain ⟨⟨flag, source⟩, _, member⟩ := List.mem_flatMap.mp shown
  cases source with
  | text other => grind [FlagSource.shown]
  | switch other => grind [FlagSource.shown]
  | terminal other => grind [FlagSource.shown]
  | list other => grind [FlagSource.shown]

theorem restored_text (field : TextField) :
    (applet.restored options).text field =
      if .text field ∈ shownTargets applet options ∨ field = .image ∨ field = .tag then
        applet.text field
      else "" := by
  by_cases shown : .text field ∈ shownTargets applet options
  · simp [Applet.restored, Overrides.apply, Overrides.ofTargets, shown]
  · simp [Applet.restored, Overrides.apply, Overrides.ofTargets, Applet.core, shown]

theorem restored_switch (field : SwitchField) :
    (applet.restored options).switch field =
      decide (.switch field ∈ shownTargets applet options) := by
  by_cases shown : .switch field ∈ shownTargets applet options
  · simp [Applet.restored, Overrides.apply, Overrides.ofTargets, shown]
  · simp [Applet.restored, Overrides.apply, Overrides.ofTargets, Applet.core, Applet.bare, shown]

theorem restored_list (field : ListField) :
    (applet.restored options).list field =
      if .list field ∈ shownTargets applet options then applet.list field else [] := by
  simp [Applet.restored, Overrides.apply, Overrides.ofTargets, Applet.core, Applet.bare]

theorem restored_tokens {rule : RunFlag} (member : rule ∈ runFlags) :
    rule.tokens (applet.restored options) options = rule.tokens applet options := by
  have shown := @mem_shown_targets applet options rule member
  obtain ⟨flag, source⟩ := rule
  cases source with
  | text field =>
      have same : (applet.restored options).text field = applet.text field := by
        rw [restored_text]
        by_cases empty : applet.text field = ""
        · simp [empty]
        · rw [if_pos (.inl (shown (by simp [FlagSource.shown, empty])))]
      simp only [RunFlag.tokens, same]
  | switch field =>
      have same : (applet.restored options).switch field = applet.switch field := by
        rw [restored_switch, Bool.eq_iff_iff, decide_eq_true_iff]
        exact ⟨on_of_shown, fun on => shown (by simp [FlagSource.shown, on])⟩
      simp only [RunFlag.tokens, same]
  | terminal field =>
      have same : (options.stdinIsTerminal && (applet.restored options).switch field) =
          (options.stdinIsTerminal && applet.switch field) := by
        rw [restored_switch, Bool.eq_iff_iff, Bool.and_eq_true, Bool.and_eq_true,
          decide_eq_true_iff]
        refine and_congr_right fun terminal => ⟨on_of_shown, fun on => ?_⟩
        exact shown (by simp [FlagSource.shown, terminal, on])
      simp only [RunFlag.tokens, same]
  | list field =>
      have same : (applet.restored options).list field = applet.list field := by
        rw [restored_list, if_pos (shown (by simp [FlagSource.shown]))]
      simp only [RunFlag.tokens, same]

theorem restored_run_line (extra : List String) :
    runLine (applet.restored options) extra options = runLine applet extra options := by
  have flags : flagTokens (applet.restored options) options = flagTokens applet options :=
    List.flatMap_congr fun rule member => restored_tokens member
  have image : (applet.restored options).imageReference = applet.imageReference := by
    simp [Applet.imageReference, Applet.image, restored_text]
  have command : (applet.restored options).command = applet.command := rfl
  simp only [runLine, flags, image, containerArguments, command]

end Restored

/-- The flags of a run line are accepted as overrides, and give back the line when all but the image
and the command has been lost. -/
theorem run_flags_restore_line (appletName : String) (applet : Applet) (extra : List String)
    (options : RunOptions) (plain : applet.Plain) :
    ∃ overrides, Overrides.ofFlags appletName (flagTokens applet options) = .ok overrides ∧
      runLine (overrides.apply applet.core) extra options = runLine applet extra options :=
  ⟨_, Overrides.of_flag_tokens plain, restored_run_line extra⟩

/-- Empty elements, several lists and a switch that only a terminal shows. -/
def forwarded : Applet :=
  { Applet.ofImage "web" "nginx" with
    text := fun
      | .image => "nginx"
      | .workDir => "/srv"
      | _ => ""
    switch := fun field => field = .tty ∨ field = .rm ∨ field = .pull
    list := fun
      | .environment => ["", "A=1", ""]
      | .networks => ["front", "back"]
      | _ => []
    command := ["serve"] }

theorem forwarded_line_restored :
    forwarded.Plain ∧
    flagTokens forwarded ⟨"docker", true, .append⟩ =
      ["--workdir", "/srv", "--rm", "--tty", "-e", "", "-e", "A=1", "-e", "", "--network", "front",
        "--network", "back"] ∧
    ∃ overrides,
      Overrides.ofFlags "web" (flagTokens forwarded ⟨"docker", true, .append⟩) = .ok overrides ∧
      runLine (overrides.apply forwarded.core) ["-q"] ⟨"docker", true, .append⟩ =
        runLine forwarded ["-q"] ⟨"docker", true, .append⟩ := by
  have plain : forwarded.Plain := {
    unattached := rfl
    texts := fun field => by cases field <;> decide
    lists := fun field => by cases field <;> decide }
  exact ⟨plain, by decide,
    run_flags_restore_line "web" forwarded ["-q"] ⟨"docker", true, .append⟩ plain⟩

end ContainerApplets
