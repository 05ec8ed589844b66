import ContainerApplets.Invocation
import ContainerApplets.Proofs.OverrideReading

/-!
Override flags that are written one after the other. Flags that are accepted by themselves are
accepted behind others, unless both set one single value, and then override what the others have
made of an applet. The reader is followed step by step: it does on top of earlier overrides what it
does without them.
-/

namespace ContainerApplets

/-- The hooks that are not there yet are added, each once, in the order in which they come. -/
theorem add_hooks_eq (hooks more : List String) :
    addHooks hooks more = hooks ++ (more.filter fun hook => hook ∉ hooks).eraseDups := by
  induction more generalizing hooks with
  | nil => simp [addHooks]
  | cons hook rest induction =>
      change addHooks (if hook ∈ hooks then hooks else hooks ++ [hook]) rest = _
      by_cases known : hook ∈ hooks
      · rw [if_pos known, induction, List.filter_cons_of_neg (by simpa using known)]
      · rw [if_neg known, induction, List.filter_cons_of_pos (by simpa using known),
          List.eraseDups_cons, List.filter_filter, List.append_assoc, List.singleton_append]
        congr 3
        refine List.filter_congr fun other _ => ?_
        by_cases same : other = hook <;> simp [same]

namespace Overrides

/-- The overrides of both; a single value of the later ones stands. -/
def andThen (first later : Overrides) : Overrides where
  text := fun field => (later.text field).or (first.text field)
  switch := fun field => (later.switch field).or (first.switch field)
  list := fun field => first.list field ++ later.list field
  hooks := fun side => first.hooks side ++ later.hooks side

/-- No single value is set by both. -/
structure Apart (first later : Overrides) : Prop where
  text : ∀ field, first.text field = Option.none ∨ later.text field = Option.none
  switch : ∀ field, first.switch field = Option.none ∨ later.switch field = Option.none

variable {first later next : Overrides} {appletName value : String} {flag : OverrideFlag}

theorem and_then_none (first : Overrides) : first.andThen none = first := by
  simp [andThen, none]

theorem and_then_apply (first later : Overrides) (applet : Applet) :
    (first.andThen later).apply applet = later.apply (first.apply applet) := by
  simp only [apply, andThen, Applet.mk.injEq, true_and, and_true]
  refine ⟨?_, ?_, ?_, ?_⟩
  · funext field
    cases later.text field <;> rfl
  · funext field
    cases later.switch field <;> rfl
  · funext field
    exact (List.append_assoc _ _ _).symm
  · funext side
    exact List.foldl_append

theorem and_then_set_text (field : TextField) :
    first.andThen (later.setText field value) = (first.andThen later).setText field value := by
  simp only [andThen, setText, mk.injEq, and_true]
  funext other
  by_cases same : other = field <;> simp [same]

theorem and_then_set_switch (field : SwitchField) (on : Bool) :
    first.andThen (later.setSwitch field on) = (first.andThen later).setSwitch field on := by
  simp only [andThen, setSwitch, mk.injEq, and_true, true_and]
  funext other
  by_cases same : other = field <;> simp [same]

theorem and_then_add_list (field : ListField) :
    first.andThen (later.addList field value) = (first.andThen later).addList field value := by
  simp only [andThen, addList, mk.injEq, and_true, true_and]
  funext other
  by_cases same : other = field <;> simp [same]

theorem and_then_add_hook (side : HookSide) :
    first.andThen (later.addHook side value) = (first.andThen later).addHook side value := by
  simp only [andThen, addHook, mk.injEq, true_and]
  funext other
  by_cases same : other = side <;> simp [same]

/-- What taking a flag with a value does, where it is accepted. -/
inductive Takes (flag : OverrideFlag) (value : String) (before : Overrides) : Overrides → Prop
  | text {field : TextField} (target : flag.target = .text field)
      (unset : before.text field = Option.none) :
      Takes flag value before (before.setText field value)
  | switch {field : SwitchField} {on : Bool} (target : flag.target = .switch field)
      (unset : before.switch field = Option.none) (read : switchValue? value = some on) :
      Takes flag value before (before.setSwitch field on)
  | list {field : ListField} (target : flag.target = .list field) :
      Takes flag value before (before.addList field value)
  | hooks {side : HookSide} (target : flag.target = .hooks side) :
      Takes flag value before (before.addHook side value)

theorem take_eq_ok_iff :
    later.take appletName flag value = .ok next ↔ Takes flag value later next := by
  constructor
  · intro taken
    rw [take] at taken
    split at taken
    · next field target =>
      split at taken
      · cases taken
      · next unset =>
        cases taken
        exact .text target (by simpa using unset)
    · next field target =>
      split at taken
      · cases taken
      · next unset =>
        split at taken
        · next on read =>
          cases taken
          exact .switch target (by simpa using unset) read
        · cases taken
    · next field target =>
      cases taken
      exact .list target
    · next side target =>
      cases taken
      exact .hooks target
    · cases taken
  · intro takes
    cases takes with
    | text target unset => simp [take, target, unset]
    | switch target unset read => simp [take, target, unset, read]
    | list target => simp [take, target]
    | hooks target => simp [take, target]

/-- A flag that is taken by itself is taken behind overrides that leave its value open. -/
theorem Takes.behind (takes : Takes flag value later next) (apart : first.Apart next) :
    first.Apart later ∧ Takes flag value (first.andThen later) (first.andThen next) := by
  cases takes with
  | @text field target unset =>
      have own := (apart.text field).resolve_right (by simp [setText])
      refine ⟨⟨fun other => ?_, apart.switch⟩, ?_⟩
      · by_cases same : other = field
        · exact .inr (same ▸ unset)
        · simpa [setText, same] using apart.text other
      · rw [and_then_set_text]
        exact .text target (by simp [andThen, own, unset])
  | @switch field on target unset read =>
      have own := (apart.switch field).resolve_right (by simp [setSwitch])
      refine ⟨⟨apart.text, fun other => ?_⟩, ?_⟩
      · by_cases same : other = field
        · exact .inr (same ▸ unset)
        · simpa [setSwitch, same] using apart.switch other
      · rw [and_then_set_switch]
        exact .switch target (by simp [andThen, own, unset]) read
  | list target =>
      rw [and_then_add_list]
      exact ⟨⟨apart.text, apart.switch⟩, .list target⟩
  | hooks target =>
      rw [and_then_add_hook]
      exact ⟨⟨apart.text, apart.switch⟩, .hooks target⟩

/-- No flag is about the primary network. -/
theorem flags_spare_network : ∀ flag ∈ OverrideFlag.all, flag.target ≠ .text .network := by
  decide

theorem Takes.spares_network (takes : Takes flag value later next)
    (known : flag ∈ OverrideFlag.all) (unset : later.text .network = Option.none) :
    next.text .network = Option.none := by
  cases takes with
  | @text field target =>
      have different : TextField.network ≠ field :=
        fun same => flags_spare_network flag known (same ▸ target)
      simp [setText, different, unset]
  | switch => exact unset
  | list => exact unset
  | hooks => exact unset

end Overrides

namespace OverrideState

open Overrides (Takes take_eq_ok_iff)

/-- The same state behind earlier overrides. -/
def behind (state : OverrideState) (first : Overrides) : OverrideState :=
  { state with overrides := first.andThen state.overrides }

/-- The flags go on, the primary network is left alone, and only a known flag waits. -/
structure Regular (state : OverrideState) : Prop where
  unended : state.ended = false
  unattached : state.overrides.text .network = none
  known : ∀ waiting, state.pending = some waiting → waiting.flag ∈ OverrideFlag.all

/-- A part of the reader that is accepted leads from regular states to regular states, and does the
same behind earlier overrides that have no single value in common with what it comes to. -/
def Carries (first : Overrides) (change : OverrideState → Except UsageReport OverrideState) :
    Prop :=
  ∀ state next, change state = .ok next → state.Regular → next.Regular ∧
    (first.Apart next.overrides → first.Apart state.overrides ∧
      change (state.behind first) = .ok (next.behind first))

variable {first : Overrides} {appletName token : String} {flag : OverrideFlag}

theorem Carries.bind {change further : OverrideState → Except UsageReport OverrideState}
    (one : Carries first change) (two : Carries first further) :
    Carries first fun state => change state >>= further := by
  intro state next accepted regular
  obtain ⟨middle, begun, ended⟩ := bind_eq_ok.mp accepted
  obtain ⟨between, ahead⟩ := one state middle begun regular
  obtain ⟨last, behind⟩ := two middle next ended between
  refine ⟨last, fun apart => ?_⟩
  obtain ⟨apart, ended⟩ := behind apart
  obtain ⟨apart, begun⟩ := ahead apart
  exact ⟨apart, bind_eq_ok.mpr ⟨_, begun, ended⟩⟩

theorem carries_take (known : flag ∈ OverrideFlag.all) (value : String) :
    Carries first fun state => do
      return { state with overrides := ← state.overrides.take appletName flag value } := by
  intro state next accepted regular
  obtain ⟨overrides, taken, same⟩ := bind_eq_ok.mp accepted
  cases same
  have takes := take_eq_ok_iff.mp taken
  refine ⟨⟨regular.unended, takes.spares_network known regular.unattached, regular.known⟩, ?_⟩
  intro apart
  obtain ⟨apart, takes⟩ := takes.behind apart
  exact ⟨apart, bind_eq_ok.mpr ⟨_, take_eq_ok_iff.mpr takes, rfl⟩⟩

theorem carries_settle : Carries first fun state => state.settle appletName := by
  intro state next accepted regular
  simp only [settle] at accepted ⊢
  split at accepted
  · next nothing =>
    cases accepted
    exact ⟨regular, fun apart => ⟨apart, by simp only [behind, nothing]⟩⟩
  · next flag value waiting =>
    obtain ⟨overrides, taken, same⟩ := bind_eq_ok.mp accepted
    cases same
    have takes := take_eq_ok_iff.mp taken
    refine ⟨⟨regular.unended,
      takes.spares_network (regular.known _ waiting) regular.unattached, by simp⟩, ?_⟩
    intro apart
    obtain ⟨apart, takes⟩ := takes.behind apart
    exact ⟨apart, by
      simp only [behind, waiting, take_eq_ok_iff.mpr takes, ok_bind, pure_eq_ok]⟩
  · cases accepted

/-- Of a flag whose value comes in the next argument only the flag is kept. -/
theorem carries_await (known : flag ∈ OverrideFlag.all) :
    Carries first fun state => .ok { state with pending := some ⟨flag, none⟩ } := by
  intro state next accepted regular
  cases accepted
  refine ⟨⟨regular.unended, regular.unattached, ?_⟩, fun apart => ⟨apart, rfl⟩⟩
  intro waiting same
  cases same
  exact known

theorem carries_flag (known : flag ∈ OverrideFlag.all) (value : Option String) :
    Carries first fun state => state.flag appletName flag value := by
  simp only [OverrideState.flag]
  refine carries_settle.bind ?_
  cases value with
  | some value => exact carries_take known value
  | none =>
      by_cases alone : Overrides.standsAlone flag.target
      · simp only [alone, if_true]
        exact carries_take known "true"
      · simp only [alone]
        exact carries_await known

theorem carries_nothing : Carries first .ok := by
  intro state next accepted regular
  cases accepted
  exact ⟨regular, fun apart => ⟨apart, rfl⟩⟩

theorem carries_refusal (report : UsageReport) : Carries first fun _ => .error report :=
  fun _ _ accepted => nomatch accepted

theorem carries_long (name : String) (value : Option String) :
    Carries first fun state => state.long appletName name value := by
  simp only [OverrideState.long]
  cases found : OverrideFlag.ofLong? name with
  | none => exact carries_refusal _
  | some flag =>
      have known : flag ∈ OverrideFlag.all := List.mem_of_find?_eq_some found
      dsimp only
      split
      · exact carries_refusal _
      · exact carries_flag known _

theorem carries_shorts (letters : List Char) :
    Carries first fun state => state.shorts appletName letters := by
  induction letters with
  | nil => exact carries_nothing
  | cons letter rest induction =>
      simp only [OverrideState.shorts]
      cases found : OverrideFlag.ofShort? letter with
      | none => exact carries_refusal _
      | some flag =>
          have known : flag ∈ OverrideFlag.all := List.mem_of_find?_eq_some found
          dsimp only
          split
          · split
            · exact (carries_flag known none).bind induction
            · exact carries_flag known _
          · exact carries_flag known none
          · split
            · exact (carries_flag known none).bind induction
            · exact carries_flag known _

theorem carries_word : Carries first fun state => state.word token := by
  intro state next accepted regular
  simp only [OverrideState.word] at accepted ⊢
  split at accepted
  · next flag waiting =>
    cases accepted
    have known := regular.known _ waiting
    refine ⟨⟨regular.unended, regular.unattached, ?_⟩, fun apart => ⟨apart, ?_⟩⟩
    · intro other same
      cases same
      exact known
    · simp only [behind, waiting]
  · cases accepted

theorem of_text_end {text : String} (ends : Argument.ofText text = .endOfFlags) : text = "--" := by
  rw [Argument.ofText] at ends
  split at ends
  · next letters => exact String.ext letters
  · cases ends
  · cases ends
  · cases ends

/-- What an argument of each form does to a state whose flags go on. -/
theorem step_eq {state : OverrideState} (unended : state.ended = false) :
    state.step appletName token =
      match Argument.ofText token with
      | .endOfFlags => .ok { state with ended := true }
      | .long name value => state.long appletName name value
      | .short letter rest => state.shorts appletName (letter :: rest)
      | .word => state.word token :=
  if_neg (by simp [unended])

theorem carries_step (goesOn : token ≠ "--") :
    Carries first fun state => state.step appletName token := by
  intro state next accepted regular
  have unended : (state.behind first).ended = false := regular.unended
  dsimp only at accepted ⊢
  rw [step_eq regular.unended] at accepted
  rw [step_eq unended]
  cases form : Argument.ofText token with
  | endOfFlags => exact absurd (of_text_end form) goesOn
  | long name value =>
      rw [form] at accepted
      exact carries_long name value state next accepted regular
  | short letter rest =>
      rw [form] at accepted
      exact carries_shorts (letter :: rest) state next accepted regular
  | word =>
      rw [form] at accepted
      exact carries_word state next accepted regular

theorem carries_run {flags : List String} (goesOn : "--" ∉ flags) :
    Carries first fun state => flags.foldlM (step appletName) state := by
  induction flags with
  | nil => exact carries_nothing
  | cons token rest induction =>
      obtain ⟨different, later⟩ := List.ne_and_not_mem_of_not_mem_cons goesOn
      simp only [List.foldlM_cons]
      exact (carries_step different.symm).bind (induction later)

/-- What is still pending is settled, and nothing else changes. -/
theorem settle_eq_ok {state next : OverrideState} (settled : state.settle appletName = .ok next) :
    next = ⟨next.overrides, none, state.ended⟩ := by
  rw [settle] at settled
  split at settled
  · next nothing =>
    cases settled
    rw [← nothing]
  · obtain ⟨overrides, _, same⟩ := bind_eq_ok.mp settled
    cases same
    rfl
  · cases settled

theorem start_regular : start.Regular := ⟨rfl, rfl, nofun⟩

/-! ### Where the later flags begin -/

section Boundary

variable {state settled : OverrideState}

/-- A flag settles what is pending before it does anything else. -/
theorem flag_of_settled (settles : state.settle appletName = .ok settled) (value : Option String) :
    state.flag appletName flag value = settled.flag appletName flag value := by
  have again : settled.settle appletName = .ok settled := by
    rw [settle_eq_ok settles]
    rfl
  rw [OverrideState.flag, OverrideState.flag, settles, again]

theorem long_of_settled (settles : state.settle appletName = .ok settled) (name : String)
    (value : Option String) :
    state.long appletName name value = settled.long appletName name value := by
  simp only [OverrideState.long, flag_of_settled settles]

theorem shorts_of_settled (settles : state.settle appletName = .ok settled) (letter : Char)
    (rest : List Char) :
    state.shorts appletName (letter :: rest) = settled.shorts appletName (letter :: rest) := by
  simp only [OverrideState.shorts, flag_of_settled settles]

/-- Where flags can begin, a reader goes on as if it began behind what it has read. -/
theorem step_of_reads (reads : state.Reads appletName first) (goesOn : token ≠ "--")
    {next : OverrideState} (accepted : start.step appletName token = .ok next) :
    state.step appletName token = (start.behind first).step appletName token := by
  have begun : start.behind first = ⟨first, none, false⟩ := by
    rw [behind, start, Overrides.and_then_none]
  rw [step_eq reads.unended, begun, step_eq rfl]
  cases form : Argument.ofText token with
  | endOfFlags => exact absurd (of_text_end form) goesOn
  | long name value => exact long_of_settled reads.settled name value
  | short letter rest => exact shorts_of_settled reads.settled letter rest
  | word =>
      rw [step_eq rfl, form] at accepted
      cases accepted

end Boundary

end OverrideState

namespace Overrides

open OverrideState

variable {appletName : String} {flags first later : List String} {overrides : Overrides}

theorem of_flags_eq_ok_iff : ofFlags appletName flags = .ok overrides ↔
    ∃ state ended, flags.foldlM (step appletName) start = .ok state ∧
      state.settle appletName = .ok ⟨overrides, Option.none, ended⟩ := by
  rw [ofFlags, bind_eq_ok]
  refine exists_congr fun state => ?_
  simp only [bind_eq_ok, pure_eq_ok, Except.ok.injEq, exists_and_left]
  refine and_congr_right fun _ => ⟨?_, ?_⟩
  · intro settled
    obtain ⟨next, settled, rfl⟩ := settled
    exact ⟨state.ended, settle_eq_ok settled ▸ settled⟩
  · intro settled
    obtain ⟨ended, settled⟩ := settled
    exact ⟨_, settled, rfl⟩

/-- Flags that are accepted leave the primary network alone, and only a value can be pending behind
them. -/
theorem of_flags_reads (goesOn : "--" ∉ flags)
    (accepted : ofFlags appletName flags = .ok overrides) :
    ∃ state, flags.foldlM (step appletName) start = .ok state ∧
      state.Reads appletName overrides ∧ overrides.text .network = Option.none := by
  obtain ⟨state, ended, run, settled⟩ := of_flags_eq_ok_iff.mp accepted
  have reads : Carries none fun state => flags.foldlM (step appletName) state :=
    carries_run goesOn
  have settles : Carries none fun state => state.settle appletName := carries_settle
  have regular := (reads start state run start_regular).1
  have last := (settles state _ settled regular).1
  have whole := settle_eq_ok settled
  rw [regular.unended] at whole
  exact ⟨state, run, ⟨regular.unended, whole ▸ settled⟩, last.unattached⟩

/-- Flags that are accepted by themselves are accepted behind others. -/
theorem of_flags_append {earlier further : Overrides} (goesOn : "--" ∉ first)
    (goesFurther : "--" ∉ later) (accepted : ofFlags appletName first = .ok earlier)
    (alone : ofFlags appletName later = .ok further) (apart : earlier.Apart further) :
    ofFlags appletName (first ++ later) = .ok (earlier.andThen further) := by
  obtain ⟨state, run, reads, _⟩ := of_flags_reads goesOn accepted
  obtain ⟨last, ended, begun, settled⟩ := of_flags_eq_ok_iff.mp alone
  rw [of_flags_eq_ok_iff, List.foldlM_append, run, ok_bind]
  cases later with
  | nil =>
      cases begun
      cases settled
      rw [and_then_none]
      exact ⟨state, false, rfl, reads.settled⟩
  | cons token rest =>
      have carries : Carries earlier fun state => (token :: rest).foldlM (step appletName) state :=
        carries_run goesFurther
      have settles : Carries earlier fun state => state.settle appletName := carries_settle
      obtain ⟨regular, behind⟩ := carries start last begun start_regular
      obtain ⟨apart, settled⟩ := (settles last _ settled regular).2 apart
      obtain ⟨_, begunBehind⟩ := behind apart
      obtain ⟨different, _⟩ := List.ne_and_not_mem_of_not_mem_cons goesFurther
      obtain ⟨next, stepped, _⟩ := bind_eq_ok.mp (List.foldlM_cons.symm.trans begun)
      refine ⟨last.behind earlier, ended, ?_, settled⟩
      rw [List.foldlM_cons, step_of_reads reads different.symm stepped]
      exact List.foldlM_cons.symm.trans begunBehind

end Overrides

/-- Flags that are accepted apart and have no single value in common are accepted together. What
they make of an applet is what the later ones make of what the earlier ones make of it. -/
theorem override_flags_compose {appletName : String} {first later : List String}
    {earlier further : Overrides} (goesOn : "--" ∉ first) (goesFurther : "--" ∉ later)
    (accepted : Overrides.ofFlags appletName first = .ok earlier)
    (alone : Overrides.ofFlags appletName later = .ok further) (apart : earlier.Apart further) :
    ∃ both, Overrides.ofFlags appletName (first ++ later) = .ok both ∧ ∀ applet : Applet,
      both.apply applet = further.apply (earlier.apply applet) ∧
      (∀ field, (both.apply applet).text field =
        ((further.text field).or (earlier.text field)).getD (applet.text field)) ∧
      (∀ field, (both.apply applet).switch field =
        ((further.switch field).or (earlier.switch field)).getD (applet.switch field)) ∧
      (∀ field, (both.apply applet).list field =
        applet.list field ++ earlier.list field ++ further.list field) ∧
      (∀ side, (both.apply applet).hooks side = applet.hooks side ++
        ((earlier.hooks side ++ further.hooks side).filter fun hook =>
          hook ∉ applet.hooks side).eraseDups) ∧
      (both.apply applet).appletName = applet.appletName ∧
      (both.apply applet).text .network = applet.text .network ∧
      (both.apply applet).command = applet.command := by
  obtain ⟨_, _, _, unattached⟩ := Overrides.of_flags_reads goesOn accepted
  obtain ⟨_, _, _, unattachedToo⟩ := Overrides.of_flags_reads goesFurther alone
  refine ⟨earlier.andThen further,
    Overrides.of_flags_append goesOn goesFurther accepted alone apart, fun applet => ?_⟩
  refine ⟨Overrides.and_then_apply earlier further applet, fun _ => rfl, fun _ => rfl, ?_, ?_, rfl,
    ?_, rfl⟩
  · intro field
    exact (List.append_assoc _ _ _).symm
  · intro side
    exact add_hooks_eq _ _
  · simp [Overrides.apply, Overrides.andThen, unattached, unattachedToo]

/-- Clusters, attached and separate values, and a value that is pending where the later flags
begin. -/
theorem clustered_flags_compose :
    let first := ["-ite=A=1", "--before-hook", "db", "--rm=false", "--workdir", "-"]
    let later := ["-dv/srv", "-e", "B=2", "--name=web", "--before-hook=db", "--before-hook", "log"]
    ∃ earlier further both, "--" ∉ first ∧ "--" ∉ later ∧
      Overrides.ofFlags "web" first = .ok earlier ∧ Overrides.ofFlags "web" later = .ok further ∧
      earlier.Apart further ∧ Overrides.ofFlags "web" (first ++ later) = .ok both ∧
      both.apply (.ofImage "web" "nginx") =
        further.apply (earlier.apply (.ofImage "web" "nginx")) ∧
      (both.apply (.ofImage "web" "nginx")).hooks .before = ["db", "log"] := by
  intro first later
  have goesOn : "--" ∉ first := by decide
  have goesFurther : "--" ∉ later := by decide
  have accepted : ∃ earlier, Overrides.ofFlags "web" first = .ok earlier ∧
      ∃ further, Overrides.ofFlags "web" later = .ok further ∧ earlier.Apart further ∧
        earlier.hooks .before ++ further.hooks .before = ["db", "db", "log"] := by
    refine ⟨_, rfl, _, rfl, ⟨?_, ?_⟩, rfl⟩
    · intro field
      cases field <;> decide
    · intro field
      cases field <;> decide
  obtain ⟨earlier, one, further, two, apart, hooks⟩ := accepted
  obtain ⟨both, together, applied⟩ := override_flags_compose goesOn goesFurther one two apart
  obtain ⟨composed, _, _, _, added, _⟩ := applied (.ofImage "web" "nginx")
  refine ⟨earlier, further, both, goesOn, goesFurther, one, two, apart, together, composed, ?_⟩
  rw [added, hooks]
  decide

end ContainerApplets
