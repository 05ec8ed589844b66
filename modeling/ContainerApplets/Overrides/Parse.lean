import ContainerApplets.Argument
import ContainerApplets.Overrides.Flag
import ContainerApplets.Usage

/-!
Reading override flags from left to right. A flag that takes its value from the next argument is
pending until its value and the argument after it are known to be in order; an argument that is no
flag at all is reported first.
-/

namespace ContainerApplets

/-- A flag whose value is the next argument. -/
structure PendingFlag where
  flag : OverrideFlag
  value : Option String
  deriving DecidableEq

structure OverrideState where
  overrides : Overrides
  pending : Option PendingFlag
  /-- The flags have been ended by a double hyphen. -/
  ended : Bool
  deriving DecidableEq

namespace OverrideState

def start : OverrideState := ⟨.none, none, false⟩

end OverrideState

namespace Overrides

def setText (overrides : Overrides) (field : TextField) (value : String) : Overrides :=
  { overrides with text := fun other => if other = field then some value else overrides.text other }

def setSwitch (overrides : Overrides) (field : SwitchField) (value : Bool) : Overrides :=
  { overrides with
    switch := fun other => if other = field then some value else overrides.switch other }

def addList (overrides : Overrides) (field : ListField) (value : String) : Overrides :=
  { overrides with
    list := fun other =>
      if other = field then overrides.list other ++ [value] else overrides.list other }

def addHook (overrides : Overrides) (side : HookSide) (value : String) : Overrides :=
  { overrides with
    hooks := fun other =>
      if other = side then overrides.hooks other ++ [value] else overrides.hooks other }

def switchValue? (value : String) : Option Bool :=
  if value = "true" then some true else if value = "false" then some false else Option.none

/-- Takes a flag with its value. A single value is given at most once. -/
def take (overrides : Overrides) (appletName : String) (flag : OverrideFlag) (value : String) :
    Except UsageReport Overrides :=
  match flag.target with
  | .text field =>
      if (overrides.text field).isSome then .error (.repeated flag.display)
      else .ok (overrides.setText field value)
  | .switch field =>
      if (overrides.switch field).isSome then .error (.repeated flag.display)
      else match switchValue? value with
        | some value => .ok (overrides.setSwitch field value)
        | Option.none => .error (.invalidValue flag.display value)
  | .list field => .ok (overrides.addList field value)
  | .hooks side => .ok (overrides.addHook side value)
  | .help => .error (.help (OverrideFlag.page appletName))

/-- A flag without a value: a switch is on, help is asked for, and the others wait for one. -/
def standsAlone : OverrideTarget → Bool
  | .switch _ | .help => true
  | _ => false

end Overrides

namespace OverrideState

def settle (state : OverrideState) (appletName : String) : Except UsageReport OverrideState :=
  match state.pending with
  | none => .ok state
  | some ⟨flag, some value⟩ => do
      let overrides ← state.overrides.take appletName flag value
      return { state with overrides := overrides, pending := none }
  | some ⟨flag, none⟩ => .error (.invalidValue flag.display "")

/-- Takes a flag with the value written in the same argument, or without one. -/
def flag (state : OverrideState) (appletName : String) (flag : OverrideFlag)
    (value : Option String) : Except UsageReport OverrideState := do
  let state ← state.settle appletName
  match value with
  | some value => return { state with overrides := ← state.overrides.take appletName flag value }
  | none =>
      if Overrides.standsAlone flag.target then
        return { state with overrides := ← state.overrides.take appletName flag "true" }
      else return { state with pending := some ⟨flag, none⟩ }

/-- A long flag, with what follows its equals sign if it has one. -/
def long (state : OverrideState) (appletName name : String) (value : Option String) :
    Except UsageReport OverrideState :=
  match OverrideFlag.ofLong? name with
  | none => .error (.unknownArgument ("--" ++ name))
  | some flag =>
      match flag.target, value with
      | .help, some value => .error (.unexpectedValue flag.display value)
      | _, _ => state.flag appletName flag value

/-- Letters after one hyphen. A letter that takes a value takes all that follows; a switch does so
only after an equals sign. -/
def shorts (state : OverrideState) (appletName : String) :
    List Char → Except UsageReport OverrideState
  | [] => .ok state
  | letter :: rest =>
      match OverrideFlag.ofShort? letter with
      | none => .error (.unknownArgument ("-" ++ letter.toString))
      | some flag =>
          match rest with
          | '=' :: value =>
              if flag.target = .help then do
                let state ← state.flag appletName flag none
                state.shorts appletName rest
              else state.flag appletName flag (some (String.ofList value))
          | [] => state.flag appletName flag none
          | _ =>
              if Overrides.standsAlone flag.target then do
                let state ← state.flag appletName flag none
                state.shorts appletName rest
              else state.flag appletName flag (some (String.ofList rest))

/-- An argument that is no flag: the value of the pending flag or a mistake. -/
def word (state : OverrideState) (argument : String) : Except UsageReport OverrideState :=
  match state.pending with
  | some ⟨flag, none⟩ => .ok { state with pending := some ⟨flag, some argument⟩ }
  | _ => .error (.unknownArgument argument)

def step (appletName : String) (state : OverrideState) (argument : String) :
    Except UsageReport OverrideState :=
  if state.ended then .error (.unknownArgument argument)
  else match Argument.ofText argument with
    | .endOfFlags => .ok { state with ended := true }
    | .long name value => state.long appletName name value
    | .short first rest => state.shorts appletName (first :: rest)
    | .word => state.word argument

end OverrideState

def Overrides.ofFlags (appletName : String) (flags : List String) :
    Except UsageReport Overrides := do
  let state ← flags.foldlM (OverrideState.step appletName) .start
  return (← state.settle appletName).overrides

end ContainerApplets
