import ContainerApplets.Argument
import ContainerApplets.CommandLine.Verb
import ContainerApplets.Usage

/-!
Reading the arguments of the management commands from left to right. Each command is a level with
flags and words of its own. What was taken last is checked only when the next flag or word is taken
or the arguments end, so an argument that nothing knows is reported first.
-/

namespace ContainerApplets.CommandLine

/-- What has been taken last and is not checked yet. -/
inductive Pending
  | nothing
  | word (word : Word) (value : String)
  /-- A flag that takes its value from the next argument. -/
  | flag (flag : Flag)
  | valued (flag : Flag) (value : String)
  deriving DecidableEq

structure Level where
  verb : Verb
  /-- The flags that have been checked, with their values, in the order in which they came. -/
  flags : List (Flag × String)
  words : List String
  pending : Pending
  /-- All further arguments are words. -/
  ended : Bool
  deriving DecidableEq

namespace Level

def start (verb : Verb) : Level := ⟨verb, [], [], .nothing, false⟩

def value? (level : Level) (flag : Flag) : Option String := level.flags.lookup flag

def has (level : Level) (flag : Flag) : Bool := (level.value? flag).isSome

/-- Takes a flag with its value: at most once, and only a value that it admits. -/
def take (level : Level) (flag : Flag) (value : String) : Except UsageReport Level :=
  if level.has flag then .error (.repeated flag.display)
  else if flag.admits value then .ok { level with flags := level.flags ++ [(flag, value)] }
  else .error (.invalidValue flag.display value)

def settle (level : Level) : Except UsageReport Level :=
  match level.pending with
  | .nothing => .ok level
  | .word word value =>
      if word.admits value then .ok { level with pending := .nothing }
      else .error (.invalidValue word.display value)
  | .flag flag => .error (.invalidValue flag.display "")
  | .valued flag value => { level with pending := .nothing }.take flag value

def plainFlag (level : Level) (flag : Flag) : Except UsageReport Level := do
  let level ← level.settle
  match flag with
  | .help => throw (.help level.verb.page)
  | .version => throw (.version level.verb.versionLine)
  | flag => level.take flag ""

/-- Takes a flag with the value written in the same argument, or leaves it pending. -/
def valueFlag (level : Level) (flag : Flag) (value : Option String) : Except UsageReport Level := do
  let level ← level.settle
  match value with
  | some value => level.take flag value
  | none => return { level with pending := .flag flag }

/-- The word that comes next. The arguments of an applet have no end. -/
def nextWord? (level : Level) : Option Word :=
  if level.verb.words.getLast? = some .arguments ∧ level.verb.words.length ≤ level.words.length
  then some .arguments else level.verb.words[level.words.length]?

/-- In front of the arguments of an applet, what no flag is named like is one of them. -/
def awaitsArguments (level : Level) : Bool := level.nextWord? == some .arguments

/-- An argument that is no flag and no command. The first argument of an applet ends the flags. -/
def word (level : Level) (argument : String) : Except UsageReport Level :=
  match level.nextWord? with
  | some .arguments => do
      let level ← level.settle
      return { level with words := level.words ++ [argument], ended := true }
  | some word => do
      let level ← level.settle
      return { level with words := level.words ++ [argument], pending := .word word argument }
  | none =>
      if level.verb.commands.isEmpty || level.ended && (level.verb.command? argument).isSome then
        .error (.unknownArgument argument)
      else .error (.unknownCommand argument)

/-- The value of the pending flag, or else a word. -/
def valueOrWord (level : Level) (argument : String) : Except UsageReport Level :=
  match level.pending with
  | .flag flag => .ok { level with pending := .valued flag argument }
  | _ => level.word argument

/-- A long flag, with what follows its equals sign if it has one. -/
def longFlag (level : Level) (argument name : String) (value : Option String) :
    Except UsageReport Level :=
  match level.verb.long? name with
  | some flag =>
      if flag.takesValue then level.valueFlag flag value
      else match value with
        | some value => .error (.unexpectedValue flag.display value)
        | none => level.plainFlag flag
  | none =>
      if level.awaitsArguments then level.valueOrWord argument
      else .error (.unknownArgument ("--" ++ name))

/-- Letters after one hyphen. A flag that takes a value takes the rest of the letters. -/
def shortFlags (level : Level) : List Char → Except UsageReport Level
  | [] => .ok level
  | letter :: rest =>
      match level.verb.short? letter with
      | none => .error (.unknownArgument ("-" ++ letter.toString))
      | some flag =>
          if flag.takesValue then
            match rest with
            | [] => level.valueFlag flag none
            | '=' :: value => level.valueFlag flag (some (String.ofList value))
            | value => level.valueFlag flag (some (String.ofList value))
          else do
            let level ← level.plainFlag flag
            level.shortFlags rest

/-- In front of the arguments of an applet, letters are flags only if all of them are. -/
def shortArgument (level : Level) (argument : String) (letters : List Char) :
    Except UsageReport Level :=
  if level.awaitsArguments ∧ ¬ letters.all fun letter => (level.verb.short? letter).isSome then
    level.valueOrWord argument
  else level.shortFlags letters

def step (level : Level) (argument : String) : Except UsageReport Level :=
  if level.ended then level.word argument
  else match Argument.ofText argument with
    | .endOfFlags => .ok { level with ended := true }
    | .long name value => level.longFlag argument name value
    | .short first rest => level.shortArgument argument (first :: rest)
    | .word => level.valueOrWord argument

end Level

end ContainerApplets.CommandLine
