import ContainerApplets.Number.Written
import ContainerApplets.Text.Quoted
import ContainerApplets.Yaml.Tree

/-!
Values of a demanded type in a tree. Tags are ignored. A value of another type is refused by what
was found and what was expected.
-/

namespace ContainerApplets.Yaml

namespace Tree

/-- How a message shows a value that has the wrong type. -/
def found : Tree → String
  | .null => "unit value"
  | .bool value => "boolean \x60" ++ toString value ++ "\x60"
  | .int value => "integer \x60" ++ toString value ++ "\x60"
  | .float value => "floating point \x60" ++ value.messageText ++ "\x60"
  | .text value => "string " ++ Text.quoted value
  | .list _ => "sequence"
  | .map _ => "map"
  | .tagged .. => "enum"

def wrongType {Value : Type} (tree : Tree) (expected : String) : Except String Value :=
  .error ("invalid type: " ++ tree.found ++ ", expected " ++ expected)

def asText (tree : Tree) : Except String String :=
  match tree.untagged with
  | .text value => .ok value
  | other => other.wrongType "a string"

def asSwitch (tree : Tree) : Except String Bool :=
  match tree.untagged with
  | .bool value => .ok value
  | other => other.wrongType "a boolean"

/-- Null is an empty list. -/
def asTexts (tree : Tree) : Except String (List String) :=
  match tree.untagged with
  | .list items => items.mapM asText
  | .null => .ok []
  | other => other.wrongType "a sequence"

/-- Null, but not a null under a tag, leaves a value unset. -/
def asOptional {Value : Type} (read : Tree → Except String Value) :
    Tree → Except String (Option Value)
  | .null => .ok none
  | tree => some <$> read tree

end Tree

/-- The names that a message lists as the ones expected. -/
def expectedNames (names : List String) : String :=
  let quoted := names.map fun name => "\x60" ++ name ++ "\x60"
  match quoted with
  | [] => "there are no fields"
  | [only] => "expected " ++ only
  | [first, second] => "expected " ++ first ++ " or " ++ second
  | _ => "expected one of " ++ ", ".intercalate quoted

/-- The form of a record: its name, its settings with their keys, and how each is read. -/
structure RecordForm (Setting Record : Type) where
  name : String
  settings : List Setting
  key : Setting → String
  set : Record → Setting → Tree → Except String Record

namespace RecordForm

variable {Setting Record : Type}

def setting? (form : RecordForm Setting Record) (key : String) : Option Setting :=
  form.settings.find? fun setting => form.key setting == key

/-- Reads one entry after those with the keys `seen`. -/
def readEntry (form : RecordForm Setting Record) (state : List String × Record)
    (entry : Tree × Tree) : Except String (List String × Record) := do
  let key ← match entry.1.untagged with
    | .text key => .ok key
    | other => other.wrongType "field identifier"
  match form.setting? key with
  | none =>
      .error ("unknown field \x60" ++ key ++ "\x60, " ++ expectedNames (form.settings.map form.key))
  | some setting =>
      if key ∈ state.1 then .error ("duplicate field \x60" ++ key ++ "\x60")
      else do return (key :: state.1, ← form.set state.2 setting entry.2)

/-- Reads the entries in their order; the first that is wrong decides. Null is the record of which
nothing is set. -/
def read (form : RecordForm Setting Record) (unset : Record) (tree : Tree) :
    Except String Record :=
  match tree.untagged with
  | .map entries => Prod.snd <$> entries.foldlM form.readEntry ([], unset)
  | .null => .ok unset
  | other => other.wrongType ("struct " ++ form.name)

end RecordForm

end ContainerApplets.Yaml
