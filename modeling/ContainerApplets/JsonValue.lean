import ContainerApplets.Text.Quoted

/-!
Values in the notation that other programs read, written over several lines with two spaces to a
level. Members stay in the order in which they are given.
-/

namespace ContainerApplets

inductive JsonValue
  | bool (value : Bool)
  | text (value : String)
  | list (items : List JsonValue)
  | record (members : List (String × JsonValue))

namespace JsonValue

def texts (values : List String) : JsonValue := .list (values.map .text)

/-- Only quotes, backslashes and control characters are escaped. -/
def escape (char : Char) : List Char :=
  match char with
  | '"' => ['\\', '"']
  | '\\' => ['\\', '\\']
  | '\n' => ['\\', 'n']
  | '\r' => ['\\', 'r']
  | '\t' => ['\\', 't']
  | '\x08' => ['\\', 'b']
  | '\x0c' => ['\\', 'f']
  | char =>
      if char.toNat < 32 then
        ['\\', 'u', '0', '0', Text.hexDigit (char.toNat / 16), Text.hexDigit (char.toNat % 16)]
      else [char]

def quoted (text : String) : List Char := '"' :: text.toList.flatMap escape ++ ['"']

/-- The start of a line at a level. -/
def newLine (level : Nat) : List Char := '\n' :: List.replicate (2 * level) ' '

/-- The parts of a collection, each on lines of its own; an empty collection stays on one line. -/
def enclosed (left right : Char) (level : Nat) (parts : List (List Char)) : List Char :=
  if parts.isEmpty then [left, right]
  else
    left :: [','].intercalate (parts.map fun part => newLine (level + 1) ++ part) ++
      newLine level ++ [right]

mutual

def chars (level : Nat) : JsonValue → List Char
  | .bool true => "true".toList
  | .bool false => "false".toList
  | .text value => quoted value
  | .list items => enclosed '[' ']' level (itemParts (level + 1) items)
  | .record members => enclosed '\x7b' '\x7d' level (memberParts (level + 1) members)

def itemParts (level : Nat) : List JsonValue → List (List Char)
  | [] => []
  | item :: rest => chars level item :: itemParts level rest

def memberParts (level : Nat) : List (String × JsonValue) → List (List Char)
  | [] => []
  | (name, value) :: rest =>
      (quoted name ++ [':', ' '] ++ chars level value) :: memberParts level rest

end

def written (value : JsonValue) : String := String.ofList (chars 0 value)

end JsonValue

end ContainerApplets
