import ContainerApplets.Text.Visible

/-!
Text as it is shown inside a message: in double quotes, with escapes for what a reader could not
see or could mistake. Lists of texts are shown in square brackets.
-/

namespace ContainerApplets.Text

def hexDigit (value : Nat) : Char := Char.ofNat (if value < 10 then 48 + value else 87 + value)

/-- Hexadecimal digits without leading zeros. -/
def hexDigits (value : Nat) : List Char :=
  if value < 16 then [hexDigit value]
  else hexDigits (value / 16) ++ [hexDigit (value % 16)]
  termination_by value
  decreasing_by exact Nat.div_lt_self (by omega) (by decide)

/-- A character that extends the one before it would merge with the text around it, so it is
escaped like an invisible one. -/
def quotedChar (char : Char) : List Char :=
  if char = '\x00' then ['\\', '0']
  else if char = '\t' then ['\\', 't']
  else if char = '\n' then ['\\', 'n']
  else if char = '\r' then ['\\', 'r']
  else if char = '"' then ['\\', '"']
  else if char = '\\' then ['\\', '\\']
  else if extendsPrevious char || isInvisible char then
    "\\u\x7b".toList ++ hexDigits char.toNat ++ "\x7d".toList
  else [char]

def quoted (text : String) : String :=
  String.ofList ('"' :: text.toList.flatMap quotedChar ++ ['"'])

def quotedList (texts : List String) : String :=
  "[" ++ ", ".intercalate (texts.map quoted) ++ "]"

end ContainerApplets.Text
