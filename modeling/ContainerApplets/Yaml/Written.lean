import ContainerApplets.Text.Quoted
import ContainerApplets.Yaml.Cursor
import ContainerApplets.Yaml.Scalar

/-!
Documents as they are written: block collections, two spaces to a level, and for each text the
first style in which it reads back as itself.
-/

namespace ContainerApplets.Yaml.Written

/-! ### The style of a text -/

inductive Style
  | plain
  | single
  | double
  | literal
  deriving DecidableEq

def isPrintable (char : Char) : Bool :=
  let code := char.toNat
  char == '\n' || (0x20 ≤ code && code ≤ 0x7E) || (0xA0 ≤ code && code ≤ 0xD7FF) ||
    (0xE000 ≤ code && code ≤ 0xFFFD && code != 0xFEFF) || 0x10000 ≤ code

/-- A blank, any kind of break, or NUL. -/
def isGap (char : Char) : Bool :=
  isSpace char || isBreak char || char == '\r' || char == '\u0085' || char == '\x00'

def hasPair (text : List Char) (first second : Char → Bool) : Bool :=
  (text.zip text.tail).any fun pair => first pair.1 && second pair.2

/-- The character is followed by a gap or by nothing. -/
def beforeGap (char : Char) (text : List Char) : Bool :=
  hasPair text (· == char) isGap || text.getLast? == some char

def startsWith (text : List Char) (start : String) : Bool := start.toList.isPrefixOf text

/-- The text begins with, or holds, something that has a meaning of its own. -/
def hasIndicator (text : List Char) : Bool :=
  let opens := text.head?.any fun char => "#,[]\x7b\x7d&*!|>'\"%@\x60".toList.contains char
  let marks := text.head?.any fun char =>
    ['?', ':', '-'].contains char && (text.tail.head?.all isGap)
  startsWith text "---" || startsWith text "..." || opens || marks || beforeGap ':' text ||
    hasPair text isGap (· == '#')

def breaksAfterSpace (text : List Char) : Bool := hasPair text (· == ' ') isBreak

def spacesAfterBreak (text : List Char) : Bool := hasPair text isBreak (· == ' ')

def isUnprintable (text : List Char) : Bool := text.any (!isPrintable ·)

def needsEscapes (text : List Char) : Bool := breaksAfterSpace text || isUnprintable text

def endsIn (text : List Char) (belongs : Char → Bool) : Bool := text.getLast?.any belongs

def beginsWith (text : List Char) (belongs : Char → Bool) : Bool := text.head?.any belongs

def allowsPlain (text : List Char) : Bool :=
  let edge := fun (char : Char) => char == ' ' || isBreak char
  !(needsEscapes text || beginsWith text edge || endsIn text edge || text.any isBreak ||
    hasIndicator text)

def allowsSingle (text : List Char) : Bool := !(needsEscapes text || spacesAfterBreak text)

def allowsLiteral (text : List Char) : Bool := !(needsEscapes text || endsIn text (· == ' '))

/-- A plain scalar of this text would be read as something else, or is a number by its look. -/
def looksTyped (text : String) : Bool :=
  match Scalar.plain text with
  | .ok (.text _) => Scalar.hasLeadingZero text.toList
  | _ => true

def style (text : String) : Style :=
  let chars := text.toList
  if chars.contains '\n' then if allowsLiteral chars then .literal else .double
  else if !looksTyped text && allowsPlain chars then .plain
  else if allowsSingle chars then .single
  else .double

/-! ### Texts -/

def spaces (count : Nat) : List Char := List.replicate count ' '

/-- A quote is written twice, and a line goes on at the indentation. -/
def singleBody (indent : Nat) (broken : Bool) : List Char → List Char
  | [] => if broken then spaces indent else []
  | char :: rest =>
      if isBreak char then char :: singleBody indent true rest
      else
        let start := if broken then spaces indent else []
        let written := if char = '\'' then ['\'', '\''] else [char]
        start ++ written ++ singleBody indent false rest

def upperHexDigits (width value : Nat) : List Char :=
  let digits := (Text.hexDigits value).map Char.toUpper
  List.replicate (width - digits.length) '0' ++ digits

def escapeName? (char : Char) : Option Char :=
  match char with
  | '\x00' => some '0'
  | '\x07' => some 'a'
  | '\x08' => some 'b'
  | '\t' => some 't'
  | '\n' => some 'n'
  | '\x0B' => some 'v'
  | '\x0C' => some 'f'
  | '\r' => some 'r'
  | '\x1B' => some 'e'
  | '"' => some '"'
  | '\\' => some '\\'
  | '\u0085' => some 'N'
  | '\u2028' => some 'L'
  | '\u2029' => some 'P'
  | _ => none

def escape (char : Char) : List Char :=
  match escapeName? char with
  | some letter => ['\\', letter]
  | none =>
      let code := char.toNat
      if isPrintable char then [char]
      else if code ≤ 0xFF then '\\' :: 'x' :: upperHexDigits 2 code
      else if code ≤ 0xFFFF then '\\' :: 'u' :: upperHexDigits 4 code
      else '\\' :: 'U' :: upperHexDigits 8 code

/-- What the reader of a literal text has to be told: an indentation that its first line does not
show, and what becomes of the breaks at its end. -/
def literalHints (text : List Char) : List Char :=
  let indent := if beginsWith text fun char => char == ' ' || isBreak char then ['2'] else []
  let chomping := match text.reverse with
    | [] => ['-']
    | [last] => if isBreak last then ['+'] else ['-']
    | last :: before :: _ => if !isBreak last then ['-'] else if isBreak before then ['+'] else []
  indent ++ chomping

/-- The lines of a literal text; empty ones have no indentation. -/
def literalBody (indent : Nat) (broken : Bool) : List Char → List Char
  | [] => []
  | char :: rest =>
      if isBreak char then char :: literalBody indent true rest
      else (if broken then spaces indent else []) ++ char :: literalBody indent false rest

/-- A text and the end of its line, at the indentation of what belongs to it. -/
def scalar (indent : Nat) (text : String) : List Char :=
  let chars := text.toList
  match style text with
  | .plain => chars ++ ['\n']
  | .single => '\'' :: singleBody indent false chars ++ ['\'', '\n']
  | .double => '"' :: chars.flatMap escape ++ ['"', '\n']
  | .literal =>
      '|' :: literalHints chars ++ '\n' :: literalBody indent true chars ++
        (if endsIn chars isBreak then [] else ['\n'])

/-! ### Records -/

inductive Value
  | text (value : String)
  | records (items : List (List (String × String)))

/-- One field, without what stands before it on its line. -/
def field (indent : Nat) (entry : String × String) : List Char :=
  entry.1.toList ++ [':', ' '] ++ scalar (indent + 2) entry.2

/-- A record in a list: a hyphen before its first field, and the others below it. -/
def record (fields : List (String × String)) : List Char :=
  match fields with
  | [] => "- \x7b\x7d\n".toList
  | first :: rest =>
      ['-', ' '] ++ field 2 first ++ rest.flatMap fun entry => spaces 2 ++ field 2 entry

def entry (key : String) : Value → List Char
  | .text value => field 0 (key, value)
  | .records [] => key.toList ++ ": []\n".toList
  | .records items => key.toList ++ ":\n".toList ++ items.flatMap record

/-- A document: a mapping of texts and of lists of records. -/
def document (entries : List (String × Value)) : String :=
  String.ofList (entries.flatMap fun item => entry item.1 item.2)

end ContainerApplets.Yaml.Written
