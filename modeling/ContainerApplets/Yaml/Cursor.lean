import ContainerApplets.Yaml.Fault

/-!
A place in a text. Line breaks of one character are all read alike, except that the separators of
lines and of paragraphs stay what they are; so a text is brought to one break per line first.
-/

namespace ContainerApplets.Yaml

def isBreak (char : Char) : Bool := char == '\n' || char == '\u2028' || char == '\u2029'

def isSpace (char : Char) : Bool := char == ' ' || char == '\t'

/-- A character that may stand in a document. -/
def isAllowed (char : Char) : Bool :=
  let code := char.toNat
  char == '\t' || char == '\n' || char == '\r' || (0x20 ≤ code && code ≤ 0x7E) || code == 0x85 ||
    (0xA0 ≤ code && code ≤ 0xD7FF) || (0xE000 ≤ code && code ≤ 0xFFFD) || 0x10000 ≤ code

/-- Every break becomes a line feed, except the separators of lines and paragraphs. -/
def unifyBreaks : List Char → List Char
  | '\r' :: '\n' :: rest => '\n' :: unifyBreaks rest
  | char :: rest =>
      (if char = '\r' ∨ char = '\u0085' then '\n' else char) :: unifyBreaks rest
  | [] => []

structure Mark where
  index : Nat
  line : Nat
  column : Nat
  deriving DecidableEq, Inhabited

def Mark.after (mark : Mark) (char : Char) : Mark :=
  if isBreak char then ⟨mark.index + 1, mark.line + 1, 0⟩
  else ⟨mark.index + 1, mark.line, mark.column + 1⟩

structure Cursor where
  mark : Mark
  rest : List Char
  deriving Inhabited

namespace Cursor

def start (text : List Char) : Cursor := ⟨⟨0, 0, 0⟩, text⟩

def head? (cursor : Cursor) : Option Char := cursor.rest.head?

def column (cursor : Cursor) : Nat := cursor.mark.column

def next (cursor : Cursor) : Cursor :=
  match cursor.rest with
  | [] => cursor
  | char :: rest => ⟨cursor.mark.after char, rest⟩

def skip (cursor : Cursor) : (count : Nat) → Cursor
  | 0 => cursor
  | count + 1 => cursor.next.skip count

/-- Moves past the characters of a class and gives them. -/
def span (cursor : Cursor) (belongs : Char → Bool) : List Char × Cursor :=
  let taken := cursor.rest.takeWhile belongs
  (taken, cursor.skip taken.length)

def skipWhile (cursor : Cursor) (belongs : Char → Bool) : Cursor := (cursor.span belongs).2

def at? (cursor : Cursor) (char : Char) : Bool := cursor.head? == some char

end Cursor

/-- A blank, a break or the end follows. -/
def endsWord : List Char → Bool
  | [] => true
  | char :: _ => isSpace char || isBreak char

/-- A line that begins or ends a document. -/
def isDocumentMark (indicator : Char) : List Char → Bool
  | first :: second :: third :: rest =>
      first == indicator && second == indicator && third == indicator && endsWord rest
  | _ => false

def isDocumentLine (mark : Mark) (text : List Char) : Bool :=
  mark.column == 0 && (isDocumentMark '-' text || isDocumentMark '.' text)

/-- A letter, a digit, a hyphen or an underscore. -/
def isNameChar (char : Char) : Bool := char.isAlphanum || char == '-' || char == '_'

end ContainerApplets.Yaml
