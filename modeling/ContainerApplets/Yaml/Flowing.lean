import ContainerApplets.Yaml.Cursor

/-!
Scalars that flow over lines: quoted ones and plain ones. Blanks inside a line are kept, blanks
around a break are dropped, and a single break becomes a space.
-/

namespace ContainerApplets.Yaml

/-- Blanks and breaks that stand between two parts of a scalar. -/
inductive Gap
  | none
  | blanks (text : List Char)
  /-- The first break and the ones after it. An escaped break is empty. -/
  | breaks (first more : List Char)
  deriving DecidableEq

namespace Gap

def addBlank (gap : Gap) (char : Char) : Gap :=
  match gap with
  | none => blanks [char]
  | blanks text => blanks (text ++ [char])
  | breaks first more => breaks first more

def addBreak (gap : Gap) (char : Char) : Gap :=
  match gap with
  | breaks first more => breaks first (more ++ [char])
  | _ => breaks [char] []

/-- What the gap becomes when a scalar goes on after it. -/
def join : Gap → List Char
  | none => []
  | blanks text => text
  | breaks first more =>
      if first ≠ ['\n'] then first ++ more else if more.isEmpty then [' '] else more

def isBreaks : Gap → Bool
  | breaks .. => true
  | _ => false

end Gap

/-- The text of a scalar and the place after it. -/
structure Scanned where
  text : List Char
  after : Cursor

def Scanned.prepend (before : List Char) (scanned : Scanned) : Scanned :=
  { scanned with text := before ++ scanned.text }

/-- The rest of a scalar in single quotes, in which a quote is written twice. -/
def scanSingle (mark : Mark) (gap : Gap) : List Char → Except Fault Scanned
  | [] => .error .lexical
  | char :: rest =>
      let next := mark.after char
      if isSpace char then scanSingle next (gap.addBlank char) rest
      else if isBreak char then scanSingle next (gap.addBreak char) rest
      else if isDocumentLine mark (char :: rest) then .error .lexical
      else if char = '\'' then
        match rest with
        | '\'' :: more =>
            (scanSingle (next.after '\'') .none more).map (Scanned.prepend (gap.join ++ ['\'']))
        | _ => .ok ⟨gap.join, ⟨next, rest⟩⟩
      else (scanSingle next .none rest).map (Scanned.prepend (gap.join ++ [char]))

def hexValue? (text : List Char) : Option Nat :=
  text.foldlM (fun value char =>
    if char.isDigit then some (value * 16 + (char.toNat - '0'.toNat))
    else if 'a' ≤ char ∧ char ≤ 'f' then some (value * 16 + (char.toNat - 'a'.toNat + 10))
    else if 'A' ≤ char ∧ char ≤ 'F' then some (value * 16 + (char.toNat - 'A'.toNat + 10))
    else none) 0

def charOf? (code : Nat) : Option Char :=
  if valid : code.isValidChar then some (Char.ofNatAux code valid) else none

/-- What a character after a backslash stands for, when it stands alone. -/
def escaped? (char : Char) : Option Char :=
  match char with
  | '0' => some '\x00'
  | 'a' => some '\x07'
  | 'b' => some '\x08'
  | 't' | '\t' => some '\t'
  | 'n' => some '\n'
  | 'v' => some '\x0B'
  | 'f' => some '\x0C'
  | 'r' => some '\r'
  | 'e' => some '\x1B'
  | ' ' => some ' '
  | '"' => some '"'
  | '/' => some '/'
  | '\\' => some '\\'
  | 'N' => some '\u0085'
  | '_' => some '\u00A0'
  | 'L' => some '\u2028'
  | 'P' => some '\u2029'
  | _ => none

/-- The number of hexadecimal digits after a backslash and this character. -/
def escapeWidth (char : Char) : Nat :=
  match char with
  | 'x' => 2
  | 'u' => 4
  | 'U' => 8
  | _ => 0

/-- The character that an escape after a backslash stands for, and how long the escape is. -/
def readEscape (char : Char) (rest : List Char) : Except Fault (Char × Nat) :=
  match escaped? char with
  | some meaning => .ok (meaning, 1)
  | none =>
      let width := escapeWidth char
      let digits := rest.take width
      if width = 0 ∨ digits.length < width then .error .lexical
      else match (hexValue? digits).bind charOf? with
        | some meaning => .ok (meaning, width + 1)
        | none => .error .lexical

/-- The rest of a scalar in double quotes. -/
def scanDouble (mark : Mark) (gap : Gap) (text : List Char) : Except Fault Scanned :=
  match text with
  | [] => .error .lexical
  | char :: rest =>
      let next := mark.after char
      if isSpace char then scanDouble next (gap.addBlank char) rest
      else if isBreak char then scanDouble next (gap.addBreak char) rest
      else if isDocumentLine mark (char :: rest) then .error .lexical
      else if char = '"' then .ok ⟨gap.join, ⟨next, rest⟩⟩
      else if char = '\\' then
        match rest with
        | [] => .error .lexical
        | second :: more =>
            if isBreak second then
              (scanDouble (next.after second) (.breaks [] []) more).map (Scanned.prepend gap.join)
            else
              match readEscape second more with
              | .error fault => .error fault
              | .ok (meaning, length) =>
                  (scanDouble (Cursor.skip ⟨next, rest⟩ length).mark .none
                    (more.drop (length - 1))).map (Scanned.prepend (gap.join ++ [meaning]))
      else (scanDouble next .none rest).map (Scanned.prepend (gap.join ++ [char]))
  termination_by text.length
  decreasing_by all_goals simp_wf <;> omega

def isFlowIndicator (char : Char) : Bool := [',', '[', ']', '\x7b', '\x7d'].contains char

/-- A plain scalar, and whether a break stands before the place after it. -/
structure PlainScanned extends Scanned where
  brokeLine : Bool

def PlainScanned.prepend (before : List Char) (scanned : PlainScanned) : PlainScanned :=
  { scanned with text := before ++ scanned.text }

/-- The rest of a plain scalar. Outside flow collections it ends at a line that is indented less
than `indent`; a comment needs a blank before it. -/
def scanPlain (inFlow : Bool) (indent : Nat) (mark : Mark) (gap : Gap) :
    List Char → Except Fault PlainScanned
  | [] => .ok ⟨⟨[], ⟨mark, []⟩⟩, gap.isBreaks⟩
  | char :: rest =>
      let next := mark.after char
      let stop : PlainScanned := ⟨⟨[], ⟨mark, char :: rest⟩⟩, gap.isBreaks⟩
      if isSpace char then
        if char = '\t' ∧ gap.isBreaks ∧ mark.column < indent then .error .lexical
        else scanPlain inFlow indent next (gap.addBlank char) rest
      else if isBreak char then scanPlain inFlow indent next (gap.addBreak char) rest
      else if gap ≠ .none ∧ ((!inFlow ∧ mark.column < indent) ∨ char = '#' ∨
          isDocumentLine mark (char :: rest)) then .ok stop
      else if inFlow ∧ char = ':' ∧
          (rest.head?.any fun second => isFlowIndicator second || second == '?') then
        .error .lexical
      else if (char = ':' ∧ endsWord rest) ∨ (inFlow ∧ isFlowIndicator char) then .ok stop
      else (scanPlain inFlow indent next .none rest).map
        (PlainScanned.prepend (gap.join ++ [char]))

end ContainerApplets.Yaml
