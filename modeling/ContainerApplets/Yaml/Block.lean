import ContainerApplets.Yaml.Flowing

/-!
Block scalars: lines at one indentation, kept as they are or folded like flowing text.
-/

namespace ContainerApplets.Yaml

/-- What happens to the breaks at the end of a block scalar. -/
inductive Chomping
  | strip
  | clip
  | keep
  deriving DecidableEq

structure BlockHeader where
  literal : Bool
  chomping : Chomping
  /-- The indentation relative to the parent, where it is given. -/
  increment : Option Nat
  deriving DecidableEq

def chomping? (char : Char) : Option Chomping :=
  if char = '+' then some .keep else if char = '-' then some .strip else none

/-- The indicators after the one that opens a block scalar, in either order. -/
def scanBlockIndicators (cursor : Cursor) : Except Fault (Chomping × Option Nat × Cursor) :=
  let increment := fun (cursor : Cursor) => match cursor.head? with
    | some char =>
        if char = '0' then .error Fault.lexical
        else if char.isDigit then .ok (some (char.toNat - '0'.toNat), cursor.next)
        else .ok (none, cursor)
    | none => .ok (none, cursor)
  match cursor.head?.bind chomping? with
  | some chomping => do
      let (width, after) ← increment cursor.next
      return (chomping, width, after)
  | none => do
      let (width, after) ← increment cursor
      match width, after.head?.bind chomping? with
      | some _, some chomping => return (chomping, width, after.next)
      | _, _ => return (.clip, width, after)

/-- The rest of a line that may hold a comment, and its break. -/
def skipLineEnd (cursor : Cursor) : Except Fault Cursor :=
  let blank := cursor.skipWhile isSpace
  let comment := if blank.at? '#' then blank.skipWhile (fun char => !isBreak char) else blank
  match comment.rest with
  | [] => .ok comment
  | char :: _ => if isBreak char then .ok comment.next else .error .lexical

/-- Finds the indentation of the first line that is not empty; the empty lines before it may be
indented less. -/
def detectIndent (least : Nat) (mark : Mark) (widest : Nat) : List Char → Except Fault Nat
  | [] => .ok (max least (max widest mark.column))
  | char :: rest =>
      let widest := max widest mark.column
      if char = ' ' then detectIndent least (mark.after char) widest rest
      else if char = '\t' then .error .lexical
      else if isBreak char then detectIndent least (mark.after char) widest rest
      else .ok (max least widest)

/-- Where the scan of a block scalar is: in a line, or between lines. -/
structure BlockState where
  inLine : Bool
  /-- The break that ended the last line. -/
  ending : List Char
  /-- The breaks of empty lines after it. -/
  empty : List Char
  /-- The last line began with a blank. -/
  blankBefore : Bool

/-- A folded break between two lines that begin with no blank becomes a space or nothing. -/
def BlockState.join (state : BlockState) (literal blankHere : Bool) : List Char :=
  if !literal ∧ state.ending = ['\n'] ∧ !state.blankBefore ∧ !blankHere then
    (if state.empty.isEmpty then [' '] else []) ++ state.empty
  else state.ending ++ state.empty

def BlockState.finish (state : BlockState) : Chomping → List Char
  | .strip => []
  | .clip => state.ending
  | .keep => state.ending ++ state.empty

def scanBlockLines (header : BlockHeader) (indent : Nat) (mark : Mark) (state : BlockState) :
    List Char → Except Fault Scanned
  | [] => .ok ⟨state.finish header.chomping, ⟨mark, []⟩⟩
  | char :: rest =>
      let next := mark.after char
      if state.inLine then
        if isBreak char then
          scanBlockLines header indent next
            { state with inLine := false, ending := [char], empty := [] } rest
        else (scanBlockLines header indent next state rest).map (Scanned.prepend [char])
      else if char = ' ' ∧ mark.column < indent then
        scanBlockLines header indent next state rest
      else if char = '\t' ∧ mark.column < indent then .error .lexical
      else if isBreak char then
        scanBlockLines header indent next { state with empty := state.empty ++ [char] } rest
      else if mark.column = indent then
        (scanBlockLines header indent next ⟨true, [], [], isSpace char⟩ rest).map
          (Scanned.prepend (state.join header.literal (isSpace char) ++ [char]))
      else .ok ⟨state.finish header.chomping, ⟨mark, char :: rest⟩⟩

/-- A block scalar after the character that opens it. -/
def scanBlock (literal : Bool) (parentIndent : Int) (cursor : Cursor) : Except Fault Scanned := do
  let (chomping, increment, afterIndicators) ← scanBlockIndicators cursor
  let body ← skipLineEnd afterIndicators
  let least := max 1 (parentIndent + 1).toNat
  let indent ← match increment with
    | some width => pure ((max parentIndent 0).toNat + width)
    | none => detectIndent least body.mark 0 body.rest
  scanBlockLines ⟨literal, chomping, increment⟩ indent body.mark ⟨false, [], [], false⟩ body.rest

end ContainerApplets.Yaml
