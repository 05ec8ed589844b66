import ContainerApplets.Yaml.Block

/-!
The tokens of a document. The structure of block collections is in the indentation, so tokens
without a text of their own open and close them. A key of one line is known as a key only at the
colon after it; its tokens are then put in at the place where it began.
-/

namespace ContainerApplets.Yaml

inductive Token
  | version (major minor : Nat)
  | tagHandle (handle replacement : String)
  | documentStart
  | documentEnd
  | sequenceStart
  | mappingStart
  | blockEnd
  | flowSequenceStart
  | flowSequenceEnd
  | flowMappingStart
  | flowMappingEnd
  | entry
  | flowEntry
  | key
  | value
  | alias (name : String)
  | anchor (name : String)
  /-- A tag whose escapes are no text counts as no tag. -/
  | tag (handle : String) (suffix : Option String)
  | scalar (text : String) (isPlain : Bool)
  deriving DecidableEq, Inhabited

/-! ### Tags and directives -/

def isUriChar (verbatim : Bool) (char : Char) : Bool :=
  isNameChar char || ";/?:@&=+$.%!~*'()".toList.contains char ||
    (verbatim && ",[]".toList.contains char)

def octet? (high low : Char) : Option UInt8 := (hexValue? [high, low]).map UInt8.ofNat

/-- The number of octets of a character, by the first of them. -/
def octetCount (octet : UInt8) : Nat :=
  if octet &&& 0x80 = 0 then 1
  else if octet &&& 0xE0 = 0xC0 then 2
  else if octet &&& 0xF0 = 0xE0 then 3
  else if octet &&& 0xF8 = 0xF0 then 4
  else 0

/-- The octets of a tag, escapes resolved. An escaped character has all its octets escaped;
`expected` of them are still to come. -/
def uriOctets (expected : Nat) : List Char → Except Fault (List UInt8)
  | [] => if expected = 0 then .ok [] else .error .lexical
  | '%' :: high :: low :: rest =>
      match octet? high low with
      | none => .error .lexical
      | some octet =>
          if expected = 0 then
            if octetCount octet = 0 then .error .lexical
            else (octet :: ·) <$> uriOctets (octetCount octet - 1) rest
          else if octet &&& 0xC0 = 0x80 then (octet :: ·) <$> uriOctets (expected - 1) rest
          else .error .lexical
  | char :: rest =>
      if expected ≠ 0 ∨ char = '%' then .error .lexical
      else (char.toString.toUTF8.toList ++ ·) <$> uriOctets 0 rest

/-- A tag is cut at an escaped NUL. -/
def uriText (octets : List UInt8) : Option String :=
  String.fromUTF8? ⟨(octets.takeWhile (· ≠ 0)).toArray⟩

/-- The part of a tag after its handle. -/
def scanUri (verbatim mayBeEmpty : Bool) (before : List Char) (cursor : Cursor) :
    Except Fault (Option String × Cursor) := do
  let (taken, after) := cursor.span (isUriChar verbatim)
  if taken.isEmpty ∧ !mayBeEmpty then throw .lexical
  let octets ← uriOctets 0 taken
  return (uriText ((String.ofList before).toUTF8.toList ++ octets), after)

/-- An exclamation mark, and a name and another mark if there are any. -/
def scanHandle (cursor : Cursor) : Except Fault (List Char × Cursor) :=
  if cursor.at? '!' then
    let (name, after) := cursor.next.span isNameChar
    if after.at? '!' then .ok ('!' :: name ++ ['!'], after.next) else .ok ('!' :: name, after)
  else .error .lexical

def scanTag (inFlow : Bool) (cursor : Cursor) : Except Fault (Token × Cursor) := do
  let (token, after) ←
    if cursor.next.at? '<' then do
      let (uri, after) ← scanUri true false [] (cursor.skip 2)
      if after.at? '>' then pure (Token.tag "" uri, after.next) else throw .lexical
    else do
      let (handle, after) ← scanHandle cursor
      if 1 < handle.length ∧ handle.getLast? = some '!' then
        let (suffix, after) ← scanUri false false [] after
        pure (Token.tag (String.ofList handle) suffix, after)
      else
        let (suffix, after) ← scanUri false true (handle.drop 1) after
        if suffix = some "" then pure (Token.tag "" (some "!"), after)
        else pure (Token.tag "!" suffix, after)
  if endsWord after.rest ∨ (inFlow ∧ after.at? ',') then return (token, after) else throw .lexical

def decimal? (digits : List Char) : Option Nat :=
  if digits.isEmpty ∨ 9 < digits.length then none
  else digits.foldlM (fun value char =>
    if char.isDigit then some (value * 10 + (char.toNat - '0'.toNat)) else none) 0

def scanVersion (cursor : Cursor) : Except Fault (Token × Cursor) :=
  let (major, afterMajor) := (cursor.skipWhile isSpace).span Char.isDigit
  let (minor, after) := afterMajor.next.span Char.isDigit
  match afterMajor.at? '.', decimal? major, decimal? minor with
  | true, some major, some minor => .ok (.version major minor, after)
  | _, _, _ => .error .lexical

def scanTagDirective (cursor : Cursor) : Except Fault (Token × Cursor) := do
  let (handle, afterHandle) ← scanHandle (cursor.skipWhile isSpace)
  if handle ≠ ['!'] ∧ (handle.length < 2 ∨ handle.getLast? ≠ some '!') then throw .lexical
  unless afterHandle.head?.any isSpace do throw .lexical
  let (replacement, after) ← scanUri true false [] (afterHandle.skipWhile isSpace)
  unless endsWord after.rest do throw .lexical
  return (.tagHandle (String.ofList handle) (replacement.getD ""), after)

def scanDirective (cursor : Cursor) : Except Fault (Token × Cursor) := do
  let (name, afterName) := cursor.next.span isNameChar
  unless endsWord afterName.rest do throw .lexical
  let (token, after) ←
    if name = "YAML".toList then scanVersion afterName
    else if name = "TAG".toList then scanTagDirective afterName
    else throw .lexical
  return (token, ← skipLineEnd after)

/-- The name of an anchor or of an alias, after its indicator. -/
def scanName (cursor : Cursor) : Except Fault (String × Cursor) :=
  let (name, after) := cursor.next.span isNameChar
  let ends := endsWord after.rest ∨ after.head?.any fun char =>
    "?:,]\x7d%@\x60".toList.contains char
  if name ≠ [] ∧ ends then
    .ok (String.ofList name, after)
  else .error .lexical

/-! ### The scan -/

/-- A token that may turn out to begin a key. It has to be one when it opens a line at the current
indentation. -/
structure KeyCandidate where
  required : Bool
  position : Nat
  mark : Mark

structure Scan where
  cursor : Cursor
  tokens : Array Token
  indent : Int
  /-- The indentations around the current one. -/
  outer : List Int
  keyAllowed : Bool
  /-- The candidate of each open collection in brackets, the innermost first, and last the one
  outside all brackets. -/
  candidates : List (Option KeyCandidate)

namespace Scan

def start (text : List Char) : Scan :=
  ⟨.start text, #[], -1, [], true, [none]⟩

def inFlow (scan : Scan) : Bool := 1 < scan.candidates.length

def column (scan : Scan) : Int := scan.cursor.column

def push (scan : Scan) (token : Token) : Scan := { scan with tokens := scan.tokens.push token }

def insert (scan : Scan) (position : Nat) (token : Token) : Scan :=
  { scan with tokens := scan.tokens.insertIdxIfInBounds position token }

/-- Blanks, comments and breaks before the next token. A tab counts as a blank only where no key
can begin. -/
def skipGap (inFlow keyAllowed : Bool) (mark : Mark) :
    (inComment : Bool) → List Char → Bool × Cursor
  | _, [] => (keyAllowed, ⟨mark, []⟩)
  | inComment, char :: rest =>
      let next := mark.after char
      if isBreak char then skipGap inFlow (keyAllowed || !inFlow) next false rest
      else if inComment || char == '#' then skipGap inFlow keyAllowed next true rest
      else if char == ' ' || (char == '\t' && (inFlow || !keyAllowed)) ||
          (char == '\uFEFF' && mark.index == 0) then
        skipGap inFlow keyAllowed next false rest
      else (keyAllowed, ⟨mark, char :: rest⟩)

def toToken (scan : Scan) : Scan :=
  let (keyAllowed, cursor) :=
    skipGap scan.inFlow scan.keyAllowed scan.cursor.mark false scan.cursor.rest
  { scan with keyAllowed := keyAllowed, cursor := cursor }

/-- A key stands on one line and is no longer than 1024 characters. -/
def isStale (mark : Mark) (candidate : KeyCandidate) : Bool :=
  candidate.mark.line < mark.line || candidate.mark.index + 1024 < mark.index

def dropStale (scan : Scan) : Except Fault Scan := do
  let candidates ← scan.candidates.mapM fun candidate? =>
    match candidate? with
    | none => .ok none
    | some candidate =>
        if isStale scan.cursor.mark candidate then
          if candidate.required then .error Fault.lexical else .ok none
        else .ok (some candidate)
  return { scan with candidates := candidates }

/-- Closes the block collections that are indented more than this column. -/
def unroll (column : Int) (scan : Scan) : Scan :=
  if scan.inFlow then scan
  else
    let closed := scan.outer.takeWhile (column < ·)
    if column < scan.indent then
      { scan with
        tokens := scan.tokens ++ Array.replicate (closed.length + 1) .blockEnd
        indent := (scan.outer.drop closed.length).headD (-1)
        outer := scan.outer.drop (closed.length + 1) }
    else scan

/-- Opens a block collection at this column, unless one is open there. -/
def roll (column : Int) (position : Nat) (token : Token) (scan : Scan) : Scan :=
  if !scan.inFlow ∧ scan.indent < column then
    { scan.insert position token with indent := column, outer := scan.indent :: scan.outer }
  else scan

def setCandidate (scan : Scan) (candidate : Option KeyCandidate) : Scan :=
  { scan with candidates := candidate :: scan.candidates.tail }

def dropCandidate (scan : Scan) : Except Fault Scan :=
  match scan.candidates.head?.join with
  | some candidate => if candidate.required then .error .lexical else .ok (scan.setCandidate none)
  | none => .ok scan

def saveCandidate (scan : Scan) : Except Fault Scan := do
  if scan.keyAllowed then
    let required := !scan.inFlow && scan.indent == scan.column
    return (← scan.dropCandidate).setCandidate
      (some ⟨required, scan.tokens.size, scan.cursor.mark⟩)
  else return scan

/-- Adds a token whose text is this many characters long. -/
def take (scan : Scan) (length : Nat) (token : Token) (keyAllowed : Bool) : Scan :=
  { scan.push token with cursor := scan.cursor.skip length, keyAllowed := keyAllowed }

/-- Adds a token that can begin a key. -/
def takeNode (scan : Scan) (read : Cursor → Except Fault (Token × Cursor)) : Except Fault Scan := do
  let scan ← scan.saveCandidate
  let (token, after) ← read scan.cursor
  return { scan.push token with cursor := after, keyAllowed := false }

def openFlow (scan : Scan) (token : Token) : Except Fault Scan := do
  let scan ← scan.saveCandidate
  return { scan.take 1 token true with candidates := none :: scan.candidates }

def closeFlow (scan : Scan) (token : Token) : Except Fault Scan := do
  let scan ← scan.dropCandidate
  let candidates := if scan.inFlow then scan.candidates.tail else scan.candidates
  return { scan.take 1 token false with candidates := candidates }

def takeEntry (scan : Scan) : Except Fault Scan := do
  if !scan.inFlow ∧ !scan.keyAllowed then throw .lexical
  let scan ← (scan.roll scan.column scan.tokens.size .sequenceStart).dropCandidate
  return scan.take 1 .entry true

def takeKey (scan : Scan) : Except Fault Scan := do
  if !scan.inFlow ∧ !scan.keyAllowed then throw .lexical
  let scan ← (scan.roll scan.column scan.tokens.size .mappingStart).dropCandidate
  return scan.take 1 .key (!scan.inFlow)

def takeValue (scan : Scan) : Except Fault Scan :=
  match scan.candidates.head?.join with
  | some candidate =>
      let keyed := (scan.insert candidate.position .key).roll candidate.mark.column
        candidate.position .mappingStart
      .ok ((keyed.setCandidate none).take 1 .value false)
  | none =>
      if !scan.inFlow ∧ !scan.keyAllowed then .error .lexical
      else .ok ((scan.roll scan.column scan.tokens.size .mappingStart).take 1 .value (!scan.inFlow))

def takeBlockScalar (scan : Scan) (literal : Bool) : Except Fault Scan := do
  let scan ← scan.dropCandidate
  let scanned ← scanBlock literal scan.indent scan.cursor.next
  return { scan.push (.scalar (String.ofList scanned.text) false) with
    cursor := scanned.after, keyAllowed := true }

def takePlain (scan : Scan) : Except Fault Scan := do
  let scan ← scan.saveCandidate
  let scanned ← scanPlain scan.inFlow (scan.indent + 1).toNat scan.cursor.mark .none
    scan.cursor.rest
  return { scan.push (.scalar (String.ofList scanned.text) true) with
    cursor := scanned.after, keyAllowed := scanned.brokeLine }

def readQuoted (scan : Mark → Gap → List Char → Except Fault Scanned) (cursor : Cursor) :
    Except Fault (Token × Cursor) := do
  let scanned ← scan cursor.next.mark .none cursor.next.rest
  return (.scalar (String.ofList scanned.text) false, scanned.after)

/-- Leaves all block collections before a line of the document itself. -/
def leaveBlocks (scan : Scan) : Except Fault Scan := do
  let scan ← (scan.unroll (-1)).dropCandidate
  return { scan with keyAllowed := false }

def cannotOpenPlain (char : Char) : Bool :=
  isSpace char || "-?:,[]\x7b\x7d#&*!|>'\"%@\x60".toList.contains char

/-- The next token, which begins with this character. -/
def takeToken (scan : Scan) (char : Char) (rest : List Char) : Except Fault Scan :=
  let ends := endsWord rest
  let text := scan.cursor.rest
  let atLineStart := scan.cursor.column == 0
  if atLineStart ∧ char = '%' then do
    let scan ← scan.leaveBlocks
    let (token, after) ← scanDirective scan.cursor
    return { scan.push token with cursor := after }
  else if atLineStart ∧ isDocumentMark '-' text then do
    return (← scan.leaveBlocks).take 3 .documentStart false
  else if atLineStart ∧ isDocumentMark '.' text then do
    return (← scan.leaveBlocks).take 3 .documentEnd false
  else if char = '[' then scan.openFlow .flowSequenceStart
  else if char = '\x7b' then scan.openFlow .flowMappingStart
  else if char = ']' then scan.closeFlow .flowSequenceEnd
  else if char = '\x7d' then scan.closeFlow .flowMappingEnd
  else if char = ',' then do return (← scan.dropCandidate).take 1 .flowEntry true
  else if char = '-' ∧ ends then scan.takeEntry
  else if char = '?' ∧ (scan.inFlow ∨ ends) then scan.takeKey
  else if char = ':' ∧ (scan.inFlow ∨ ends) then scan.takeValue
  else if char = '*' then
    scan.takeNode fun cursor => do
      let (name, after) ← scanName cursor
      return (.alias name, after)
  else if char = '&' then
    scan.takeNode fun cursor => do
      let (name, after) ← scanName cursor
      return (.anchor name, after)
  else if char = '!' then scan.takeNode (scanTag scan.inFlow)
  else if char = '|' ∧ !scan.inFlow then scan.takeBlockScalar true
  else if char = '>' ∧ !scan.inFlow then scan.takeBlockScalar false
  else if char = '\'' then scan.takeNode (readQuoted scanSingle)
  else if char = '"' then scan.takeNode (readQuoted scanDouble)
  else if !cannotOpenPlain char ∨ char = '-' ∨ (!scan.inFlow ∧ (char = '?' ∨ char = ':')) then
    scan.takePlain
  else .error .lexical

/-- Every token takes at least one character, so the scan ends. -/
def run (scan : Scan) : Except Fault (Array Token) := do
  let scan' ← scan.toToken.dropStale
  let ready := scan'.unroll scan'.column
  match ready.cursor.rest with
  | [] => return (← (ready.unroll (-1)).dropCandidate).tokens
  | char :: rest =>
      let next ← ready.takeToken char rest
      if next.cursor.rest.length < scan.cursor.rest.length then next.run else throw .lexical
  termination_by scan.cursor.rest.length

end Scan

def tokens (text : String) : Except Fault (List Token) :=
  if text.toList.all isAllowed then
    Array.toList <$> (Scan.start (unifyBreaks text.toList)).run
  else .error .forbidden

end ContainerApplets.Yaml
