import ContainerApplets.Yaml.Token

/-!
The nodes of a document, read from its tokens: scalars, sequences, mappings and references to
anchored nodes. How deep collections may stand inside each other is limited.
-/

namespace ContainerApplets.Yaml

/-- Tags are resolved. An anchor has a number; a reference gives the number of its anchor. -/
inductive Node
  | scalar (anchor : Option Nat) (tag : Option String) (text : String) (isPlain : Bool)
  | list (anchor : Option Nat) (tag : Option String) (items : List Node)
  | map (anchor : Option Nat) (tag : Option String) (entries : List (Node × Node))
  | reference (anchor : Nat)
  deriving Inhabited

def Node.absent : Node := .scalar none none "" true

/-- The names of anchors with their numbers, the latest first. A name that is used again gets a
new number, which is how many different names there were before. -/
structure Anchors where
  numbers : List (String × Nat)
  names : Nat

namespace Anchors

def number? (anchors : Anchors) (name : String) : Option Nat := anchors.numbers.lookup name

def add (anchors : Anchors) (name : String) : Anchors :=
  { numbers := (name, anchors.names) :: anchors.numbers
    names := if (anchors.number? name).isSome then anchors.names else anchors.names + 1 }

end Anchors

/-- The tokens still to be read, with what they refer to. -/
structure Reader where
  tokens : List Token
  handles : List (String × String)
  anchors : Anchors

namespace Reader

def head? (reader : Reader) : Option Token := reader.tokens.head?

def next (reader : Reader) : Reader := { reader with tokens := reader.tokens.tail }

def sees (reader : Reader) (token : Token) : Bool := reader.head? == some token

def seesAny (reader : Reader) (tokens : List Token) : Bool := tokens.any reader.sees

end Reader

/-- What a step of a loop has read, or nothing at the end of the loop. -/
abbrev Step (Item : Type) := Reader → Except Fault (Option Item × Reader)

/-- Repeats a step until it reads nothing. A step that reads an item takes a token. -/
def readMany {Item : Type} (step : Step Item) (reader : Reader) :
    Except Fault (List Item × Reader) := do
  match ← step reader with
  | (none, after) => return ([], after)
  | (some item, after) =>
      if after.tokens.length < reader.tokens.length then
        let (items, after) ← readMany step after
        return (item :: items, after)
      else throw .structural
  termination_by reader.tokens.length

/-- Where a node stands: whether block collections may begin there, and whether a sequence may
stand at the indentation of its key. -/
structure Place where
  block : Bool
  atKey : Bool
  deriving DecidableEq

namespace Place

def flow : Place := ⟨false, false⟩

def item : Place := ⟨true, false⟩

def keyed : Place := ⟨true, true⟩

end Place

abbrev ReadNode := Place → Reader → Except Fault (Node × Reader)

/-- A node, or an absent one before one of these tokens. The end of the tokens is no such token,
and no node begins there either. -/
def readOptional (readNode : ReadNode) (place : Place) (enders : List Token) (reader : Reader) :
    Except Fault (Node × Reader) :=
  if reader.seesAny enders then .ok (.absent, reader) else readNode place reader

/-! ### Collections -/

def readBlockItem (readNode : ReadNode) : Step Node := fun reader => do
  if reader.sees .entry then
    let (node, after) ← readOptional readNode .item [.entry, .blockEnd] reader.next
    return (some node, after)
  else if reader.sees .blockEnd then return (none, reader.next)
  else throw .structural

/-- An item of a sequence at the indentation of its key, which no token closes. -/
def readItemAtKey (readNode : ReadNode) : Step Node := fun reader => do
  if reader.sees .entry then
    let (node, after) ←
      readOptional readNode .item [.entry, .key, .value, .blockEnd] reader.next
    return (some node, after)
  else return (none, reader)

def readBlockEntry (readNode : ReadNode) : Step (Node × Node) := fun reader => do
  let enders : List Token := [.key, .value, .blockEnd]
  if reader.sees .blockEnd then return (none, reader.next)
  unless reader.sees .key do throw .structural
  let (key, afterKey) ← readOptional readNode .keyed enders reader.next
  let (value, after) ←
    if afterKey.sees .value then readOptional readNode .keyed enders afterKey.next
    else pure (.absent, afterKey)
  return (some (key, value), after)

/-- Passes the comma before every part of a collection in brackets but the first; a comma may also
stand before the closing bracket. -/
def passComma (first : Bool) (closing : Token) (reader : Reader) : Except Fault Reader :=
  if first ∨ reader.sees closing then .ok reader
  else if reader.sees .flowEntry then .ok reader.next
  else .error .structural

/-- A mapping of one entry that stands without braces in a sequence in brackets. A key that is
not there takes the token after the indicator with it. -/
def readPair (readNode : ReadNode) (reader : Reader) : Except Fault (Node × Reader) := do
  let (key, afterKey) ←
    if reader.seesAny [.value, .flowEntry, .flowSequenceEnd] then pure (.absent, reader.next)
    else readNode .flow reader
  let (value, after) ←
    if afterKey.sees .value then
      readOptional readNode .flow [.flowEntry, .flowSequenceEnd] afterKey.next
    else pure (.absent, afterKey)
  return (.map none none [(key, value)], after)

def readFlowItem (readNode readPair : Reader → Except Fault (Node × Reader)) (first : Bool) :
    Step Node := fun reader => do
  let reader ← passComma first .flowSequenceEnd reader
  if reader.sees .flowSequenceEnd then return (none, reader.next)
  let (node, after) ← if reader.sees .key then readPair reader.next else readNode reader
  return (some node, after)

def readFlowEntry (readNode : ReadNode) (first : Bool) : Step (Node × Node) := fun reader => do
  let reader ← passComma first .flowMappingEnd reader
  if reader.sees .flowMappingEnd then return (none, reader.next)
  if reader.sees .key then
    let (key, afterKey) ←
      readOptional readNode .flow [.value, .flowEntry, .flowMappingEnd] reader.next
    let (value, after) ←
      if afterKey.sees .value then
        readOptional readNode .flow [.flowEntry, .flowMappingEnd] afterKey.next
      else pure (.absent, afterKey)
    return (some (key, value), after)
  else
    let (key, after) ← readNode .flow reader
    return (some (key, .absent), after)

/-- The first part of a collection in brackets and the ones after it. -/
def readFlow {Item : Type} (step : Bool → Step Item) (reader : Reader) :
    Except Fault (List Item × Reader) := do
  match ← step true reader with
  | (none, after) => return ([], after)
  | (some item, after) =>
      let (items, after) ← readMany (step false) after
      return (item :: items, after)

/-! ### Nodes -/

structure Properties where
  anchor : Option Nat
  /-- No tag, or one whose escapes may be no text. -/
  tag : Option (Option String)

namespace Properties

def tagText (properties : Properties) : Option String := properties.tag.join

/-- The tag of a scalar that is written down; a lone exclamation mark says nothing there. -/
def scalarTag (properties : Properties) : Option String :=
  if properties.tagText = some "!" then none else properties.tagText

def isEmpty (properties : Properties) : Bool :=
  properties.anchor.isNone && properties.tag.isNone

end Properties

/-- An anchor and a tag, in either order. -/
def readAnchor (reader : Reader) : Option Nat × Reader :=
  match reader.head? with
  | some (.anchor name) =>
      (some reader.anchors.names, { reader.next with anchors := reader.anchors.add name })
  | _ => (none, reader)

def readTag (reader : Reader) : Except Fault (Option (Option String) × Reader) :=
  match reader.head? with
  | some (.tag handle suffix) =>
      if handle.isEmpty then .ok (some suffix, reader.next)
      else match reader.handles.lookup handle with
        | some replacement => .ok (some (suffix.map (replacement ++ ·)), reader.next)
        | none => .error .structural
  | _ => .ok (none, reader)

def readProperties (reader : Reader) : Except Fault (Properties × Reader) := do
  let (anchor, afterAnchor) := readAnchor reader
  let (tag, afterTag) ← readTag afterAnchor
  match anchor with
  | some _ => return (⟨anchor, tag⟩, afterTag)
  | none =>
      let (anchor, after) := if tag.isSome then readAnchor afterTag else (none, afterTag)
      return (⟨anchor, tag⟩, after)

/-- A node, where `inner` reads the nodes in a collection unless the limit is reached. -/
def readNodeWith (inner : Option ReadNode) : ReadNode := fun place reader => do
  if let some (.alias name) := reader.head? then
    match reader.anchors.number? name with
    | some number => return (.reference number, reader.next)
    | none => throw .unknownAnchor
  let (properties, reader) ← readProperties reader
  let list := fun (read : ReadNode → Except Fault (List Node × Reader)) => do
    let (items, after) ← (inner.map read).getD (.error Fault.tooDeep)
    return (Node.list properties.anchor properties.tagText items, after)
  let map := fun (read : ReadNode → Except Fault (List (Node × Node) × Reader)) => do
    let (entries, after) ← (inner.map read).getD (.error Fault.tooDeep)
    return (Node.map properties.anchor properties.tagText entries, after)
  match reader.head? with
  | some (.scalar text isPlain) =>
      return (.scalar properties.anchor properties.scalarTag text isPlain, reader.next)
  | some .flowSequenceStart =>
      list fun readNode =>
        readFlow (readFlowItem (readNode .flow) (readPair readNode)) reader.next
  | some .flowMappingStart => map fun readNode => readFlow (readFlowEntry readNode) reader.next
  | some .entry =>
      if place.atKey then list fun readNode => readMany (readItemAtKey readNode) reader
      else if properties.isEmpty then throw .structural
      else return (.scalar properties.anchor properties.tagText "" true, reader)
  | some .sequenceStart =>
      if place.block then list fun readNode => readMany (readBlockItem readNode) reader.next
      else if properties.isEmpty then throw .structural
      else return (.scalar properties.anchor properties.tagText "" true, reader)
  | some .mappingStart =>
      if place.block then map fun readNode => readMany (readBlockEntry readNode) reader.next
      else if properties.isEmpty then throw .structural
      else return (.scalar properties.anchor properties.tagText "" true, reader)
  | _ =>
      if properties.isEmpty then throw .structural
      else return (.scalar properties.anchor properties.tagText "" true, reader)

def readNode : (depth : Nat) → ReadNode
  | 0 => readNodeWith none
  | depth + 1 => readNodeWith (some (readNode depth))

/-- How deep collections may stand inside each other. -/
def deepest : Nat := 128

end ContainerApplets.Yaml
