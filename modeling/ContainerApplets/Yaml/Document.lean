import ContainerApplets.Yaml.Node
import ContainerApplets.Yaml.Scalar

/-!
A text holds one document or none. The document is a node without references: each of them is
replaced by the node that it refers to, and the number of replacements is limited.
-/

namespace ContainerApplets.Yaml

def standardHandles : List (String × String) := [("!", "!"), ("!!", "tag:yaml.org,2002:")]

structure Directives where
  hasVersion : Bool
  handles : List (String × String)

def readDirectives (directives : Directives) : List Token → Except Fault (Directives × List Token)
  | .version major minor :: rest =>
      if directives.hasVersion ∨ major ≠ 1 ∨ (minor ≠ 1 ∧ minor ≠ 2) then .error .structural
      else readDirectives { directives with hasVersion := true } rest
  | .tagHandle handle replacement :: rest =>
      if (directives.handles.lookup handle).isSome then .error .structural
      else readDirectives
        { directives with handles := (handle, replacement) :: directives.handles } rest
  | rest => .ok (directives, rest)

/-- After the node of a document there may be marks that end it, and nothing else. -/
def finishDocument (tokens : List Token) : Except Fault Unit :=
  if (tokens.dropWhile (· == .documentEnd)).isEmpty then .ok () else .error .severalDocuments

/-- The only document of a text, with its references, or nothing. -/
def readDocument (tokens : List Token) : Except Fault (Option Node) :=
  match tokens with
  | [] => .ok none
  | _ => do
      let (directives, rest) ← readDirectives ⟨false, []⟩ tokens
      let reader := fun tokens =>
        (⟨tokens, directives.handles ++ standardHandles, ⟨[], 0⟩⟩ : Reader)
      let marked := rest.head? == some .documentStart
      if rest.length < tokens.length ∧ !marked then throw .structural
      let body := reader (if marked then rest.tail else rest)
      let isEmpty := marked && (body.tokens.isEmpty ||
        body.seesAny [.documentStart, .documentEnd] ||
        (match body.head? with
          | some (.version ..) | some (.tagHandle ..) => true
          | _ => false))
      let (node, after) ←
        if isEmpty then pure (.absent, body) else readNode deepest .item body
      finishDocument after.tokens
      return some node

/-! ### References -/

mutual

/-- The anchored nodes in the order in which they begin. -/
def anchored : Node → List (Nat × Node)
  | .reference _ => []
  | .scalar anchor tag text isPlain =>
      anchor.toList.map fun number => (number, .scalar anchor tag text isPlain)
  | .list anchor tag items =>
      (anchor.toList.map fun number => (number, .list anchor tag items)) ++ anchoredItems items
  | .map anchor tag entries =>
      (anchor.toList.map fun number => (number, .map anchor tag entries)) ++
        anchoredEntries entries

def anchoredItems : List Node → List (Nat × Node)
  | [] => []
  | item :: rest => anchored item ++ anchoredItems rest

def anchoredEntries : List (Node × Node) → List (Nat × Node)
  | [] => []
  | (key, value) :: rest => anchored key ++ anchored value ++ anchoredEntries rest

end

mutual

/-- A collection counts twice, for its beginning and its end. -/
def nodeCount : Node → Nat
  | .reference _ | .scalar .. => 1
  | .list _ _ items => 2 + itemCount items
  | .map _ _ entries => 2 + entryCount entries

def itemCount : List Node → Nat
  | [] => 0
  | item :: rest => nodeCount item + itemCount rest

def entryCount : List (Node × Node) → Nat
  | [] => 0
  | (key, value) :: rest => nodeCount key + nodeCount value + entryCount rest

end

/-- What references can refer to, and how often they may be followed. -/
structure Targets where
  nodes : List (Nat × Node)
  limit : Nat

/-- Counts the references that were followed. -/
abbrev Counting := StateT Nat (Except Fault)

namespace Targets

/-- Of two nodes with one number the later counts. -/
def ofNode (node : Node) : Targets := ⟨(anchored node).reverse, 100 * nodeCount node⟩

def follow (targets : Targets) (number : Nat) : Counting Node := do
  let followed ← get
  if targets.limit < followed + 1 then throw .tooManyRepeats
  set (followed + 1)
  match targets.nodes.lookup number with
  | some node => return node
  | none => throw .unknownAnchor

/-- A node whose references are replaced; `inner` does the same for the nodes in it. In a mapping
under a tag of the document's own the keys lose their tags. -/
def resolveWith (targets : Targets) (inner : Option (Bool → Node → Counting Node))
    (underTag : Bool) (node : Node) : Counting Node := do
  let (node, underTag) ← match node with
    | .reference number => do
        let node ← targets.follow number
        pure (node, false)
    | node => pure (node, underTag)
  let keepTag := fun (tag : Option String) => if underTag then none else tag
  match node, inner with
  | .reference _, _ => throw .unknownAnchor
  | .scalar _ tag text isPlain, _ => return .scalar none (keepTag tag) text isPlain
  | .list _ tag items, some inner => return .list none (keepTag tag) (← items.mapM (inner false))
  | .map _ tag entries, some inner => do
      let keysUnderTag := underTag || tag.any Scalar.isLocalTag
      let entries ← entries.mapM fun entry => do
        let key ← inner keysUnderTag entry.1
        let value ← inner false entry.2
        return (key, value)
      return .map none (keepTag tag) entries
  | _, none => throw .tooDeep

def resolve (targets : Targets) : (depth : Nat) → Bool → Node → Counting Node
  | 0 => targets.resolveWith none
  | depth + 1 => targets.resolveWith (some (targets.resolve depth))

end Targets

def Node.standalone (node : Node) : Except Fault Node :=
  ((Targets.ofNode node).resolve deepest false node).run' 0

/-- The document of a text; a text without one has none. -/
def document? (text : String) : Except Fault (Option Node) := do
  match ← readDocument (← tokens text) with
  | none => return none
  | some node => return some (← node.standalone)

/-! ### Values -/

def underTag (tag : Option String) (value : Tree) : Tree :=
  match tag with
  | some tag => if Scalar.isLocalTag tag then .tagged (tagName tag) value else value
  | none => value

/-- The entries of a mapping, of which no two have the same key. -/
def distinctKeys : List (Tree × Tree) → Except Fault (List (Tree × Tree))
  | [] => .ok []
  | entry :: rest =>
      if rest.any fun other => entry.1.same other.1 then .error .duplicateKey
      else (entry :: ·) <$> distinctKeys rest

mutual

def Node.tree : Node → Except Fault Tree
  | .scalar _ tag text isPlain => underTag tag <$> Scalar.value tag text isPlain
  | .list _ tag items => do return underTag tag (.list (← itemTrees items))
  | .map _ tag entries => do return underTag tag (.map (← distinctKeys (← entryTrees entries)))
  | .reference _ => .error .unknownAnchor

def itemTrees : List Node → Except Fault (List Tree)
  | [] => .ok []
  | item :: rest => do return (← item.tree) :: (← itemTrees rest)

def entryTrees : List (Node × Node) → Except Fault (List (Tree × Tree))
  | [] => .ok []
  | (key, value) :: rest => do return (← key.tree, ← value.tree) :: (← entryTrees rest)

end

/-- The value of the document of a text. -/
def Tree.ofText (text : String) : Except Fault Tree := do
  match ← document? text with
  | none => return .null
  | some node => node.tree

end ContainerApplets.Yaml
