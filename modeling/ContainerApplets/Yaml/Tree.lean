import ContainerApplets.Number.Binary64

/-!
The value of a document: scalars of five types, sequences, mappings in source order, and values
under a tag of the document's own.
-/

namespace ContainerApplets.Yaml

inductive Tree
  | null
  | bool (value : Bool)
  | int (value : Int)
  | float (value : Binary64)
  | text (value : String)
  | list (items : List Tree)
  | map (entries : List (Tree × Tree))
  | tagged (tag : String) (value : Tree)
  deriving Inhabited

/-- A leading exclamation mark says that a tag is the document's own and is not a part of its
name, unless it is all of it. -/
def tagName (tag : String) : String :=
  match tag.toList with
  | '!' :: first :: rest => String.ofList (first :: rest)
  | _ => tag

namespace Tree

/-- Two zeros are one number, and what is undefined equals itself. -/
def sameFloat : Binary64 → Binary64 → Bool
  | .finite _ 0 _, .finite _ 0 _ => true
  | left, right => left == right

mutual

/-- Two keys are the same key. An integer is never a float; the entries of a mapping have no
order. -/
def same : Tree → Tree → Bool
  | .null, .null => true
  | .bool left, .bool right => left == right
  | .int left, .int right => left == right
  | .float left, .float right => sameFloat left right
  | .text left, .text right => left == right
  | .list left, .list right => sameItems left right
  | .map left, .map right => left.length == right.length && entriesIn left right
  | .tagged leftTag left, .tagged rightTag right =>
      tagName leftTag == tagName rightTag && same left right
  | _, _ => false

def sameItems : List Tree → List Tree → Bool
  | [], [] => true
  | left :: leftRest, right :: rightRest => same left right && sameItems leftRest rightRest
  | _, _ => false

def entriesIn : List (Tree × Tree) → List (Tree × Tree) → Bool
  | [], _ => true
  | (key, value) :: rest, right =>
      (right.any fun entry => same key entry.1 && same value entry.2) && entriesIn rest right

end

mutual

/-- Rewrites every text of a tree except the keys of its mappings. -/
def mapText (rewrite : String → String) : Tree → Tree
  | .text value => .text (rewrite value)
  | .list items => .list (mapTextItems rewrite items)
  | .map entries => .map (mapTextEntries rewrite entries)
  | .tagged tag value => .tagged tag (mapText rewrite value)
  | .null => .null
  | .bool value => .bool value
  | .int value => .int value
  | .float value => .float value

def mapTextItems (rewrite : String → String) : List Tree → List Tree
  | [] => []
  | item :: rest => mapText rewrite item :: mapTextItems rewrite rest

def mapTextEntries (rewrite : String → String) : List (Tree × Tree) → List (Tree × Tree)
  | [] => []
  | (key, value) :: rest => (key, mapText rewrite value) :: mapTextEntries rewrite rest

end

theorem map_text_items_eq_map (rewrite : String → String) (items : List Tree) :
    mapTextItems rewrite items = items.map (mapText rewrite) := by
  induction items with
  | nil => rfl
  | cons item rest induction => simp [mapTextItems, induction]

theorem map_text_entries_eq_map (rewrite : String → String) (entries : List (Tree × Tree)) :
    mapTextEntries rewrite entries =
      entries.map fun entry => (entry.1, mapText rewrite entry.2) := by
  induction entries with
  | nil => rfl
  | cons entry rest induction => simp [mapTextEntries, induction]

def untagged : Tree → Tree
  | .tagged _ value => untagged value
  | value => value

/-- How a message speaks of the kind of a value. -/
def kind : Tree → String
  | .null => "null"
  | .bool _ => "a boolean"
  | .int _ | .float _ => "a number"
  | .text _ => "a string"
  | .list _ => "a sequence"
  | .map _ => "a mapping"
  | .tagged .. => "a tagged value"

end Tree

end ContainerApplets.Yaml
