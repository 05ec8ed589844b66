import ContainerApplets.Fragment.Decode
import ContainerApplets.Proofs.Template.Escaping

/-!
Variables in trees. Every text that is a value is expanded, wherever it stands, and nothing else of
the tree changes; the texts that are passed over because they hold no dollar sign stand for
themselves.
-/

namespace ContainerApplets

theorem expand_marked_eq (lookup : Environment) : expandMarked lookup = expand lookup := by
  funext text
  unfold expandMarked
  split
  · rfl
  · next unmarked =>
    rw [expand, Template.expand_undollared (by simpa using unmarked), String.ofList_toList]

theorem Yaml.Tree.expand_texts_eq (lookup : Environment) (tree : Tree) :
    tree.expandTexts lookup = tree.mapText (expand lookup) := by
  rw [expandTexts, expand_marked_eq]

namespace Yaml

/-! ### Places in a tree -/

/-- From a value to one inside of it. -/
inductive Inward
  | item (index : Nat)
  | entry (index : Nat)
  | content

/-- What a value says without the values inside of it. Keys are not inside: a mapping says them all,
in their order. -/
inductive Label
  | null
  | bool (value : Bool)
  | int (value : Int)
  | float (value : Binary64)
  | text (value : String)
  | list (length : Nat)
  | map (keys : List Tree)
  | tagged (tag : String)

def Label.mapText (rewrite : String → String) : Label → Label
  | .text value => .text (rewrite value)
  | other => other

namespace Tree

variable {tree left right : Tree}

def label : Tree → Label
  | .null => .null
  | .bool value => .bool value
  | .int value => .int value
  | .float value => .float value
  | .text value => .text value
  | .list items => .list items.length
  | .map entries => .map (entries.map Prod.fst)
  | .tagged tag _ => .tagged tag

def inside? : Tree → Inward → Option Tree
  | .list items, .item index => items[index]?
  | .map entries, .entry index => entries[index]?.map Prod.snd
  | .tagged _ value, .content => some value
  | _, _ => none

def at? (tree : Tree) : List Inward → Option Tree
  | [] => some tree
  | step :: rest => (tree.inside? step).bind fun value => value.at? rest

def labelAt? (tree : Tree) (way : List Inward) : Option Label := (tree.at? way).map label

theorem label_at_step (tree : Tree) (step : Inward) (rest : List Inward) :
    tree.labelAt? (step :: rest) = (tree.inside? step).bind fun value => value.labelAt? rest := by
  rw [labelAt?, at?, Option.map_bind]
  rfl

/-! ### Rewriting -/

theorem label_map_text (rewrite : String → String) (tree : Tree) :
    (tree.mapText rewrite).label = tree.label.mapText rewrite := by
  cases tree with
  | list items => simp [mapText, label, Label.mapText, map_text_items_eq_map]
  | map entries => simp [mapText, label, Label.mapText, map_text_entries_eq_map, Function.comp_def]
  | _ => rfl

theorem inside_map_text (rewrite : String → String) (tree : Tree) (step : Inward) :
    (tree.mapText rewrite).inside? step = (tree.inside? step).map (mapText rewrite) := by
  cases tree with
  | list items => cases step <;> simp [mapText, inside?, map_text_items_eq_map]
  | map entries =>
      cases step <;> simp [mapText, inside?, map_text_entries_eq_map, Function.comp_def]
  | tagged tag value => cases step <;> rfl
  | _ => rfl

/-- Going inward and rewriting can be done in either order. -/
theorem at_map_text (rewrite : String → String) (tree : Tree) (way : List Inward) :
    (tree.mapText rewrite).at? way = (tree.at? way).map (mapText rewrite) := by
  induction way generalizing tree with
  | nil => rfl
  | cons step rest induction =>
      rw [at?, at?, inside_map_text, Option.bind_map, Option.map_bind]
      congr 1
      funext value
      exact induction value

theorem label_at_map_text (rewrite : String → String) (tree : Tree) (way : List Inward) :
    (tree.mapText rewrite).labelAt? way = (tree.labelAt? way).map (Label.mapText rewrite) := by
  rw [labelAt?, labelAt?, at_map_text, Option.map_map, Option.map_map]
  congr 1
  funext value
  exact label_map_text rewrite value

/-! ### What determines a tree -/

theorem labels_inside (same : ∀ way, left.labelAt? way = right.labelAt? way) (step : Inward)
    {first second : Tree} (inLeft : left.inside? step = some first)
    (inRight : right.inside? step = some second) (way : List Inward) :
    first.labelAt? way = second.labelAt? way := by
  have further := same (step :: way)
  rw [label_at_step, label_at_step, inLeft, inRight] at further
  exact further

theorem sizeOf_value_lt {entries : List (Tree × Tree)} {entry : Tree × Tree}
    (member : entry ∈ entries) : sizeOf entry.2 < sizeOf (map entries) := by
  have whole := List.sizeOf_lt_of_mem member
  obtain ⟨key, value⟩ := entry
  simp only [Prod.mk.sizeOf_spec, map.sizeOf_spec] at whole ⊢
  omega

/-- Trees that say the same at every place are the same tree. -/
theorem ext_labels (left : Tree) {right : Tree}
    (same : ∀ way, left.labelAt? way = right.labelAt? way) : left = right := by
  have top : left.label = right.label := Option.some.inj (same [])
  -- The recursion goes into the values of the left tree.
  match left with
  | .list items =>
      cases right with
      | list others =>
          have long : items.length = others.length := by simpa [label] using top
          congr 1
          apply List.ext_getElem long
          intro index here there
          have smaller : sizeOf items[index] < sizeOf (list items) := by
            have part := List.sizeOf_lt_of_mem (List.getElem_mem here)
            simp only [list.sizeOf_spec]
            omega
          apply ext_labels
          exact labels_inside same (.item index) (List.getElem?_eq_getElem here)
            (List.getElem?_eq_getElem there)
      | _ => cases top
  | .map entries =>
      cases right with
      | map others =>
          have keys : entries.map Prod.fst = others.map Prod.fst := by simpa [label] using top
          have long : entries.length = others.length := by simpa using congrArg List.length keys
          congr 1
          apply List.ext_getElem long
          intro index here there
          have smaller := sizeOf_value_lt (List.getElem_mem here)
          apply Prod.ext
          · simpa [here, there] using congrArg (·[index]?) keys
          · apply ext_labels
            exact labels_inside same (.entry index) (by simp [inside?, here])
              (by simp [inside?, there])
      | _ => cases top
  | .tagged tag value =>
      cases right with
      | tagged other content =>
          cases top
          congr 1
          apply ext_labels
          exact labels_inside same .content rfl rfl
      | _ => cases top
  | .null | .bool _ | .int _ | .float _ | .text _ =>
      cases right <;> cases top
      rfl
  termination_by left
  decreasing_by
    · exact smaller
    · exact smaller
    · simp only [tagged.sizeOf_spec]
      omega

/-- Expanding the texts of a tree gives the one tree that says the same at every place, but for the
texts among its values: each of them says its expansion, also where it is not read because it holds
no dollar sign. What is inside of the new tree is what was inside of the old one, expanded. -/
theorem expand_texts_iff (lookup : Environment) (tree : Tree) :
    (∀ text, expandMarked lookup text = expand lookup text) ∧
    (∀ way, (tree.expandTexts lookup).at? way = (tree.at? way).map (expandTexts lookup)) ∧
    ∀ other, other = tree.expandTexts lookup ↔
      ∀ way, other.labelAt? way = (tree.labelAt? way).map (Label.mapText (expand lookup)) := by
  refine ⟨congrFun (expand_marked_eq lookup), at_map_text (expandMarked lookup) tree, ?_⟩
  intro other
  rw [expand_texts_eq]
  constructor
  · intro same way
    rw [same, label_at_map_text]
  · intro labels
    apply ext_labels
    intro way
    rw [labels, label_at_map_text]

/-- A key stays as it is, and so does what looks like a variable in a tag. -/
example :
    (Tree.map [(.text "$A", .list [.text "$A", .tagged "!$A" (.text "b$A"), .null])]).expandTexts
      (fun _ => some "x") =
      .map [(.text "$A", .list [.text "x", .tagged "!$A" (.text "bx"), .null])] := by
  cbv

end Tree

end Yaml

end ContainerApplets
