import ContainerApplets.Proofs.Checked
import ContainerApplets.Proofs.Template.Trees
import Mathlib.Data.List.Forall2

/-!
What a fragment is made of does not hang on the texts of its values. Rewriting the texts of a tree
and then decoding it comes to the same as decoding it and then rewriting the texts of the document,
so the variables of an environment can change what a value says and nothing else.
-/

namespace ContainerApplets

open Yaml

/-! ### Computations that succeed together -/

/-- The changed computation succeeds exactly if the plain one does, and with the changed value. The
reasons for which they are refused may differ. -/
def Follows {Cause Value Other : Type} (change : Value → Other) (plain : Except Cause Value)
    (changed : Except Cause Other) : Prop :=
  changed.toOption = plain.toOption.map change

namespace Follows

variable {Cause Value Other Item NextValue NextOther : Type} {change : Value → Other}
  {plain : Except Cause Value} {changed : Except Cause Other}

theorem accepted (value : Value) :
    Follows change (.ok value : Except Cause Value) (.ok (change value)) := rfl

theorem accepted_of_eq {value : Value} {other : Other} (same : other = change value) :
    Follows change (.ok value : Except Cause Value) (.ok other) := congrArg some same

theorem refused (first second : Cause) :
    Follows change (.error first : Except Cause Value) (.error second) := rfl

/-- Both are refused, or both are accepted. -/
theorem outcomes (follows : Follows change plain changed) :
    (∃ first second, plain = .error first ∧ changed = .error second) ∨
    ∃ value, plain = .ok value ∧ changed = .ok (change value) := by
  cases plain with
  | error first =>
      cases changed with
      | error second => exact .inl ⟨first, second, rfl, rfl⟩
      | ok other => exact nomatch follows
  | ok value =>
      cases changed with
      | error second => exact nomatch follows
      | ok other => exact .inr ⟨value, rfl, congrArg Except.ok (Option.some.inj follows)⟩

/-- Two computations that follow one succeed together, with two changes of one value. -/
theorem together {otherChange : Value → Other} {first second : Except Cause Other}
    (left : Follows change plain first) (right : Follows otherChange plain second) :
    (∃ cause other, first = .error cause ∧ second = .error other) ∨
    ∃ value, first = .ok (change value) ∧ second = .ok (otherChange value) := by
  rcases left.outcomes with ⟨_, cause, rfl, rfl⟩ | ⟨value, rfl, rfl⟩
  · rcases right.outcomes with ⟨_, other, _, rfl⟩ | ⟨_, accepted, _⟩
    · exact .inl ⟨cause, other, rfl, rfl⟩
    · exact nomatch accepted
  · rcases right.outcomes with ⟨_, _, refused, _⟩ | ⟨same, accepted, rfl⟩
    · exact nomatch refused
    · cases accepted
      exact .inr ⟨value, rfl, rfl⟩

theorem bind {nextChange : NextValue → NextOther} {next : Value → Except Cause NextValue}
    {changedNext : Other → Except Cause NextOther} (follows : Follows change plain changed)
    (later : ∀ value, Follows nextChange (next value) (changedNext (change value))) :
    Follows nextChange (plain >>= next) (changed >>= changedNext) := by
  rcases follows.outcomes with ⟨first, second, rfl, rfl⟩ | ⟨value, rfl, rfl⟩
  · exact refused first second
  · exact later value

theorem map {nextChange : NextValue → NextOther} {finish : Value → NextValue}
    {changedFinish : Other → NextOther} (follows : Follows change plain changed)
    (later : ∀ value, changedFinish (change value) = nextChange (finish value)) :
    Follows nextChange (finish <$> plain) (changedFinish <$> changed) := by
  rcases follows.outcomes with ⟨first, second, rfl, rfl⟩ | ⟨value, rfl, rfl⟩
  · exact refused first second
  · exact congrArg some (later value)

theorem map_error {OtherCause : Type} (follows : Follows change plain changed)
    (reword : Cause → OtherCause) :
    Follows change (plain.mapError reword) (changed.mapError reword) := by
  rcases follows.outcomes with ⟨first, second, rfl, rfl⟩ | ⟨value, rfl, rfl⟩
  · exact refused (reword first) (reword second)
  · exact accepted value

theorem each {recast : Item → Item} {read : Item → Except Cause Value}
    {changedRead : Item → Except Cause Other}
    (reads : ∀ item, Follows change (read item) (changedRead (recast item))) (items : List Item) :
    Follows (List.map change) (items.mapM read) ((items.map recast).mapM changedRead) := by
  induction items with
  | nil => exact accepted []
  | cons item rest induction =>
      rw [List.map_cons, List.mapM_cons, List.mapM_cons]
      exact (reads item).bind fun value => induction.bind fun values => accepted (value :: values)

theorem fold {change : Value → Value} {recast : Item → Item}
    {step : Value → Item → Except Cause Value}
    (steps : ∀ value item, Follows change (step value item) (step (change value) (recast item)))
    (items : List Item) (value : Value) :
    Follows change (items.foldlM step value) ((items.map recast).foldlM step (change value)) := by
  induction items generalizing value with
  | nil => exact accepted value
  | cons item rest induction =>
      rw [List.map_cons, List.foldlM_cons, List.foldlM_cons]
      exact (steps value item).bind induction

end Follows

/-! ### Values of a tree -/

namespace Yaml.Tree

variable (rewrite : String → String)

theorem untagged_map_text (tree : Tree) :
    (tree.mapText rewrite).untagged = tree.untagged.mapText rewrite := by
  fun_induction untagged tree with
  | case1 tag value induction => simpa only [mapText, untagged] using induction
  | case2 value plain =>
      cases value with
      | tagged tag inner => exact absurd rfl (plain tag inner)
      | _ => rfl

theorem as_text_follows (tree : Tree) :
    Follows rewrite tree.asText (tree.mapText rewrite).asText := by
  rw [asText, asText, untagged_map_text]
  cases tree.untagged <;> rfl

theorem as_switch_follows (tree : Tree) :
    Follows id tree.asSwitch (tree.mapText rewrite).asSwitch := by
  rw [asSwitch, asSwitch, untagged_map_text]
  cases tree.untagged <;> rfl

theorem as_texts_follows (tree : Tree) :
    Follows (List.map rewrite) tree.asTexts (tree.mapText rewrite).asTexts := by
  rw [asTexts, asTexts, untagged_map_text]
  cases tree.untagged with
  | list items =>
      simp only [mapText, map_text_items_eq_map]
      exact Follows.each (as_text_follows rewrite) items
  | _ => rfl

theorem as_optional_follows {Value : Type} {change : Value → Value}
    {read : Tree → Except String Value}
    (reads : ∀ tree, Follows change (read tree) (read (tree.mapText rewrite))) (tree : Tree) :
    Follows (Option.map change) (tree.asOptional read)
      ((tree.mapText rewrite).asOptional read) := by
  cases tree with
  | null => exact Follows.accepted none
  | _ => exact (reads _).map fun _ => rfl

end Yaml.Tree

namespace Yaml.RecordForm

variable {Setting Record : Type} {form : RecordForm Setting Record} {change : Record → Record}
  {rewrite : String → String}

theorem read_entry_follows
    (sets : ∀ record setting tree, Follows change (form.set record setting tree)
      (form.set (change record) setting (tree.mapText rewrite)))
    (state : List String × Record) (entry : Tree × Tree) :
    Follows (Prod.map id change) (form.readEntry state entry)
      (form.readEntry (Prod.map id change state) (entry.1, entry.2.mapText rewrite)) := by
  rw [readEntry, readEntry]
  -- Keys are not rewritten, so both select the same setting, and both have seen the same keys.
  cases entry.1.untagged with
  | text key =>
      simp only [ok_bind, pure_eq_ok]
      cases form.setting? key with
      | none => rfl
      | some setting =>
          by_cases seen : key ∈ state.1
          · simp [Prod.map, seen, Follows.refused]
          · simpa [Prod.map, seen] using (sets state.2 setting entry.2).bind fun record =>
              Follows.accepted (key :: state.1, record)
  | _ => rfl

theorem read_follows {unset : Record} (fixed : change unset = unset)
    (sets : ∀ record setting tree, Follows change (form.set record setting tree)
      (form.set (change record) setting (tree.mapText rewrite))) (tree : Tree) :
    Follows change (form.read unset tree) (form.read unset (tree.mapText rewrite)) := by
  rw [read, read, Tree.untagged_map_text]
  cases tree.untagged with
  | map entries =>
      simp only [Tree.mapText, Tree.map_text_entries_eq_map]
      have folded := Follows.fold (read_entry_follows sets) entries ([], unset)
      rw [Prod.map, fixed] at folded
      exact folded.map fun _ => rfl
  | null => exact congrArg some fixed.symm
  | _ => rfl

end Yaml.RecordForm

/-! ### Documents with their texts rewritten -/

def AppletFragment.mapText (rewrite : String → String) (fragment : AppletFragment) :
    AppletFragment where
  appletName := fragment.appletName.map rewrite
  text := fun field => (fragment.text field).map rewrite
  switch := fragment.switch
  list := fun field => (fragment.list field).map rewrite
  hooks := fun side => (fragment.hooks side).map rewrite
  command := fragment.command.map (List.map rewrite)

def ResourceFragment.mapText (rewrite : String → String) (fragment : ResourceFragment) :
    ResourceFragment :=
  ⟨fragment.name.map rewrite, fragment.driver.map rewrite⟩

/-- The names of entries are keys and stay. -/
def FragmentDocument.mapText (rewrite : String → String) (document : FragmentDocument) :
    FragmentDocument where
  applets := document.applets.map fun _ => AppletFragment.mapText rewrite
  volumes := document.volumes.map fun _ => ResourceFragment.mapText rewrite
  networks := document.networks.map fun _ => ResourceFragment.mapText rewrite
  ignored := document.ignored.map rewrite

variable {rewrite : String → String}

theorem assign_map {Field Value : Type} [DecidableEq Field] (change : Value → Value)
    (values : Field → Value) (field : Field) (value : Value) :
    assign (fun other => change (values other)) field (change value) =
      fun other => change (assign values field value other) := by
  funext other
  simp only [assign, apply_ite change]

theorem AppletFragment.of_tree_follows (tree : Tree) :
    Follows (mapText rewrite) (ofTree tree) (ofTree (tree.mapText rewrite)) := by
  refine RecordForm.read_follows rfl (fun fragment setting tree => ?_) tree
  have text := Tree.as_optional_follows rewrite (Tree.as_text_follows rewrite) tree
  have switch := Tree.as_optional_follows rewrite (Tree.as_switch_follows rewrite) tree
  have texts := Tree.as_texts_follows rewrite tree
  have command := Tree.as_optional_follows rewrite (Tree.as_texts_follows rewrite) tree
  cases setting with
  | appletName => exact text.bind fun value => .accepted _
  | text field =>
      exact text.bind fun value => .accepted_of_eq (by simp only [mapText, assign_map])
  | switch field =>
      exact switch.bind fun value => .accepted_of_eq (by simp only [mapText, Option.map_id, id])
  | list field =>
      exact texts.bind fun value => .accepted_of_eq (by simp only [mapText, assign_map])
  | hooks side =>
      exact texts.bind fun value => .accepted_of_eq (by simp only [mapText, assign_map])
  | command => exact command.bind fun value => .accepted _

theorem ResourceFragment.of_tree_follows (tree : Tree) :
    Follows (mapText rewrite) (ofTree tree) (ofTree (tree.mapText rewrite)) := by
  refine RecordForm.read_follows rfl (fun fragment setting tree => ?_) tree
  have text := Tree.as_optional_follows rewrite (Tree.as_text_follows rewrite) tree
  cases setting with
  | name => exact text.bind fun value => .accepted _
  | driver => exact text.bind fun value => .accepted _

/-! ### Sections and documents -/

namespace Catalog

variable {Value Other : Type} (change : Value → Other)

theorem map_insert (catalog : Catalog Value) (name : String) (value : Value) :
    (catalog.insert name value).map (fun _ => change) =
      (catalog.map fun _ => change).insert name (change value) := by
  apply ext_get
  intro other
  rw [get_map, get_insert, get_insert, get_map]
  split <;> rfl

theorem map_of_list (entries : List (String × Value)) :
    (ofList entries).map (fun _ => change) = ofList (entries.map (Prod.map id change)) := by
  have folded (catalog : Catalog Value) :
      (entries.foldl (fun catalog entry => catalog.insert entry.1 entry.2) catalog).map
          (fun _ => change) =
        (entries.map (Prod.map id change)).foldl
          (fun catalog entry => catalog.insert entry.1 entry.2) (catalog.map fun _ => change) := by
    induction entries generalizing catalog with
    | nil => rfl
    | cons entry rest induction =>
        rw [List.foldl_cons, induction, map_insert]
        rfl
  exact folded empty

end Catalog

section Sections

variable {Value : Type} {change : Value → Value} {read : Tree → Except String Value}

theorem decode_entry_follows (origin part : String)
    (reads : ∀ tree, Follows change (read tree) (read (tree.mapText rewrite)))
    (entry : Tree × Tree) :
    Follows (Prod.map id change) (decodeEntry origin part read entry)
      (decodeEntry origin part read (entry.1, entry.2.mapText rewrite)) := by
  rw [decodeEntry, decodeEntry]
  cases entryName origin part entry.1 with
  | error failure => rfl
  | ok name =>
      exact ((reads entry.2).map_error _).bind fun value => .accepted (name, value)

theorem decode_entries_follows (origin part : String)
    (reads : ∀ tree, Follows change (read tree) (read (tree.mapText rewrite))) (tree : Tree) :
    Follows (Catalog.map fun _ => change) (decodeEntries origin part read tree)
      (decodeEntries origin part read (tree.mapText rewrite)) := by
  cases tree with
  | map entries =>
      simp only [Tree.mapText, Tree.map_text_entries_eq_map]
      exact (Follows.each (decode_entry_follows origin part reads) entries).map
        fun values => (Catalog.map_of_list change values).symm
  | _ => rfl

end Sections

namespace FragmentDocument

theorem set_section_follows (origin : String) (document : FragmentDocument) (part : Section)
    (tree : Tree) :
    Follows (mapText rewrite) (document.setSection origin part tree)
      ((document.mapText rewrite).setSection origin part (tree.mapText rewrite)) := by
  have applets := decode_entries_follows origin part.key
    (@AppletFragment.of_tree_follows rewrite) tree
  have resources := decode_entries_follows origin part.key
    (@ResourceFragment.of_tree_follows rewrite) tree
  have ignored := (Tree.as_texts_follows rewrite tree).map_error
    (Failure.invalid origin part.key)
  cases part with
  | applets => exact applets.bind fun value => .accepted { document with applets := value }
  | volumes => exact resources.bind fun value => .accepted { document with volumes := value }
  | networks => exact resources.bind fun value => .accepted { document with networks := value }
  | ignored => exact ignored.bind fun value => .accepted { document with ignored := value }

theorem read_section_follows (origin : String) (document : FragmentDocument)
    (entry : Tree × Tree) :
    Follows (mapText rewrite) (readSection origin document entry)
      (readSection origin (document.mapText rewrite) (entry.1, entry.2.mapText rewrite)) := by
  obtain ⟨key, tree⟩ := entry
  cases key with
  | text key =>
      simp only [readSection]
      cases section? key with
      | none => rfl
      | some part => exact set_section_follows origin document part tree
  | _ => rfl

/-- Decoding a tree whose texts have been rewritten gives the document with its texts rewritten. -/
theorem of_tree_follows (origin : String) (tree : Tree) :
    Follows (mapText rewrite) (ofTree origin tree) (ofTree origin (tree.mapText rewrite)) := by
  cases tree with
  | map entries =>
      simp only [Tree.mapText, Tree.map_text_entries_eq_map]
      exact Follows.fold (read_section_follows origin) entries empty
  | _ => rfl

end FragmentDocument

/-! ### Fragments that differ in texts only -/

/-- The same settings are set, every switch is the same and every list has as many elements. -/
structure AppletFragment.SameShape (left right : AppletFragment) : Prop where
  appletName : left.appletName.isSome = right.appletName.isSome
  text : ∀ field, (left.text field).isSome = (right.text field).isSome
  switch : left.switch = right.switch
  list : ∀ field, (left.list field).length = (right.list field).length
  hooks : ∀ side, (left.hooks side).length = (right.hooks side).length
  command : left.command.map List.length = right.command.map List.length

structure ResourceFragment.SameShape (left right : ResourceFragment) : Prop where
  name : left.name.isSome = right.name.isSome
  driver : left.driver.isSome = right.driver.isSome

/-- The same names stand for values that are alike. -/
def Catalog.Alike {Value : Type} (alike : Value → Value → Prop) (left right : Catalog Value) :
    Prop :=
  List.Forall₂ (fun first second => first.1 = second.1 ∧ alike first.2 second.2) left.entries
    right.entries

/-- Two documents differ at most in the texts of their values. -/
structure FragmentDocument.SameShape (left right : FragmentDocument) : Prop where
  applets : left.applets.Alike AppletFragment.SameShape right.applets
  volumes : left.volumes.Alike ResourceFragment.SameShape right.volumes
  networks : left.networks.Alike ResourceFragment.SameShape right.networks
  ignored : left.ignored.length = right.ignored.length

theorem AppletFragment.map_text_same_shape (first second : String → String)
    (fragment : AppletFragment) : (fragment.mapText first).SameShape (fragment.mapText second) where
  appletName := by simp [mapText]
  text := by simp [mapText]
  switch := rfl
  list := by simp [mapText]
  hooks := by simp [mapText]
  command := by simp [mapText, Function.comp_def]

theorem ResourceFragment.map_text_same_shape (first second : String → String)
    (fragment : ResourceFragment) :
    (fragment.mapText first).SameShape (fragment.mapText second) where
  name := by simp [mapText]
  driver := by simp [mapText]

theorem Catalog.map_alike {Value : Type} {alike : Value → Value → Prop}
    {first second : Value → Value}
    (always : ∀ value, alike (first value) (second value)) (catalog : Catalog Value) :
    (catalog.map fun _ => first).Alike alike (catalog.map fun _ => second) := by
  rw [Alike, map, map, List.forall₂_map_left_iff, List.forall₂_map_right_iff, List.forall₂_same]
  intro entry _
  exact ⟨rfl, always entry.2⟩

theorem FragmentDocument.map_text_same_shape (first second : String → String)
    (document : FragmentDocument) :
    (document.mapText first).SameShape (document.mapText second) where
  applets := Catalog.map_alike (AppletFragment.map_text_same_shape first second) _
  volumes := Catalog.map_alike (ResourceFragment.map_text_same_shape first second) _
  networks := Catalog.map_alike (ResourceFragment.map_text_same_shape first second) _
  ignored := by simp [mapText]

namespace Fragment

theorem of_tree_follows (origin : String) (lookup : Environment) (tree : Tree) :
    Follows (fun document => ⟨origin, document.mapText (expand lookup)⟩)
      (FragmentDocument.ofTree origin tree) (ofTree origin lookup tree) := by
  rcases (@FragmentDocument.of_tree_follows (expand lookup) origin tree).outcomes with
    ⟨first, second, plain, changed⟩ | ⟨document, plain, changed⟩
  · rw [plain, ofTree, Tree.expand_texts_eq, changed]
    exact Follows.refused first second
  · rw [plain, ofTree, Tree.expand_texts_eq, changed]
    exact Follows.accepted document

/-- The values of variables have no say in what a fragment is made of. A text is a fragment in every
environment or in none, and all that an environment does to it is to expand the texts of its values;
names of entries, what is set, switches and the lengths of lists are those of the text. -/
theorem environments_keep_shape (origin text : String) (left right : Environment) :
    (∃ first second, ofText origin left text = .error first ∧
      ofText origin right text = .error second) ∨
    ∃ document : FragmentDocument,
      ofText origin left text = .ok ⟨origin, document.mapText (expand left)⟩ ∧
      ofText origin right text = .ok ⟨origin, document.mapText (expand right)⟩ ∧
      (document.mapText (expand left)).SameShape (document.mapText (expand right)) := by
  simp only [ofText]
  cases Tree.ofText text with
  | error fault => exact .inl ⟨_, _, rfl, rfl⟩
  | ok tree =>
      -- Neither environment is compared with the other: both follow the tree as it is written.
      rcases (of_tree_follows origin left tree).together (of_tree_follows origin right tree) with
        refused | ⟨document, accepted, again⟩
      · exact .inl refused
      · exact .inr ⟨document, accepted, again, document.map_text_same_shape _ _⟩

end Fragment

end ContainerApplets
