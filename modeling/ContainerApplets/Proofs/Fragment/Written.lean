import ContainerApplets.Fragment.Decode
import ContainerApplets.Fragment.Encode
import ContainerApplets.Proofs.Checked

/-!
The written form of a document is read back as the document. A record is known by the values that
are written for its settings, and reading such a value sets its setting and no other.
-/

namespace ContainerApplets

open Yaml

/-! ### Records -/

namespace Yaml.RecordForm

variable {Setting Record : Type} {form : RecordForm Setting Record}

theorem read_entry_eq_ok {seen : List String} {record next : Record} {setting : Setting}
    {tree : Tree} (known : form.setting? (form.key setting) = some setting)
    (fresh : form.key setting ∉ seen) (set : form.set record setting tree = .ok next) :
    form.readEntry (seen, record) (.text (form.key setting), tree) =
      .ok (form.key setting :: seen, next) := by
  simp [readEntry, Tree.untagged, known, fresh, set]

variable [DecidableEq Setting]

/-- How records are written fits the form: the settings have keys of their own, a written value is
read into its setting, and a record is known by what is written of it. -/
structure Reads (form : RecordForm Setting Record) (value : Record → Setting → Option Tree)
    (unset : Record) : Prop where
  complete : ∀ setting, setting ∈ form.settings
  distinct : form.settings.Nodup
  keys : ∀ setting, form.setting? (form.key setting) = some setting
  nothing : ∀ setting, value unset setting = none
  set : ∀ source record setting tree, value source setting = some tree →
    ∃ next, form.set record setting tree = .ok next ∧
      value next = assign (value record) setting (some tree)
  determined : ∀ left right, value left = value right → left = right

variable {value : Record → Setting → Option Tree} {unset : Record}

/-- What has been read so far is kept, and what is written for the settings is added to it. -/
theorem Reads.entries (reads : form.Reads value unset) (source : Record) {settings : List Setting}
    (distinct : settings.Nodup) (seen : List String) (record : Record)
    (fresh : ∀ setting ∈ settings, form.key setting ∉ seen) :
    ∃ last, (settings.filterMap fun setting =>
        (value source setting).map fun tree => (Tree.text (form.key setting), tree)).foldlM
        form.readEntry (seen, record) = .ok last ∧
      ∀ setting, value last.2 setting =
        if setting ∈ settings then (value source setting).or (value record setting)
        else value record setting := by
  induction settings generalizing seen record with
  | nil => exact ⟨(seen, record), rfl, fun _ => rfl⟩
  | cons setting rest induction =>
      obtain ⟨notAgain, distinctRest⟩ := List.nodup_cons.mp distinct
      have freshRest := fun other member => fresh other (List.mem_cons_of_mem setting member)
      rw [List.filterMap_cons]
      cases written : value source setting with
      | none =>
          obtain ⟨last, read, values⟩ := induction distinctRest seen record freshRest
          refine ⟨last, read, fun other => ?_⟩
          rw [values other]
          by_cases same : other = setting
          · simp [same, notAgain, written]
          · simp [same]
      | some tree =>
          obtain ⟨next, set, changed⟩ := reads.set source record setting tree written
          have freshNext : ∀ other ∈ rest, form.key other ∉ form.key setting :: seen := by
            intro other member again
            rcases List.mem_cons.mp again with same | earlier
            · have equal := (reads.keys other).symm.trans (same ▸ reads.keys setting)
              exact notAgain (Option.some.inj equal ▸ member)
            · exact freshRest other member earlier
          obtain ⟨last, read, values⟩ := induction distinctRest _ next freshNext
          have first := read_entry_eq_ok (reads.keys setting) (fresh setting (by simp)) set
          refine ⟨last, ?_, fun other => ?_⟩
          · simp only [Option.map_some, List.foldlM_cons, first, ok_bind]
            exact read
          · rw [values other, changed]
            by_cases same : other = setting
            · simp [same, notAgain, written, assign]
            · simp [same, assign]

theorem Reads.tree (reads : form.Reads value unset) (source : Record) :
    form.read unset (settingsTree form.settings form.key (value source)) = .ok source := by
  obtain ⟨last, read, values⟩ :=
    reads.entries source reads.distinct [] unset (by simp)
  have same : last.2 = source := by
    apply reads.determined
    funext setting
    rw [values, if_pos (reads.complete setting), reads.nothing, Option.or_none]
  simp only [RecordForm.read, settingsTree, Tree.untagged, read]
  exact congrArg Except.ok same

end Yaml.RecordForm

/-! ### Values -/

theorem as_texts_tree (texts : List String) : (textsTree texts).asTexts = .ok texts :=
  each_read_back fun _ _ => rfl

/-- What is left out is read like null, as an empty list. -/
theorem as_texts_optional (texts : List String) :
    ((textsTree? texts).getD .null).asTexts = .ok texts := by
  cases texts with
  | nil => rfl
  | cons text rest => exact as_texts_tree (text :: rest)

theorem texts_tree_injective : Function.Injective textsTree := by
  intro left right same
  have read := as_texts_tree left
  rw [same, as_texts_tree] at read
  exact (Except.ok.inj read).symm

theorem optional_texts_injective : Function.Injective textsTree? := by
  intro left right same
  have read := as_texts_optional left
  rw [same, as_texts_optional] at read
  exact (Except.ok.inj read).symm

theorem text_injective : Function.Injective Tree.text := fun _ _ => Tree.text.inj

theorem bool_injective : Function.Injective Tree.bool := fun _ _ => Tree.bool.inj

namespace AppletFragment

theorem set_eq_ok (source fragment : AppletFragment) (setting : AppletSetting) (tree : Tree)
    (written : source.value setting = some tree) :
    ∃ next, fragment.set setting tree = .ok next ∧
      next.value = assign fragment.value setting (some tree) := by
  -- The settings of one kind share a function, which is assigned at one place.
  cases setting with
  | appletName =>
      obtain ⟨name, _, rfl⟩ := Option.map_eq_some_iff.mp written
      refine ⟨{ fragment with appletName := some name }, rfl, funext fun other => ?_⟩
      cases other <;> simp [assign, value]
  | text field =>
      obtain ⟨text, _, rfl⟩ := Option.map_eq_some_iff.mp written
      refine ⟨{ fragment with text := assign fragment.text field (some text) }, rfl,
        funext fun other => ?_⟩
      cases other with
      | text other => by_cases same : other = field <;> simp [assign, value, same]
      | _ => simp [assign, value]
  | switch field =>
      obtain ⟨on, _, rfl⟩ := Option.map_eq_some_iff.mp written
      refine ⟨{ fragment with switch := assign fragment.switch field (some on) }, rfl,
        funext fun other => ?_⟩
      cases other with
      | switch other => by_cases same : other = field <;> simp [assign, value, same]
      | _ => simp [assign, value]
  | list field =>
      change textsTree? (source.list field) = some tree at written
      have read := as_texts_optional (source.list field)
      rw [written, Option.getD_some] at read
      refine ⟨{ fragment with list := assign fragment.list field (source.list field) },
        by simp [set, read], funext fun other => ?_⟩
      cases other with
      | list other => by_cases same : other = field <;> simp [assign, value, same, written]
      | _ => simp [assign, value]
  | hooks side =>
      change textsTree? (source.hooks side) = some tree at written
      have read := as_texts_optional (source.hooks side)
      rw [written, Option.getD_some] at read
      refine ⟨{ fragment with hooks := assign fragment.hooks side (source.hooks side) },
        by simp [set, read], funext fun other => ?_⟩
      cases other with
      | hooks other => by_cases same : other = side <;> simp [assign, value, same, written]
      | _ => simp [assign, value]
  | command =>
      obtain ⟨command, _, rfl⟩ := Option.map_eq_some_iff.mp written
      have read : (textsTree command).asOptional Tree.asTexts = .ok (some command) :=
        congrArg (some <$> ·) (as_texts_tree command)
      refine ⟨{ fragment with command := some command }, by simp [set, read],
        funext fun other => ?_⟩
      cases other <;> simp [assign, value]

theorem value_injective : Function.Injective value := by
  intro left right same
  have equal (setting : AppletSetting) : left.value setting = right.value setting :=
    congrFun same setting
  have appletName : left.appletName = right.appletName :=
    Option.map_injective text_injective (equal .appletName)
  have text : left.text = right.text := by
    funext field
    exact Option.map_injective text_injective (equal (.text field))
  have switch : left.switch = right.switch := by
    funext field
    exact Option.map_injective bool_injective (equal (.switch field))
  have list : left.list = right.list := by
    funext field
    exact optional_texts_injective (equal (.list field))
  have hooks : left.hooks = right.hooks := by
    funext side
    exact optional_texts_injective (equal (.hooks side))
  have command : left.command = right.command :=
    Option.map_injective texts_tree_injective (equal .command)
  cases left
  cases right
  simp only at appletName text switch list hooks command
  rw [appletName, text, switch, list, hooks, command]

theorem keys_known : ∀ setting ∈ AppletSetting.all, form.setting? setting.key = some setting := by
  decide

theorem reads : form.Reads value unset where
  complete := AppletSetting.mem_all
  distinct := by decide
  keys := fun setting => keys_known setting (AppletSetting.mem_all setting)
  nothing := fun setting => by cases setting <;> rfl
  set := set_eq_ok
  determined := fun _ _ same => value_injective same

theorem of_tree_tree (fragment : AppletFragment) : ofTree fragment.tree = .ok fragment :=
  reads.tree fragment

/-- An empty command is written, unlike the empty lists. -/
example : { unset with command := some [] }.tree = .map [(.text "command", .list [])] := by rfl

end AppletFragment

namespace ResourceFragment

theorem set_eq_ok (source fragment : ResourceFragment) (setting : ResourceSetting) (tree : Tree)
    (written : source.value setting = some tree) :
    ∃ next, fragment.set setting tree = .ok next ∧
      next.value = assign fragment.value setting (some tree) := by
  cases setting with
  | name =>
      obtain ⟨name, _, rfl⟩ := Option.map_eq_some_iff.mp written
      refine ⟨{ fragment with name := some name }, rfl, funext fun other => ?_⟩
      cases other <;> simp [assign, value]
  | driver =>
      obtain ⟨driver, _, rfl⟩ := Option.map_eq_some_iff.mp written
      refine ⟨{ fragment with driver := some driver }, rfl, funext fun other => ?_⟩
      cases other <;> simp [assign, value]

theorem value_injective : Function.Injective value := by
  intro left right same
  have name : left.name = right.name :=
    Option.map_injective text_injective (congrFun same .name)
  have driver : left.driver = right.driver :=
    Option.map_injective text_injective (congrFun same .driver)
  cases left
  cases right
  simp only at name driver
  rw [name, driver]

theorem reads : form.Reads value unset where
  complete := ResourceSetting.mem_all
  distinct := by decide
  keys := fun setting => by cases setting <;> rfl
  nothing := fun setting => by cases setting <;> rfl
  set := set_eq_ok
  determined := fun _ _ same => value_injective same

theorem of_tree_tree (fragment : ResourceFragment) : ofTree fragment.tree = .ok fragment :=
  reads.tree fragment

end ResourceFragment

/-! ### Documents -/

@[simp] theorem placed_ok {Value : Type} (origin path : String) (value : Value) :
    placed origin path (.ok value) = .ok value := rfl

theorem decode_entries_tree {Value : Type} {read : Tree → Except String Value}
    {tree : Value → Tree} (reads : ∀ value, read (tree value) = .ok value)
    (origin part : String) {catalog : Catalog Value} (named : "" ∉ catalog.names) :
    decodeEntries origin part read (entriesTree tree catalog) = .ok catalog := by
  have entries : (catalog.entries.map fun entry => (Tree.text entry.1, tree entry.2)).mapM
      (decodeEntry origin part read) = .ok catalog.entries := by
    apply each_read_back
    intro entry member
    have nonempty : entry.1 ≠ "" := fun empty => named (empty ▸ List.mem_map_of_mem member)
    simp [decodeEntry, entryName, nonempty, reads]
  rw [entriesTree, decodeEntries, entries]
  exact congrArg Except.ok catalog.of_list_entries

namespace FragmentDocument

/-- No entry has an empty name. -/
structure Named (document : FragmentDocument) : Prop where
  applets : "" ∉ document.applets.names
  volumes : "" ∉ document.volumes.names
  networks : "" ∉ document.networks.names

/-- The part of the source in the place of that of the document. -/
def withSection (document source : FragmentDocument) : Section → FragmentDocument
  | .applets => { document with applets := source.applets }
  | .volumes => { document with volumes := source.volumes }
  | .networks => { document with networks := source.networks }
  | .ignored => { document with ignored := source.ignored }

theorem read_section_tree {source : FragmentDocument} (named : source.Named) (origin : String)
    (document : FragmentDocument) (part : Section) :
    document.readSection origin (.text part.key, source.sectionTree part) =
      .ok (document.withSection source part) := by
  have known : section? part.key = some part := by cases part <;> decide
  simp only [readSection, known]
  cases part with
  | applets =>
      have read := decode_entries_tree AppletFragment.of_tree_tree origin Section.applets.key
        named.applets
      simp [setSection, sectionTree, read, withSection]
  | volumes =>
      have read := decode_entries_tree ResourceFragment.of_tree_tree origin Section.volumes.key
        named.volumes
      simp [setSection, sectionTree, read, withSection]
  | networks =>
      have read := decode_entries_tree ResourceFragment.of_tree_tree origin Section.networks.key
        named.networks
      simp [setSection, sectionTree, read, withSection]
  | ignored =>
      simp [setSection, sectionTree, as_texts_tree, withSection]

theorem of_tree_tree {document : FragmentDocument} (named : document.Named) (origin : String) :
    ofTree origin document.tree = .ok document := by
  simp only [tree, Section.all, List.map_cons, List.map_nil, ofTree, List.foldlM_cons,
    List.foldlM_nil, read_section_tree named, ok_bind, pure_eq_ok]
  rfl

end FragmentDocument

end ContainerApplets
