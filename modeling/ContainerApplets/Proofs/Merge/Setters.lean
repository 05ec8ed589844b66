import ContainerApplets.Proofs.Merge.Unification

/-!
The settings that hold one value, those of applets, volumes and networks alike. A draft knows for
each of them the value that was set first and the origin of the fragment that set it, and fragments
can be drafted if no setting is given two values.
-/

namespace ContainerApplets

/-! ### Settings of one entity -/

/-- A value of a single setting, of whatever kind. -/
inductive SingleValue
  | text (value : String)
  | switch (value : Bool)
  | command (words : List String)
  deriving DecidableEq

def SingleValue.shown : SingleValue → String
  | .text value => Text.quoted value
  | .switch value => toString value
  | .command words => Text.quotedList words

theorem SingleValue.text_injective : Function.Injective SingleValue.text :=
  fun _ _ => SingleValue.text.inj

theorem SingleValue.switch_injective : Function.Injective SingleValue.switch :=
  fun _ _ => SingleValue.switch.inj

theorem SingleValue.command_injective : Function.Injective SingleValue.command :=
  fun _ _ => SingleValue.command.inj

/-- A setting of an applet that holds one value. -/
inductive SingleField
  | text (field : TextField)
  | switch (field : SwitchField)
  | command
  deriving DecidableEq

namespace SingleField

/-- In the order in which the settings of an applet are compared. -/
def all : List SingleField :=
  TextField.all.map .text ++ SwitchField.all.map .switch ++ [.command]

def key : SingleField → String
  | .text field => field.key
  | .switch field => field.key
  | .command => AppletSetting.command.key

end SingleField

def AppletFragment.single (entry : AppletFragment) : SingleField → Option SingleValue
  | .text field => (entry.text field).map .text
  | .switch field => (entry.switch field).map .switch
  | .command => entry.command.map .command

def ResourceFragment.single (entry : ResourceFragment) : ResourceSetting → Option SingleValue
  | .name => entry.name.map .text
  | .driver => entry.driver.map .text

namespace Slot

variable {Value Other : Type}

def lift (kind : Value → Other) (slot : Slot Value) : Slot Other := ⟨kind slot.value, slot.origin⟩

theorem fill_lift (kind : Value → Other) (slot : Option (Slot Value)) (incoming : Option Value)
    (origin : String) :
    (fill slot incoming origin).map (lift kind) =
      fill (slot.map (lift kind)) (incoming.map kind) origin := by
  cases slot <;> cases incoming <;> rfl

theorem fill_none (slot : Option (Slot Value)) (origin : String) :
    fill slot none origin = slot := by
  cases slot <;> rfl

/-- Values of one kind are in conflict if they are as values of any kind. -/
theorem conflict_lift [DecidableEq Value] [DecidableEq Other] {kind : Value → Other}
    (injective : Function.Injective kind) (shown : Other → String) (site : Site) (field : String)
    (slot : Option (Slot Value)) (incoming : Option Value) :
    conflict? shown site field (slot.map (lift kind)) (incoming.map kind) =
      conflict? (fun value => shown (kind value)) site field slot incoming := by
  cases slot <;> cases incoming <;> simp [conflict?, lift, injective.eq_iff]

theorem conflict_eq_some [DecidableEq Value] {shown : Value → String} {site : Site}
    {field : String} {slot : Option (Slot Value)} {incoming : Option Value} {found : Conflict} :
    conflict? shown site field slot incoming = some found ↔
      ∃ present value, slot = some present ∧ incoming = some value ∧ present.value ≠ value ∧
        found = ⟨site.entity, site.name, field, shown present.value, present.origin, shown value,
          site.origin⟩ := by
  cases slot <;> cases incoming <;> simp [conflict?, eq_comm]

end Slot

theorem filter_map_single {Item Value : Type} (read : Item → Option Value) (item : Item) :
    [item].filterMap read = (read item).toList := by
  rw [List.filterMap_cons]
  cases read item <;> rfl

namespace AppletDraft

def single (draft : AppletDraft) : SingleField → Option (Slot SingleValue)
  | .text field => (draft.text field).map (Slot.lift .text)
  | .switch field => (draft.switch field).map (Slot.lift .switch)
  | .command => draft.command.map (Slot.lift .command)

theorem single_start (origin : String) (field : SingleField) :
    (start origin).single field = none := by
  cases field <;> rfl

theorem single_add (draft : AppletDraft) (entry : AppletFragment) (origin : String)
    (field : SingleField) :
    (draft.add entry origin).single field =
      Slot.fill (draft.single field) (entry.single field) origin := by
  cases field with
  | text field => exact Slot.fill_lift _ _ _ _
  | switch field => exact Slot.fill_lift _ _ _ _
  | command => exact Slot.fill_lift _ _ _ _

theorem conflicts_eq_singles (draft : AppletDraft) (site : Site) (entry : AppletFragment) :
    draft.conflicts site entry = SingleField.all.filterMap fun field =>
      Slot.conflict? SingleValue.shown site field.key (draft.single field)
        (entry.single field) := by
  rw [SingleField.all, List.filterMap_append, List.filterMap_append, List.filterMap_map,
    List.filterMap_map, conflicts]
  congr 1
  · congr 1
    · refine List.filterMap_congr fun field _ => ?_
      exact (Slot.conflict_lift SingleValue.text_injective SingleValue.shown site field.key
        (draft.text field) (entry.text field)).symm
    · refine List.filterMap_congr fun field _ => ?_
      exact (Slot.conflict_lift SingleValue.switch_injective SingleValue.shown site field.key
        (draft.switch field) (entry.switch field)).symm
  · rw [filter_map_single]
    exact congrArg Option.toList (Slot.conflict_lift SingleValue.command_injective
      SingleValue.shown site AppletSetting.command.key draft.command entry.command).symm

end AppletDraft

namespace ResourceDraft

def single (draft : ResourceDraft) : ResourceSetting → Option (Slot SingleValue)
  | .name => draft.name.map (Slot.lift .text)
  | .driver => draft.driver.map (Slot.lift .text)

theorem single_start (field : ResourceSetting) : start.single field = none := by
  cases field <;> rfl

theorem single_add (draft : ResourceDraft) (entry : ResourceFragment) (origin : String)
    (field : ResourceSetting) :
    (draft.add entry origin).single field =
      Slot.fill (draft.single field) (entry.single field) origin := by
  cases field with
  | name => exact Slot.fill_lift _ _ _ _
  | driver => exact Slot.fill_lift _ _ _ _

theorem conflicts_eq_singles (draft : ResourceDraft) (site : Site) (entry : ResourceFragment) :
    draft.conflicts site entry = ResourceSetting.all.filterMap fun field =>
      Slot.conflict? SingleValue.shown site field.key (draft.single field)
        (entry.single field) := by
  have name := Slot.conflict_lift SingleValue.text_injective SingleValue.shown site
    ResourceSetting.name.key draft.name entry.name
  have driver := Slot.conflict_lift SingleValue.text_injective SingleValue.shown site
    ResourceSetting.driver.key draft.driver entry.driver
  rw [ResourceSetting.all, ← List.singleton_append, List.filterMap_append, filter_map_single,
    filter_map_single]
  exact congrArg₂ (· ++ ·) (congrArg Option.toList name.symm) (congrArg Option.toList driver.symm)

end ResourceDraft

/-! ### Settings of a document -/

/-- A single setting of an applet, a volume or a network. -/
inductive SingleSetting
  | applet (key : String) (field : SingleField)
  | volume (key : String) (field : ResourceSetting)
  | network (key : String) (field : ResourceSetting)
  deriving DecidableEq

namespace SingleSetting

def entity : SingleSetting → String
  | .applet _ _ => "applet"
  | .volume _ _ => "volume"
  | .network _ _ => "network"

def name : SingleSetting → String
  | .applet key _ => key
  | .volume key _ => key
  | .network key _ => key

def field : SingleSetting → String
  | .applet _ field => field.key
  | .volume _ field => field.key
  | .network _ field => field.key

end SingleSetting

def Fragment.sets (fragment : Fragment) : SingleSetting → Option SingleValue
  | .applet key field => (fragment.document.applets.get? key).bind fun entry => entry.single field
  | .volume key field => (fragment.document.volumes.get? key).bind fun entry => entry.single field
  | .network key field => (fragment.document.networks.get? key).bind fun entry => entry.single field

def Draft.single (draft : Draft) : SingleSetting → Option (Slot SingleValue)
  | .applet key field => (draft.applets.get? key).bind fun applet => applet.single field
  | .volume key field => (draft.volumes.get? key).bind fun volume => volume.single field
  | .network key field => (draft.networks.get? key).bind fun network => network.single field

/-- The first value that is set, and the origin of the fragment that sets it. -/
def firstSetter (fragments : List Fragment) (setting : SingleSetting) :
    Option (Slot SingleValue) :=
  fragments.findSome? fun fragment =>
    (fragment.sets setting).map fun value => ⟨value, fragment.origin⟩

theorem first_setter_eq_some {fragments : List Fragment} {setting : SingleSetting}
    {slot : Slot SingleValue} :
    firstSetter fragments setting = some slot ↔
      ∃ before first between, fragments = before ++ first :: between ∧
        (∀ fragment ∈ before, fragment.sets setting = none) ∧
        first.sets setting = some slot.value ∧ first.origin = slot.origin := by
  rw [firstSetter, List.findSome?_eq_some_iff]
  simp only [Option.map_eq_some_iff, Option.map_eq_none_iff]
  constructor
  · intro found
    obtain ⟨before, first, between, rfl, ⟨value, set, rfl⟩, unset⟩ := found
    exact ⟨before, first, between, rfl, unset, set, rfl⟩
  · intro found
    obtain ⟨before, first, between, rfl, unset, set, origin⟩ := found
    exact ⟨before, first, between, rfl, ⟨slot.value, set, by rw [origin]⟩, unset⟩

theorem first_setter_value (fragments : List Fragment) (setting : SingleSetting) :
    Slot.value? (firstSetter fragments setting) =
      firstSet (fragments.map fun fragment => fragment.sets setting) := by
  induction fragments with
  | nil => rfl
  | cons fragment rest induction =>
      simp only [firstSetter, firstSet, List.map_cons, List.findSome?_cons] at induction ⊢
      cases fragment.sets setting with
      | none => exact induction
      | some value => rfl

/-! ### What a draft knows -/

namespace Absorption

variable {AnyDraft Entry : Type} {kind : Absorption AnyDraft Entry}
  {single : AnyDraft → Option (Slot SingleValue)} {sets : Entry → Option SingleValue}

variable (kind) (single) (sets) in
/-- The drafts of this kind keep what is set first. -/
structure KeepsFirst : Prop where
  start : ∀ origin, single (kind.start origin) = none
  absorb : ∀ {origin key draft entry next}, kind.absorb origin key draft entry = .ok next →
    single next = Slot.fill (single draft) (sets entry) origin

theorem KeepsFirst.begun (keeps : kind.KeepsFirst single sets) (found : Option AnyDraft)
    (origin : String) : single (found.getD (kind.start origin)) = found.bind single := by
  cases found with
  | none => exact keeps.start origin
  | some draft => rfl

theorem KeepsFirst.take_all (keeps : kind.KeepsFirst single sets) {origin : String}
    {entries : List (String × Entry)} (ordered : NameOrdered entries)
    {drafts next : Catalog AnyDraft} (taken : kind.takeAll origin drafts entries = .ok next)
    (key : String) :
    (next.get? key).bind single =
      Slot.fill ((drafts.get? key).bind single) ((findEntry key entries).bind sets) origin := by
  induction entries generalizing drafts with
  | nil =>
      cases taken
      exact (Slot.fill_none _ _).symm
  | cons entry rest induction =>
      obtain ⟨middle, first, later⟩ := bind_eq_ok.mp (List.foldlM_cons.symm.trans taken)
      obtain ⟨draft, absorbed, rfl⟩ := take_eq_ok.mp first
      rw [induction (List.pairwise_cons.mp ordered).2 later, Catalog.get_insert, findEntry]
      by_cases same : key = entry.1
      · subst same
        rw [if_pos rfl, if_pos rfl, find_entry_rest ordered, ← keeps.begun (drafts.get? _) origin]
        exact (Slot.fill_none _ _).trans (keeps.absorb absorbed)
      · rw [if_neg same, if_neg same]

theorem KeepsFirst.gather (keeps : kind.KeepsFirst single sets)
    {part : FragmentDocument → Catalog Entry} {fragments : List Fragment}
    {drafts : Catalog AnyDraft} (gathered : kind.gather part fragments = .ok drafts)
    (key : String) :
    (drafts.get? key).bind single = fragments.findSome? fun fragment =>
      (((part fragment.document).get? key).bind sets).map fun value =>
        (⟨value, fragment.origin⟩ : Slot SingleValue) := by
  induction fragments using List.reverseRecOn generalizing drafts with
  | nil =>
      cases gathered
      rfl
  | append_singleton fragments fragment induction =>
      obtain ⟨earlier, before, taken⟩ := gather_append_eq_ok.mp gathered
      rw [keeps.take_all (part fragment.document).ordered taken, induction before,
        List.findSome?_append, List.findSome?_singleton]
      exact Option.orElse_eq_or

end Absorption

theorem AppletDraft.keeps_first (field : SingleField) :
    absorption.KeepsFirst (fun draft => draft.single field) (fun entry => entry.single field) where
  start := fun origin => single_start origin field
  absorb := fun absorbed => by
    obtain ⟨_, _, rfl⟩ := absorb_eq_ok.mp absorbed
    exact single_add _ _ _ field

theorem ResourceDraft.keeps_first (entity : String) (field : ResourceSetting) :
    (absorption entity).KeepsFirst (fun draft => draft.single field)
      (fun entry => entry.single field) where
  start := fun _ => single_start field
  absorb := fun absorbed => by
    obtain ⟨_, rfl⟩ := absorb_eq_ok.mp absorbed
    exact single_add _ _ _ field

/-- A draft holds each setting as the first fragment set it that did. -/
theorem Draft.single_of_fragments {draft : Draft} {fragments : List Fragment}
    (made : ofFragments fragments = .ok draft) (setting : SingleSetting) :
    draft.single setting = firstSetter fragments setting := by
  obtain ⟨applets, volumes, networks, _⟩ := of_fragments_eq_ok.mp made
  cases setting with
  | applet key field => exact (AppletDraft.keeps_first field).gather applets key
  | volume key field => exact (ResourceDraft.keeps_first "volume" field).gather volumes key
  | network key field => exact (ResourceDraft.keeps_first "network" field).gather networks key

/-! ### Fragments that can be drafted -/

/-- The fragment names the applet by its key, if at all. -/
def Fragment.NamesByKey (fragment : Fragment) (key : String) : Prop :=
  ∀ entry, fragment.document.applets.get? key = some entry →
    ∀ name, entry.appletName = some name → name = key

/-- Every explicit name is the key of its applet, and no setting has two values. -/
structure Concordant (fragments : List Fragment) : Prop where
  named : ∀ fragment ∈ fragments, ∀ key, fragment.NamesByKey key
  agree : ∀ setting, Agree (fragments.map fun fragment => fragment.sets setting)

theorem agree_entries_iff {Entry Value : Type} {part : FragmentDocument → Catalog Entry}
    {fragments : List Fragment} {key : String} {read : Entry → Option Value}
    {kind : Value → SingleValue} (injective : Function.Injective kind) :
    Agree ((entriesOf part fragments key).map read) ↔
      Agree (fragments.map fun fragment =>
        ((part fragment.document).get? key).bind fun entry => (read entry).map kind) := by
  have set_iff (value : SingleValue) :
      (some value ∈ fragments.map fun fragment =>
        ((part fragment.document).get? key).bind fun entry => (read entry).map kind) ↔
      ∃ made, some made ∈ (entriesOf part fragments key).map read ∧ kind made = value := by
    simp only [List.mem_map, entriesOf, List.mem_filterMap, Option.bind_eq_some_iff,
      Option.map_eq_some_iff]
    grind
  constructor
  · intro agree left right leftSet rightSet
    obtain ⟨one, oneSet, rfl⟩ := (set_iff left).mp leftSet
    obtain ⟨other, otherSet, rfl⟩ := (set_iff right).mp rightSet
    rw [agree one other oneSet otherSet]
  · intro agree left right leftSet rightSet
    exact injective (agree _ _ ((set_iff _).mpr ⟨left, leftSet, rfl⟩)
      ((set_iff _).mpr ⟨right, rightSet, rfl⟩))

section Fragments

variable {fragments : List Fragment}

theorem compatible_applets_iff :
    (∀ key, CompatibleApplet key (entriesOf FragmentDocument.applets fragments key)) ↔
      (∀ fragment ∈ fragments, ∀ key, fragment.NamesByKey key) ∧
      ∀ key field, Agree (fragments.map fun fragment => fragment.sets (.applet key field)) := by
  constructor
  · intro compatible
    refine ⟨?_, ?_⟩
    · intro fragment member key entry found name
      have listed : entry ∈ entriesOf FragmentDocument.applets fragments key :=
        List.mem_filterMap.mpr ⟨fragment, member, found⟩
      exact (compatible key).named entry listed name
    · intro key field
      cases field with
      | text field =>
          exact (agree_entries_iff SingleValue.text_injective).mp ((compatible key).text field)
      | switch field =>
          exact (agree_entries_iff SingleValue.switch_injective).mp ((compatible key).switch field)
      | command =>
          exact (agree_entries_iff SingleValue.command_injective).mp (compatible key).command
  · intro concordant key
    obtain ⟨named, agree⟩ := concordant
    constructor
    · intro entry listed name
      obtain ⟨fragment, member, found⟩ := List.mem_filterMap.mp listed
      exact named fragment member key entry found name
    · intro field
      exact (agree_entries_iff SingleValue.text_injective).mpr (agree key (.text field))
    · intro field
      exact (agree_entries_iff SingleValue.switch_injective).mpr (agree key (.switch field))
    · exact (agree_entries_iff SingleValue.command_injective).mpr (agree key .command)

theorem compatible_resources_iff {part : FragmentDocument → Catalog ResourceFragment} :
    (∀ key, CompatibleResource (entriesOf part fragments key)) ↔
      ∀ key field, Agree (fragments.map fun fragment =>
        ((part fragment.document).get? key).bind fun entry => entry.single field) := by
  constructor
  · intro compatible key field
    cases field with
    | name => exact (agree_entries_iff SingleValue.text_injective).mp (compatible key).name
    | driver => exact (agree_entries_iff SingleValue.text_injective).mp (compatible key).driver
  · intro agree key
    exact ⟨(agree_entries_iff SingleValue.text_injective).mpr (agree key .name),
      (agree_entries_iff SingleValue.text_injective).mpr (agree key .driver)⟩

theorem concordant_iff_drafted :
    Concordant fragments ↔ ∃ draft, Draft.ofFragments fragments = .ok draft := by
  rw [Draft.of_fragments_ok_iff, compatible_applets_iff, compatible_resources_iff,
    compatible_resources_iff]
  constructor
  · intro concordant
    exact ⟨⟨concordant.named, fun key field => concordant.agree (.applet key field)⟩,
      fun key field => concordant.agree (.volume key field),
      fun key field => concordant.agree (.network key field)⟩
  · intro compatible
    obtain ⟨⟨named, applets⟩, volumes, networks⟩ := compatible
    refine ⟨named, fun setting => ?_⟩
    cases setting with
    | applet key field => exact applets key field
    | volume key field => exact volumes key field
    | network key field => exact networks key field

end Fragments

end ContainerApplets
