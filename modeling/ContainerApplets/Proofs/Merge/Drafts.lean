import ContainerApplets.Proofs.Merge.Gathering

/-!
What a draft of an applet or of a resource records of the entries that it has taken in, and which
entries it takes in.
-/

namespace ContainerApplets

/-! ### Applets -/

/-- Entries that name the applet by its key, if at all, and that set no setting to two values. -/
structure CompatibleApplet (key : String) (entries : List AppletFragment) : Prop where
  named : ∀ entry ∈ entries, ∀ name, entry.appletName = some name → name = key
  text : ∀ field, Agree (entries.map fun entry => entry.text field)
  switch : ∀ field, Agree (entries.map fun entry => entry.switch field)
  command : Agree (entries.map fun entry => entry.command)

namespace CompatibleApplet

variable {key : String} {entries : List AppletFragment} {entry : AppletFragment}

theorem nil (key : String) : CompatibleApplet key [] where
  named := by simp
  text := fun _ => agree_nil
  switch := fun _ => agree_nil
  command := agree_nil

theorem init (compatible : CompatibleApplet key (entries ++ [entry])) :
    CompatibleApplet key entries where
  named := fun earlier member => compatible.named earlier (List.mem_append_left _ member)
  text := fun field => Agree.init (by simpa using compatible.text field)
  switch := fun field => Agree.init (by simpa using compatible.switch field)
  command := Agree.init (by simpa using compatible.command)

end CompatibleApplet

namespace AppletDraft

/-- Settings have the first value that was set, lists have all items, and hooks stand once. -/
structure Holds (entries : List AppletFragment) (draft : AppletDraft) : Prop where
  text : ∀ field, Slot.Keeps (draft.text field) (entries.map fun entry => entry.text field)
  switch : ∀ field, Slot.Keeps (draft.switch field) (entries.map fun entry => entry.switch field)
  command : Slot.Keeps draft.command (entries.map fun entry => entry.command)
  list : ∀ field, draft.list field = entries.flatMap fun entry => entry.list field
  hooks : ∀ side, draft.hooks side = (entries.flatMap fun entry => entry.hooks side).eraseDups

variable {draft next : AppletDraft} {key origin : String} {entries : List AppletFragment}
  {entry : AppletFragment}

theorem holds_start (origin : String) : Holds [] (start origin) where
  text := fun _ => Slot.keeps_none
  switch := fun _ => Slot.keeps_none
  command := Slot.keeps_none
  list := fun _ => rfl
  hooks := fun _ => rfl

theorem Holds.add (holds : Holds entries draft) (entry : AppletFragment) (origin : String) :
    Holds (entries ++ [entry]) (draft.add entry origin) where
  text := fun field => by
    rw [List.map_append]
    exact (holds.text field).fill (entry.text field) origin
  switch := fun field => by
    rw [List.map_append]
    exact (holds.switch field).fill (entry.switch field) origin
  command := by
    rw [List.map_append]
    exact holds.command.fill entry.command origin
  list := fun field => by
    simp [AppletDraft.add, holds.list field]
  hooks := fun side => by
    simp only [AppletDraft.add, holds.hooks side, add_hooks_erase_dups, List.flatMap_append,
      List.flatMap_cons, List.flatMap_nil, List.append_nil]

theorem check_name_eq_ok :
    checkName key origin entry = .ok () ↔ ∀ name, entry.appletName = some name → name = key := by
  unfold checkName
  split
  · next unnamed => simp [unnamed]
  · next name named =>
    by_cases same : name = key <;> simp [named, same]

theorem conflicts_eq_nil (holds : Holds entries draft) (compatible : CompatibleApplet key entries)
    (site : Site) :
    draft.conflicts site entry = [] ↔
      (∀ field, Agree ((entries.map fun entry => entry.text field) ++ [entry.text field])) ∧
      (∀ field, Agree ((entries.map fun entry => entry.switch field) ++ [entry.switch field])) ∧
      Agree ((entries.map fun entry => entry.command) ++ [entry.command]) := by
  rw [conflicts, List.append_eq_nil_iff, List.append_eq_nil_iff, List.filterMap_eq_nil_iff,
    List.filterMap_eq_nil_iff, Option.toList_eq_nil_iff, and_assoc]
  refine and_congr ?_ (and_congr ?_ (holds.command.conflict_iff compatible.command))
  · refine forall_congr' fun field => ?_
    rw [(holds.text field).conflict_iff (compatible.text field)]
    exact imp_iff_right (TextField.mem_all field)
  · refine forall_congr' fun field => ?_
    rw [(holds.switch field).conflict_iff (compatible.switch field)]
    exact imp_iff_right (SwitchField.mem_all field)

theorem absorb_eq_ok :
    draft.absorb key origin entry = .ok next ↔
      checkName key origin entry = .ok () ∧
      draft.conflicts ⟨"applet", key, origin⟩ entry = [] ∧ draft.add entry origin = next := by
  simp only [absorb, check_bind_eq_ok, refuse_eq_ok, pure_eq_ok, Except.ok.injEq]

theorem absorb_iff (holds : Holds entries draft) (compatible : CompatibleApplet key entries) :
    (∃ next, draft.absorb key origin entry = .ok next) ↔
      CompatibleApplet key (entries ++ [entry]) := by
  constructor
  · intro accepted
    obtain ⟨next, absorbed⟩ := accepted
    obtain ⟨named, free, _⟩ := absorb_eq_ok.mp absorbed
    obtain ⟨text, switch, command⟩ := (conflicts_eq_nil holds compatible _).mp free
    refine ⟨?_, by simpa using text, by simpa using switch, by simpa using command⟩
    intro other member
    rcases List.mem_append.mp member with earlier | last
    · exact compatible.named other earlier
    · exact List.mem_singleton.mp last ▸ check_name_eq_ok.mp named
  · intro all
    have named : checkName key origin entry = .ok () :=
      check_name_eq_ok.mpr (all.named entry (by simp))
    have free : draft.conflicts ⟨"applet", key, origin⟩ entry = [] :=
      (conflicts_eq_nil holds compatible _).mpr
        ⟨by simpa using all.text, by simpa using all.switch, by simpa using all.command⟩
    exact ⟨_, absorb_eq_ok.mpr ⟨named, free, rfl⟩⟩

def absorption : Absorption AppletDraft AppletFragment where
  start := start
  absorb := fun origin key draft entry => draft.absorb key origin entry
  Compatible := CompatibleApplet
  Holds := Holds
  compatible_nil := CompatibleApplet.nil
  compatible_init := CompatibleApplet.init
  holds_start := holds_start
  absorb_ok := absorb_iff
  absorb_holds := fun holds absorbed => by
    obtain ⟨_, _, rfl⟩ := absorb_eq_ok.mp absorbed
    exact holds.add _ _

end AppletDraft

/-! ### Resources -/

structure CompatibleResource (entries : List ResourceFragment) : Prop where
  name : Agree (entries.map fun entry => entry.name)
  driver : Agree (entries.map fun entry => entry.driver)

theorem CompatibleResource.init {entries : List ResourceFragment} {entry : ResourceFragment}
    (compatible : CompatibleResource (entries ++ [entry])) : CompatibleResource entries where
  name := Agree.init (by simpa using compatible.name)
  driver := Agree.init (by simpa using compatible.driver)

namespace ResourceDraft

structure Holds (entries : List ResourceFragment) (draft : ResourceDraft) : Prop where
  name : Slot.Keeps draft.name (entries.map fun entry => entry.name)
  driver : Slot.Keeps draft.driver (entries.map fun entry => entry.driver)

variable {draft next : ResourceDraft} {entity key origin : String}
  {entries : List ResourceFragment} {entry : ResourceFragment}

theorem Holds.add (holds : Holds entries draft) (entry : ResourceFragment) (origin : String) :
    Holds (entries ++ [entry]) (draft.add entry origin) where
  name := by
    rw [List.map_append]
    exact holds.name.fill entry.name origin
  driver := by
    rw [List.map_append]
    exact holds.driver.fill entry.driver origin

theorem absorb_eq_ok :
    draft.absorb entity key origin entry = .ok next ↔
      draft.conflicts ⟨entity, key, origin⟩ entry = [] ∧ draft.add entry origin = next := by
  simp only [absorb, check_bind_eq_ok, refuse_eq_ok, pure_eq_ok, Except.ok.injEq]

theorem conflicts_eq_nil (holds : Holds entries draft) (compatible : CompatibleResource entries)
    (site : Site) :
    draft.conflicts site entry = [] ↔ CompatibleResource (entries ++ [entry]) := by
  rw [conflicts, List.append_eq_nil_iff, Option.toList_eq_nil_iff, Option.toList_eq_nil_iff,
    holds.name.conflict_iff compatible.name, holds.driver.conflict_iff compatible.driver]
  constructor
  · intro agree
    obtain ⟨name, driver⟩ := agree
    exact ⟨by simpa using name, by simpa using driver⟩
  · intro compatible
    obtain ⟨name, driver⟩ := compatible
    exact ⟨by simpa using name, by simpa using driver⟩

theorem absorb_iff (holds : Holds entries draft) (compatible : CompatibleResource entries) :
    (∃ next, draft.absorb entity key origin entry = .ok next) ↔
      CompatibleResource (entries ++ [entry]) := by
  rw [← conflicts_eq_nil holds compatible ⟨entity, key, origin⟩]
  simp only [absorb_eq_ok, exists_and_left, exists_eq', and_true]

def absorption (entity : String) : Absorption ResourceDraft ResourceFragment where
  start := fun _ => start
  absorb := fun origin key draft entry => draft.absorb entity key origin entry
  Compatible := fun _ => CompatibleResource
  Holds := Holds
  compatible_nil := fun _ => ⟨agree_nil, agree_nil⟩
  compatible_init := CompatibleResource.init
  holds_start := fun _ => ⟨Slot.keeps_none, Slot.keeps_none⟩
  absorb_ok := absorb_iff
  absorb_holds := fun holds absorbed => by
    obtain ⟨_, rfl⟩ := absorb_eq_ok.mp absorbed
    exact holds.add _ _

end ResourceDraft

end ContainerApplets
