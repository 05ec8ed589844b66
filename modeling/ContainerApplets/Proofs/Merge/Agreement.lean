import ContainerApplets.Merge
import ContainerApplets.Proofs.Checked

/-!
What many fragments say about one setting. A setting is open or made, and the settings that are
made have to agree; the first one is then the value that they share.
-/

namespace ContainerApplets

variable {Value : Type}

/-- Any two values that are set are equal. -/
def Agree (settings : List (Option Value)) : Prop :=
  ∀ left right, some left ∈ settings → some right ∈ settings → left = right

/-- The value is the one that is set, and the default only if none is. -/
def IsCommon (settings : List (Option Value)) (default value : Value) : Prop :=
  (∀ set, some set ∈ settings → value = set) ∧
    ((∀ setting ∈ settings, setting = none) → value = default)

def firstSet (settings : List (Option Value)) : Option Value := settings.findSome? id

theorem first_set_append (settings : List (Option Value)) (setting : Option Value) :
    firstSet (settings ++ [setting]) = (firstSet settings).or setting := by
  simp [firstSet, List.findSome?_append]

theorem first_set_eq_none {settings : List (Option Value)} :
    firstSet settings = none ↔ ∀ setting ∈ settings, setting = none := by
  simp [firstSet]

theorem mem_of_first_set {settings : List (Option Value)} {value : Value}
    (first : firstSet settings = some value) : some value ∈ settings := by
  obtain ⟨setting, member, same⟩ := List.exists_of_findSome?_eq_some first
  exact same ▸ member

theorem agree_nil : Agree ([] : List (Option Value)) := by
  intro left right member
  simp at member

theorem Agree.init {settings : List (Option Value)} {setting : Option Value}
    (agree : Agree (settings ++ [setting])) : Agree settings := by
  intro left right leftMember rightMember
  exact agree left right (List.mem_append_left _ leftMember) (List.mem_append_left _ rightMember)

theorem Agree.first_set {settings : List (Option Value)} (agree : Agree settings) {value : Value}
    (member : some value ∈ settings) : firstSet settings = some value := by
  cases first : firstSet settings with
  | none => exact nomatch first_set_eq_none.mp first _ member
  | some found => rw [agree found value (mem_of_first_set first) member]

/-- A further setting agrees with settings that agree if it does with the first of them. -/
theorem Agree.append_iff {settings : List (Option Value)} (agree : Agree settings)
    {setting : Option Value} :
    Agree (settings ++ [setting]) ↔
      ∀ first value, firstSet settings = some first → setting = some value → first = value := by
  constructor
  · intro all first value found same
    exact all first value (List.mem_append_left _ (mem_of_first_set found)) (by simp [same])
  · intro further left right leftMember rightMember
    rw [List.mem_append, List.mem_singleton] at leftMember rightMember
    rcases leftMember with leftEarly | leftLast <;> rcases rightMember with rightEarly | rightLast
    · exact agree left right leftEarly rightEarly
    · exact further left right (agree.first_set leftEarly) rightLast.symm
    · exact (further right left (agree.first_set rightEarly) leftLast.symm).symm
    · exact Option.some.inj (leftLast.trans rightLast.symm)

theorem Agree.is_common {settings : List (Option Value)} (agree : Agree settings)
    (default : Value) : IsCommon settings default ((firstSet settings).getD default) := by
  constructor
  · intro set member
    rw [agree.first_set member, Option.getD_some]
  · intro unset
    rw [first_set_eq_none.mpr unset, Option.getD_none]

theorem IsCommon.unique {settings : List (Option Value)} {default left right : Value}
    (leftCommon : IsCommon settings default left) (rightCommon : IsCommon settings default right) :
    left = right := by
  cases first : firstSet settings with
  | none =>
      have unset := first_set_eq_none.mp first
      rw [leftCommon.2 unset, rightCommon.2 unset]
  | some set =>
      have member := mem_of_first_set first
      rw [leftCommon.1 set member, rightCommon.1 set member]

namespace Slot

theorem value_fill (slot : Option (Slot Value)) (incoming : Option Value) (origin : String) :
    value? (fill slot incoming origin) = (value? slot).or incoming := by
  cases slot <;> cases incoming <;> rfl

theorem conflict_eq_none [DecidableEq Value] {shown : Value → String} {site : Site}
    {field : String} {slot : Option (Slot Value)} {incoming : Option Value} :
    conflict? shown site field slot incoming = none ↔
      ∀ present value, value? slot = some present → incoming = some value → present = value := by
  cases slot <;> cases incoming <;> simp [conflict?, value?]

/-- The slot holds the first of the settings. -/
def Keeps (slot : Option (Slot Value)) (settings : List (Option Value)) : Prop :=
  value? slot = firstSet settings

theorem keeps_none : Keeps (none : Option (Slot Value)) [] := rfl

theorem Keeps.fill {slot : Option (Slot Value)} {settings : List (Option Value)}
    (keeps : Keeps slot settings) (incoming : Option Value) (origin : String) :
    Keeps (Slot.fill slot incoming origin) (settings ++ [incoming]) := by
  rw [Keeps, value_fill, first_set_append, keeps]

theorem Keeps.is_common {slot : Option (Slot Value)} {settings : List (Option Value)}
    (keeps : Keeps slot settings) (agree : Agree settings) (default : Value) :
    IsCommon settings default ((value? slot).getD default) := by
  rw [keeps]
  exact agree.is_common default

theorem Keeps.conflict_iff [DecidableEq Value] {slot : Option (Slot Value)}
    {settings : List (Option Value)} (keeps : Keeps slot settings) (agree : Agree settings)
    {shown : Value → String} {site : Site} {field : String} {incoming : Option Value} :
    conflict? shown site field slot incoming = none ↔ Agree (settings ++ [incoming]) := by
  rw [conflict_eq_none, agree.append_iff, keeps]

end Slot

theorem refuse_eq_ok {conflicts : List Conflict} : refuse conflicts = .ok () ↔ conflicts = [] := by
  cases conflicts <;> simp [refuse]

/-- Hooks are added in the order in which they are first seen. -/
theorem add_hooks_erase_dups (hooks more : List String) :
    addHooks hooks.eraseDups more = (hooks ++ more).eraseDups := by
  induction more generalizing hooks with
  | nil => simp [addHooks]
  | cons hook rest induction =>
      have step : (if hook ∈ hooks.eraseDups then hooks.eraseDups else hooks.eraseDups ++ [hook]) =
          (hooks ++ [hook]).eraseDups := by
        rw [List.eraseDups_append]
        by_cases seen : hook ∈ hooks <;> simp [seen, List.removeAll, List.eraseDups_cons]
      change addHooks (if hook ∈ hooks.eraseDups then hooks.eraseDups
        else hooks.eraseDups ++ [hook]) rest = _
      rw [step, induction, List.append_assoc, List.singleton_append]

end ContainerApplets
