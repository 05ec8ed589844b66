import ContainerApplets.Proofs.SettingDefaults
import ContainerApplets.Proofs.Template.Trees

/-!
A variable that is set to the empty text is as good as an unset one. Environments that agree on what
variables hold, where an unset one holds nothing, give the same expansions, fragments and settings.
-/

namespace ContainerApplets

/-- The environments agree, if unset is read as empty. -/
def Environment.Alike (left right : Environment) : Prop := ∀ name, left.text name = right.text name

namespace Environment.Alike

open Template

variable {left right : Environment}

/-! ### Expanding -/

theorem value_of_eq (alike : left.Alike right) (name : List Char) :
    valueOf left name = valueOf right name :=
  congrArg String.toList (alike (String.ofList name))

theorem set_value_eq (alike : left.Alike right) (name : List Char) :
    setValue left name = setValue right name := by
  unfold setValue
  rw [alike.value_of_eq]

theorem piece_value_eq (alike : left.Alike right) (piece : Piece) :
    piece.value left = piece.value right := by
  cases piece with
  | named name => exact alike.value_of_eq name
  | braced body => exact alike.value_of_eq body
  | _ => rfl

/-- The recursion is that of expanding: a default is shorter than the text that holds it. -/
theorem expand_chars_eq (alike : left.Alike right) (text : List Char) :
    expandChars left text = expandChars right text := by
  rw [Template.expand_chars_eq, Template.expand_chars_eq]
  apply List.flatMap_congr
  intro piece member
  unfold Piece.meaning
  cases split : piece.default? with
  | none => exact alike.piece_value_eq piece
  | some parts =>
      have shorter := default_shorter member split
      dsimp only
      rw [alike.set_value_eq, alike.expand_chars_eq parts.2]
  termination_by text.length

theorem expand_eq (alike : left.Alike right) : expand left = expand right := by
  funext text
  rw [expand, expand, alike.expand_chars_eq]

/-! ### What is made of expansions -/

theorem fragment_eq (alike : left.Alike right) (origin text : String) :
    Fragment.ofText origin left text = Fragment.ofText origin right text := by
  unfold Fragment.ofText Fragment.ofTree
  simp only [Yaml.Tree.expand_texts_eq, alike.expand_eq]

theorem setting_eq (alike : left.Alike right) (name : String) :
    Settings.value? left name = Settings.value? right name := by
  rw [Settings.value_eq, Settings.value_eq, Settings.expanded, Settings.expanded, alike name,
    alike.expand_eq]

theorem home_of_eq (alike : left.Alike right) (known : Option String) :
    Settings.homeOf? known left = Settings.homeOf? known right := by
  rw [Settings.home_of_eq, Settings.home_of_eq, alike "HOME"]

theorem settings_eq (alike : left.Alike right) (known : Option String) :
    Settings.ofEnvironment known left = Settings.ofEnvironment known right := by
  unfold Settings.ofEnvironment Settings.trailingOf
  simp only [alike.home_of_eq, alike.setting_eq]

end Environment.Alike

/-- Nothing that is made of variables tells an empty one from an unset one. -/
theorem empty_variables_as_unset {left right : Environment} (alike : left.Alike right) :
    (∀ text, expand left text = expand right text) ∧
    (∀ origin text, Fragment.ofText origin left text = Fragment.ofText origin right text) ∧
    ∀ known, Settings.ofEnvironment known left = Settings.ofEnvironment known right :=
  ⟨congrFun alike.expand_eq, alike.fragment_eq, alike.settings_eq⟩

/-- Nothing else is set. -/
def bareVariables : Environment := fun name => if name = "HOME" then some "/home/me" else none

/-- Everything else is set, but empty. -/
def blankVariables : Environment := fun name => if name = "HOME" then some "/home/me" else some ""

theorem blank_variables_as_unset :
    bareVariables.Alike blankVariables ∧ bareVariables "TAG" ≠ blankVariables "TAG" ∧
    expand blankVariables "$TAG$\x7bTAG:-latest\x7d" = "latest" ∧
    (∀ text, expand bareVariables text = expand blankVariables text) ∧
    (∀ origin text, Fragment.ofText origin bareVariables text =
      Fragment.ofText origin blankVariables text) ∧
    Settings.ofEnvironment none bareVariables = Settings.ofEnvironment none blankVariables := by
  have alike : bareVariables.Alike blankVariables := by
    intro name
    unfold Environment.text bareVariables blankVariables
    split <;> rfl
  obtain ⟨expands, fragments, settings⟩ := empty_variables_as_unset alike
  exact ⟨alike, by decide, by decide +kernel, expands, fragments, settings none⟩

end ContainerApplets
