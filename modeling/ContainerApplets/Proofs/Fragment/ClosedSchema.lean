import ContainerApplets.Proofs.Fragment.Written

/-!
The schema of a fragment is closed. A tree that is accepted is refused as soon as any mapping of it
that has a schema is given a key that the schema does not know, and the failure says where.
-/

namespace ContainerApplets

open Yaml

namespace Yaml

/-- The wider tree has one entry more in the mapping that a path of names leads to. Null is a
mapping without entries, and tags stay where they are. -/
inductive Tree.Widens (key value : Tree) : List String → Tree → Tree → Prop
  | null : Widens key value [] .null (.map [(key, value)])
  | map (before after : List (Tree × Tree)) :
      Widens key value [] (.map (before ++ after)) (.map (before ++ (key, value) :: after))
  | under (name : String) (before after : List (Tree × Tree)) {path : List String}
      {tree wider : Tree} (below : Widens key value path tree wider) :
      Widens key value (name :: path) (.map (before ++ (.text name, tree) :: after))
        (.map (before ++ (.text name, wider) :: after))
  | tagged (tag : String) {path : List String} {tree wider : Tree}
      (below : Widens key value path tree wider) :
      Widens key value path (.tagged tag tree) (.tagged tag wider)

/-- The key is none of these names. A key that is no text is none of them either. -/
def Tree.OutsideOf (key : Tree) (names : List String) : Prop :=
  ∀ name ∈ names, key.untagged ≠ .text name

namespace RecordForm

variable {Setting Record : Type} {form : RecordForm Setting Record} {key value tree wider : Tree}

theorem read_entry_refused (outside : key.OutsideOf (form.settings.map form.key)) (value : Tree) :
    ∃ message, ∀ state, form.readEntry state (key, value) = .error message := by
  cases written : key.untagged with
  | text name =>
      have unknown : form.setting? name = none := by
        refine List.find?_eq_none.mpr fun setting member same => ?_
        have equal : form.key setting = name := by simpa using same
        exact outside _ (List.mem_map_of_mem member) (equal ▸ written)
      exact ⟨_, fun state => by simp [readEntry, written, unknown]; rfl⟩
  | _ => exact ⟨_, fun state => by simp [readEntry, written, Tree.wrongType]; rfl⟩

theorem read_widened (outside : key.OutsideOf (form.settings.map form.key)) {unset record : Record}
    (widens : Tree.Widens key value [] tree wider)
    (accepted : form.read unset tree = .ok record) :
    ∃ message, form.read unset wider = .error message := by
  obtain ⟨message, refused⟩ := read_entry_refused outside value
  generalize top : [] = path at widens
  induction widens with
  | null =>
      have none : (([] : List (Tree × Tree)) ++ []).foldlM form.readEntry ([], unset) =
          .ok ([], unset) := rfl
      have stopped := fold_refused [] none refused
      exact ⟨message, congrArg (Prod.snd <$> ·) stopped⟩
  | map before after =>
      obtain ⟨last, passed, _⟩ := map_eq_ok.mp accepted
      have stopped := fold_refused after passed refused
      exact ⟨message, congrArg (Prod.snd <$> ·) stopped⟩
  | under name before after below => exact nomatch top
  | tagged tag below induction => exact induction accepted top

end RecordForm

end Yaml

/-- The keys of the settings that an entry of a section may have. -/
def Section.settingKeys : Section → List String
  | .applets => AppletSetting.all.map AppletSetting.key
  | .volumes | .networks => ResourceSetting.all.map ResourceSetting.key
  | .ignored => []

theorem entry_name_eq_ok {origin part name found : String}
    (named : entryName origin part (.text name) = .ok found) : name = found := by
  simp only [entryName] at named
  split at named
  · cases named
  · exact Except.ok.inj named

theorem placed_eq_ok {Value : Type} {origin path : String} {result : Except String Value}
    {value : Value} (accepted : placed origin path result = .ok value) : result = .ok value := by
  cases result with
  | error message => cases accepted
  | ok other => exact congrArg Except.ok (Except.ok.inj accepted)

/-- An entry whose value is refused is refused under its path. -/
theorem decode_entries_refused {Value : Type} {read : Tree → Except String Value}
    {origin part name : String} {old new : Tree} {before after : List (Tree × Tree)}
    {catalog : Catalog Value}
    (accepted : decodeEntries origin part read (.map (before ++ (.text name, old) :: after)) =
      .ok catalog)
    (refused : ∀ value, read old = .ok value → ∃ message, read new = .error message) :
    ∃ message, decodeEntries origin part read (.map (before ++ (.text name, new) :: after)) =
      .error (.invalid origin (part ++ "." ++ name) message) := by
  obtain ⟨values, decoded, _⟩ := map_eq_ok.mp accepted
  obtain ⟨_, passed⟩ := each_passed decoded
  obtain ⟨found, named, later⟩ := bind_eq_ok.mp passed
  have same := entry_name_eq_ok named
  subst same
  obtain ⟨value, placedOld, _⟩ := bind_eq_ok.mp later
  obtain ⟨message, stopped⟩ := refused value (placed_eq_ok placedOld)
  have entry : decodeEntry origin part read (.text name, new) =
      .error (.invalid origin (part ++ "." ++ name) message) := by
    rw [decodeEntry, named, ok_bind, stopped]
    rfl
  exact ⟨message, congrArg (Catalog.ofList <$> ·) (each_refused after decoded entry)⟩

theorem decode_entries_widened {Setting Record : Type} {form : RecordForm Setting Record}
    {unset : Record} {origin part name : String} {key value tree wider : Tree}
    (outside : key.OutsideOf (form.settings.map form.key))
    (widens : Tree.Widens key value [name] tree wider) {catalog : Catalog Record}
    (accepted : decodeEntries origin part (form.read unset) tree = .ok catalog) :
    ∃ message, decodeEntries origin part (form.read unset) wider =
      .error (.invalid origin (part ++ "." ++ name) message) := by
  cases widens with
  | under _ before after below =>
      exact decode_entries_refused accepted fun _ => RecordForm.read_widened outside below
  | tagged _ _ => cases accepted

namespace FragmentDocument

variable {origin : String} {document : FragmentDocument} {key value tree wider : Tree}

theorem set_section_widened {part : Section} (entries : part ≠ .ignored) {name : String}
    (outside : key.OutsideOf part.settingKeys) (widens : Tree.Widens key value [name] tree wider)
    {next : FragmentDocument} (accepted : document.setSection origin part tree = .ok next) :
    ∃ message, ∀ other : FragmentDocument, other.setSection origin part wider =
      .error (.invalid origin (part.key ++ "." ++ name) message) := by
  cases part with
  | ignored => exact absurd rfl entries
  | applets =>
      obtain ⟨catalog, decoded, _⟩ := bind_eq_ok.mp accepted
      obtain ⟨message, refused⟩ := decode_entries_widened outside widens decoded
      exact ⟨message, fun other => congrArg (· >>= _) refused⟩
  | volumes =>
      obtain ⟨catalog, decoded, _⟩ := bind_eq_ok.mp accepted
      obtain ⟨message, refused⟩ := decode_entries_widened outside widens decoded
      exact ⟨message, fun other => congrArg (· >>= _) refused⟩
  | networks =>
      obtain ⟨catalog, decoded, _⟩ := bind_eq_ok.mp accepted
      obtain ⟨message, refused⟩ := decode_entries_widened outside widens decoded
      exact ⟨message, fun other => congrArg (· >>= _) refused⟩

theorem read_section_eq {part : Section} :
    document.readSection origin (.text part.key, tree) = document.setSection origin part tree := by
  have known : section? part.key = some part := by cases part <;> decide
  simp only [readSection, known]

/-- A document with a section that nobody knows is refused for it. -/
theorem of_tree_unknown_section {name : String} (unknown : ∀ part, Section.key part ≠ name)
    (widens : Tree.Widens (.text name) value [] tree wider)
    (accepted : ofTree origin tree = .ok document) :
    ∃ message, ofTree origin wider = .error (.invalid origin name message) := by
  have absent : section? name = none :=
    List.find?_eq_none.mpr fun part _ same => unknown part (by simpa using same)
  have refused (state : FragmentDocument) : state.readSection origin (.text name, value) =
      .error (.invalid origin name ("unknown field, expected one of: " ++
        ", ".intercalate (Section.all.map Section.key))) := by
    simp only [readSection, absent]
  cases widens with
  | null =>
      have none : (([] : List (Tree × Tree)) ++ []).foldlM (readSection origin) .empty =
          .ok .empty := rfl
      exact ⟨_, fold_refused [] none refused⟩
  | map before after => exact ⟨_, fold_refused after accepted refused⟩
  | tagged _ _ => cases accepted

/-- A document of which an entry has a setting that nobody knows is refused for that entry. -/
theorem of_tree_unknown_setting {part : Section} (entries : part ≠ .ignored) {name : String}
    (outside : key.OutsideOf part.settingKeys)
    (widens : Tree.Widens key value [part.key, name] tree wider)
    (accepted : ofTree origin tree = .ok document) :
    ∃ message, ofTree origin wider =
      .error (.invalid origin (part.key ++ "." ++ name) message) := by
  cases widens with
  | @under _ before after _ old new below =>
      obtain ⟨state, next, passed⟩ := fold_passed accepted
      rw [read_section_eq] at passed
      obtain ⟨message, refused⟩ := set_section_widened entries outside below passed
      have stopped (other : FragmentDocument) :
          other.readSection origin (.text part.key, new) =
            .error (.invalid origin (part.key ++ "." ++ name) message) := by
        rw [read_section_eq, refused]
      exact ⟨message, fold_refused after accepted stopped⟩
  | tagged _ _ => cases accepted

/-- A written document is read back as it was, and nothing can be added to a tree that is accepted:
a key that the schema does not know is refused with its own path in the document itself, and with
the path of the entry in an entry. -/
theorem read_back_and_closed (origin : String) :
    (∀ document : FragmentDocument, document.Named →
      ofTree origin document.tree = .ok document) ∧
    ∀ tree document, ofTree origin tree = .ok document → ∀ value wider,
      (∀ name, (∀ part, Section.key part ≠ name) →
        Tree.Widens (.text name) value [] tree wider →
        ∃ message, ofTree origin wider = .error (.invalid origin name message)) ∧
      ∀ part : Section, part ≠ .ignored → ∀ name key, key.OutsideOf part.settingKeys →
        Tree.Widens key value [part.key, name] tree wider →
        ∃ message, ofTree origin wider =
          .error (.invalid origin (part.key ++ "." ++ name) message) := by
  refine ⟨fun document named => of_tree_tree named origin, ?_⟩
  intro tree document accepted value wider
  constructor
  · intro name unknown widens
    exact of_tree_unknown_section unknown widens accepted
  · intro part entries name key outside widens
    exact of_tree_unknown_setting entries outside widens accepted

/-- A web server in a document of its own. -/
def webTree : Tree :=
  .map [(.text "applets", .map [(.text "web", .map [(.text "image", .text "nginx")])])]

def mistypedTree : Tree :=
  .map [(.text "applets",
    .map [(.text "web", .map [(.text "image", .text "nginx"), (.text "imagee", .text "typo")])])]

theorem mistyped_setting_refused :
    (∃ document, ofTree "bad.dbx.yaml" webTree = .ok document) ∧
    Tree.Widens (.text "imagee") (.text "typo") ["applets", "web"] webTree mistypedTree ∧
    ∃ message, ofTree "bad.dbx.yaml" mistypedTree =
      .error (.invalid "bad.dbx.yaml" "applets.web" message) := by
  obtain ⟨document, accepted⟩ : ∃ document, ofTree "bad.dbx.yaml" webTree = .ok document :=
    ⟨_, rfl⟩
  have outside : (Tree.text "imagee").OutsideOf Section.applets.settingKeys := by
    intro name listed same
    cases same
    exact absurd listed (by decide)
  have widens : Tree.Widens (.text "imagee") (.text "typo") ["applets", "web"] webTree
      mistypedTree :=
    .under "applets" [] [] (.under "web" [] [] (.map [(.text "image", .text "nginx")] []))
  have closed := (read_back_and_closed "bad.dbx.yaml").2 webTree document accepted (.text "typo")
    mistypedTree
  exact ⟨⟨document, accepted⟩, widens, closed.2 .applets (by decide) "web" _ outside widens⟩

end FragmentDocument

end ContainerApplets
