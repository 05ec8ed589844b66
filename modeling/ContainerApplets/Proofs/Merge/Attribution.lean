import ContainerApplets.Proofs.Hooks.Offence
import ContainerApplets.Proofs.Merge.Setters

/-!
Whom a conflict is reported about. A fragment is checked against those before it, setting by
setting, and the first check that fails is reported. The conflict is therefore between the first
fragment that disagrees with an earlier one and the fragment that set the value first. Images and
hooks are looked at only if no check fails.
-/

namespace ContainerApplets

/-! ### The checks of a fragment -/

/-- What is checked when a fragment comes after others. -/
inductive Check
  | named (key : String)
  | agrees (setting : SingleSetting)

/-- An applet has its name checked first and then its settings, in their order. -/
def appletChecks (key : String) : List Check :=
  .named key :: SingleField.all.map fun field => .agrees (.applet key field)

def volumeChecks (key : String) : List Check :=
  ResourceSetting.all.map fun field => .agrees (.volume key field)

def networkChecks (key : String) : List Check :=
  ResourceSetting.all.map fun field => .agrees (.network key field)

/-- The applets come first, then the volumes and then the networks, all by their keys. -/
def Fragment.checks (fragment : Fragment) : List Check :=
  fragment.document.applets.names.flatMap appletChecks ++
  fragment.document.volumes.names.flatMap volumeChecks ++
  fragment.document.networks.names.flatMap networkChecks

/-- The fragment disagrees with none of the earlier ones. -/
def Check.Passes (earlier : List Fragment) (fragment : Fragment) : Check → Prop
  | .named key => fragment.NamesByKey key
  | .agrees setting => ∀ other ∈ earlier, ∀ known value, other.sets setting = some known →
      fragment.sets setting = some value → known = value

/-- A check that fails behind checks that pass. -/
structure FirstFault (earlier : List Fragment) (fragment : Fragment) (check : Check) : Prop where
  fails : ¬check.Passes earlier fragment
  first : ∃ ahead behind, fragment.checks = ahead ++ check :: behind ∧
    ∀ other ∈ ahead, other.Passes earlier fragment

/-- The complaint about an applet that is not named by its key. -/
def misnamed (origin key name : String) : Failure :=
  .invalid origin (Section.applets.key ++ "." ++ key ++ "." ++ AppletSetting.appletName.key)
    ("'" ++ name ++ "' does not match the applet key '" ++ key ++ "'")

theorem misnamed_ne_missing_image (origin key name other otherKey : String) :
    misnamed origin key name ≠ missingImage other otherKey := by
  intro same
  have message := congrArg String.toList (Failure.invalid.inj same).2.2
  simp [String.toList_append] at message

/-- How a failed check is reported. -/
inductive Check.Reports (earlier : List Fragment) (fragment : Fragment) : Check → Failure → Prop
  | misnamed {key name : String} {entry : AppletFragment}
      (found : fragment.document.applets.get? key = some entry)
      (named : entry.appletName = some name) (different : name ≠ key) :
      Reports earlier fragment (.named key) (misnamed fragment.origin key name)
  | conflict {setting : SingleSetting} {first : Slot SingleValue} {value : SingleValue}
      (held : firstSetter earlier setting = some first)
      (set : fragment.sets setting = some value) (different : first.value ≠ value) :
      Reports earlier fragment (.agrees setting) (.conflict ⟨setting.entity, setting.name,
        setting.field, first.value.shown, first.origin, value.shown, fragment.origin⟩)

/-! ### The first check that fails -/

section Fragments

variable {fragments earlier : List Fragment} {fragment : Fragment}

/-- The check of a fragment against the draft that was made of the earlier ones. -/
def Check.run (draft : Draft) (fragment : Fragment) : Check → Except Failure Unit
  | .named key =>
      match fragment.document.applets.get? key with
      | some entry => AppletDraft.checkName key fragment.origin entry
      | none => .ok ()
  | .agrees setting =>
      refuse (Slot.conflict? SingleValue.shown ⟨setting.entity, setting.name, fragment.origin⟩
        setting.field (draft.single setting) (fragment.sets setting)).toList

theorem refuse_append (conflicts more : List Conflict) :
    refuse (conflicts ++ more) = refuse conflicts >>= fun _ => refuse more := by
  cases conflicts <;> rfl

theorem refuse_filter_map {Item : Type} (read : Item → Option Conflict) (items : List Item) :
    refuse (items.filterMap read) = items.forM fun item => refuse (read item).toList := by
  induction items with
  | nil => rfl
  | cons item rest induction =>
      rw [← List.singleton_append, List.filterMap_append, refuse_append, filter_map_single,
        induction]
      rfl

theorem refuse_to_list_eq_error {conflict : Option Conflict} {failure : Failure} :
    refuse conflict.toList = .error failure ↔
      ∃ found, conflict = some found ∧ failure = .conflict found := by
  cases conflict <;> simp [refuse, eq_comm]

theorem AppletDraft.check_name_eq_error {key origin : String} {entry : AppletFragment}
    {failure : Failure} :
    checkName key origin entry = .error failure ↔
      ∃ name, entry.appletName = some name ∧ name ≠ key ∧ failure = misnamed origin key name := by
  unfold checkName
  split
  · next unnamed => simp [unnamed]
  · next name named =>
    by_cases same : name = key <;> simp [named, same, misnamed, @eq_comm _ failure]

namespace Absorption

variable {AnyDraft Entry : Type} {kind : Absorption AnyDraft Entry}

/-- The entries of a fragment have names of their own, so each meets the draft that was there before
the fragment. -/
theorem discard_take_all {origin : String} {entries : List (String × Entry)}
    (ordered : NameOrdered entries) (drafts : Catalog AnyDraft) :
    (discard (kind.takeAll origin drafts entries) : Except Failure Unit) =
      entries.forM fun entry => discard (kind.absorb origin entry.1
        ((drafts.get? entry.1).getD (kind.start origin)) entry.2) := by
  induction entries generalizing drafts with
  | nil => rfl
  | cons entry rest induction =>
      obtain ⟨apart, tail⟩ := List.pairwise_cons.mp ordered
      -- Whatever the first entry puts into the drafts, the others do not look there.
      have later (draft : AnyDraft) :
          (discard (kind.takeAll origin (drafts.insert entry.1 draft) rest) :
            Except Failure Unit) = rest.forM fun other => discard (kind.absorb origin other.1
              ((drafts.get? other.1).getD (kind.start origin)) other.2) := by
        rw [induction tail]
        refine for_each_congr fun other member => ?_
        have different : other.1 ≠ entry.1 :=
          fun same => String.lt_irrefl _ (same ▸ apart other member)
        rw [Catalog.get_insert, if_neg different]
      rw [takeAll, List.foldlM_cons, take, bind_assoc]
      exact discard_bind later

theorem discard_take_catalog {origin : String} {catalog : Catalog Entry}
    {drafts : Catalog AnyDraft} {checks : String → List Check}
    {run : Check → Except Failure Unit}
    (absorbed : ∀ key entry, catalog.get? key = some entry →
      (discard (kind.absorb origin key ((drafts.get? key).getD (kind.start origin)) entry) :
        Except Failure Unit) = (checks key).forM run) :
    (discard (kind.takeAll origin drafts catalog.entries) : Except Failure Unit) =
      (catalog.names.flatMap checks).forM run := by
  rw [discard_take_all catalog.ordered, Catalog.names, List.flatMap_map, for_each_flat_map]
  refine for_each_congr fun entry member => ?_
  exact absorbed entry.1 entry.2 (Catalog.mem_entries.mp member)

end Absorption

theorem AppletDraft.discard_absorb (draft : AppletDraft) (key origin : String)
    (entry : AppletFragment) :
    (discard (draft.absorb key origin entry) : Except Failure Unit) =
      checkName key origin entry >>= fun _ =>
        refuse (draft.conflicts ⟨"applet", key, origin⟩ entry) := by
  rw [absorb]
  cases checkName key origin entry with
  | error _ => rfl
  | ok _ => exact discard_check _

theorem ResourceDraft.discard_absorb (draft : ResourceDraft) (entity key origin : String)
    (entry : ResourceFragment) :
    (discard (draft.absorb entity key origin entry) : Except Failure Unit) =
      refuse (draft.conflicts ⟨entity, key, origin⟩ entry) :=
  discard_check _

/-- Volumes and networks are checked alike. -/
theorem ResourceDraft.discard_take_catalog {entity origin : String}
    {catalog : Catalog ResourceFragment} {drafts : Catalog ResourceDraft}
    {check : String → ResourceSetting → Check} {run : Check → Except Failure Unit}
    (compared : ∀ key entry, catalog.get? key = some entry → ∀ field, run (check key field) =
      refuse (Slot.conflict? SingleValue.shown ⟨entity, key, origin⟩ field.key
        ((drafts.get? key).bind fun draft => draft.single field) (entry.single field)).toList) :
    (discard ((absorption entity).takeAll origin drafts catalog.entries) : Except Failure Unit) =
      (catalog.names.flatMap fun key => ResourceSetting.all.map (check key)).forM run := by
  refine Absorption.discard_take_catalog fun key entry found => ?_
  refine (discard_absorb _ _ _ _ _).trans ?_
  rw [conflicts_eq_singles, refuse_filter_map, for_each_map]
  refine for_each_congr fun field _ => ?_
  rw [compared key entry found field]
  exact congrArg (fun slot => refuse (Slot.conflict? _ _ _ slot _).toList)
    ((keeps_first entity field).begun (drafts.get? key) origin)

namespace Draft

theorem discard_take_applets (draft : Draft) (fragment : Fragment) :
    (discard (AppletDraft.absorption.takeAll fragment.origin draft.applets
      fragment.document.applets.entries) : Except Failure Unit) =
      (fragment.document.applets.names.flatMap appletChecks).forM (Check.run draft fragment) := by
  refine Absorption.discard_take_catalog fun key entry found => ?_
  refine (AppletDraft.discard_absorb _ _ _ _).trans ?_
  rw [AppletDraft.conflicts_eq_singles, refuse_filter_map]
  change _ = Check.run draft fragment (.named key) >>= fun _ => List.forM _ _
  rw [for_each_map, Check.run, found]
  refine congrArg _ (funext fun _ => for_each_congr fun field _ => ?_)
  rw [Check.run, Fragment.sets, found]
  exact congrArg (fun slot => refuse (Slot.conflict? _ _ _ slot _).toList)
    ((AppletDraft.keeps_first field).begun (draft.applets.get? key) fragment.origin)

theorem discard_take_volumes (draft : Draft) (fragment : Fragment) :
    (discard ((ResourceDraft.absorption "volume").takeAll fragment.origin draft.volumes
      fragment.document.volumes.entries) : Except Failure Unit) =
      (fragment.document.volumes.names.flatMap volumeChecks).forM (Check.run draft fragment) := by
  refine ResourceDraft.discard_take_catalog fun key entry found field => ?_
  rw [Check.run, Fragment.sets, found]
  rfl

theorem discard_take_networks (draft : Draft) (fragment : Fragment) :
    (discard ((ResourceDraft.absorption "network").takeAll fragment.origin draft.networks
      fragment.document.networks.entries) : Except Failure Unit) =
      (fragment.document.networks.names.flatMap networkChecks).forM
        (Check.run draft fragment) := by
  refine ResourceDraft.discard_take_catalog fun key entry found field => ?_
  rw [Check.run, Fragment.sets, found]
  rfl

/-- A fragment is added exactly if its checks are passed, and the first that is not is the one that
refuses it. -/
theorem discard_add (draft : Draft) (fragment : Fragment) :
    (discard (draft.add fragment) : Except Failure Unit) =
      fragment.checks.forM (Check.run draft fragment) := by
  rw [Fragment.checks, for_each_append, for_each_append, ← discard_take_applets,
    ← discard_take_volumes, ← discard_take_networks, bind_assoc]
  exact discard_bind fun _ => discard_bind fun _ => discard_bind_ok _

end Draft

/-! ### Which failure is reported -/

theorem Check.run_eq_ok {draft : Draft} (made : Draft.ofFragments earlier = .ok draft)
    {check : Check} : check.run draft fragment = .ok () ↔ check.Passes earlier fragment := by
  cases check with
  | named key =>
      rw [run, Passes, Fragment.NamesByKey]
      cases fragment.document.applets.get? key with
      | none => simp
      | some entry => simp [AppletDraft.check_name_eq_ok]
  | agrees setting =>
      have agree := (concordant_iff_drafted.mpr ⟨draft, made⟩).agree setting
      rw [run, refuse_eq_ok, Option.toList_eq_nil_iff, Slot.conflict_eq_none,
        Draft.single_of_fragments made, first_setter_value]
      constructor
      · intro free other member known value knownSet set
        have first := agree.first_set (List.mem_map.mpr ⟨other, member, knownSet⟩)
        exact free known value first set
      · intro passes known value first set
        obtain ⟨other, member, knownSet⟩ := List.mem_map.mp (mem_of_first_set first)
        exact passes other member known value knownSet set

theorem Check.run_eq_error {draft : Draft} (made : Draft.ofFragments earlier = .ok draft)
    {check : Check} {failure : Failure} :
    check.run draft fragment = .error failure ↔ check.Reports earlier fragment failure := by
  constructor
  · intro refused
    cases check with
    | named key =>
        rw [run] at refused
        split at refused
        · next entry found =>
          obtain ⟨name, named, different, rfl⟩ := AppletDraft.check_name_eq_error.mp refused
          exact .misnamed found named different
        · exact nomatch refused
    | agrees setting =>
        obtain ⟨found, conflict, rfl⟩ := refuse_to_list_eq_error.mp refused
        obtain ⟨first, value, held, set, different, rfl⟩ := Slot.conflict_eq_some.mp conflict
        rw [Draft.single_of_fragments made] at held
        exact .conflict held set different
  · intro reported
    cases reported with
    | misnamed found named different =>
        rw [run, found]
        exact AppletDraft.check_name_eq_error.mpr ⟨_, named, different, rfl⟩
    | conflict held set different =>
        rw [← Draft.single_of_fragments made] at held
        refine refuse_to_list_eq_error.mpr ⟨_, Slot.conflict_eq_some.mpr ?_, rfl⟩
        exact ⟨_, _, held, set, different, rfl⟩

theorem Draft.add_eq_error {draft : Draft} (made : ofFragments earlier = .ok draft)
    {failure : Failure} :
    draft.add fragment = .error failure ↔
      ∃ check, FirstFault earlier fragment check ∧ check.Reports earlier fragment failure := by
  rw [← discard_eq_error, discard_add, for_each_eq_error]
  constructor
  · intro refused
    obtain ⟨ahead, check, behind, split, passed, refused⟩ := refused
    refine ⟨check, ⟨?_, ahead, behind, split, ?_⟩, (Check.run_eq_error made).mp refused⟩
    · intro passes
      exact nomatch refused.symm.trans ((Check.run_eq_ok made).mpr passes)
    · exact fun other member => (Check.run_eq_ok made).mp (passed other member)
  · intro fault
    obtain ⟨check, ⟨_, ahead, behind, split, passed⟩, reports⟩ := fault
    exact ⟨ahead, check, behind, split,
      fun other member => (Check.run_eq_ok made).mpr (passed other member),
      (Check.run_eq_error made).mpr reports⟩

/-- Fragments are not drafted exactly if one of them fails a check against those before it. -/
theorem Draft.of_fragments_eq_error {failure : Failure} :
    ofFragments fragments = .error failure ↔ ∃ earlier fragment after check,
      fragments = earlier ++ fragment :: after ∧ Concordant earlier ∧
      FirstFault earlier fragment check ∧ check.Reports earlier fragment failure := by
  rw [ofFragments, fold_eq_error]
  constructor
  · intro refused
    obtain ⟨earlier, fragment, after, draft, split, made, refused⟩ := refused
    obtain ⟨check, fault, reports⟩ := (add_eq_error made).mp refused
    exact ⟨earlier, fragment, after, check, split, concordant_iff_drafted.mpr ⟨draft, made⟩, fault,
      reports⟩
  · intro fault
    obtain ⟨earlier, fragment, after, check, split, concordant, fault, reports⟩ := fault
    obtain ⟨draft, made⟩ := concordant_iff_drafted.mp concordant
    exact ⟨earlier, fragment, after, draft, split, made,
      (add_eq_error made).mpr ⟨check, fault, reports⟩⟩

theorem Draft.check_image_eq_error {applet : AppletDraft} {key : String} {failure : Failure} :
    applet.checkImage key = .error failure ↔
      (applet.applet key).image = "" ∧ failure = missingImage applet.origin key := by
  unfold AppletDraft.checkImage
  by_cases empty : (applet.applet key).image = "" <;> simp [empty, @eq_comm _ failure]

/-- Of a draft the images and the hooks are left to check. -/
theorem Draft.finish_refused {draft : Draft} {failure : Failure}
    (refused : draft.finish = .error failure) :
    (∃ origin key, failure = missingImage origin key) ∨ (∃ applet, failure = .cycle applet) ∨
      ∃ side name referrer, failure = .missingHook side name referrer := by
  rw [finish, check_bind_eq_error, check_bind_eq_error, for_each_eq_error] at refused
  rcases refused with ⟨_, entry, _, _, _, imageless⟩ | ⟨_, hooked | ⟨_, made⟩⟩
  · exact .inl ⟨_, _, (check_image_eq_error.mp imageless).2⟩
  · right
    rw [AppletTable.validate, for_each_eq_error] at hooked
    obtain ⟨_, applet, _, _, _, walked⟩ := hooked
    rcases AppletTable.walk_error (discard_eq_error.mp walked) with
      ⟨name, cycle, _⟩ | ⟨side, name, _, referrer, missing, _⟩
    · exact .inl ⟨name, cycle⟩
    · exact .inr ⟨side, name, referrer.appletName, missing⟩
  · cases made

/-- A conflict comes from the fragments and never from the checks of the table. -/
theorem merge_eq_conflict_iff {found : Conflict} :
    merge fragments = .error (.conflict found) ↔
      Draft.ofFragments fragments = .error (.conflict found) := by
  rw [merge, bind_eq_error]
  refine or_iff_left ?_
  intro finished
  obtain ⟨draft, _, refused⟩ := finished
  rcases Draft.finish_refused refused with ⟨_, _, image⟩ | ⟨_, cycle⟩ | ⟨_, _, _, missing⟩
  · cases image
  · cases cycle
  · cases missing

/-- Fragments that are not concordant are refused by a check of one of them. -/
theorem discordant_refused (discordant : ¬Concordant fragments) :
    ∃ failure, merge fragments = .error failure ∧ ∃ earlier fragment check,
      Check.Reports earlier fragment check failure := by
  cases drafted : Draft.ofFragments fragments with
  | ok draft => exact absurd (concordant_iff_drafted.mpr ⟨draft, drafted⟩) discordant
  | error failure =>
      obtain ⟨earlier, fragment, _, check, _, _, _, reports⟩ :=
        Draft.of_fragments_eq_error.mp drafted
      exact ⟨failure, bind_eq_error.mpr (.inl drafted), earlier, fragment, check, reports⟩

/-- Conflicts are attributed to the fragments that disagree. A merge reports a conflict exactly if a
fragment sets a setting to another value than the first that set it, the fragments before it are
concordant, and no check of the fragment fails ahead of this one; the conflict tells the two values
and the two origins. And as soon as two fragments set a setting to different values, a disagreement
is reported, and neither a missing image nor anything about the hooks. -/
theorem conflicts_attributed (fragments : List Fragment) :
    (∀ found, merge fragments = .error (.conflict found) ↔
      ∃ before first between second after setting known value,
        fragments = before ++ first :: between ++ second :: after ∧
        (∀ fragment ∈ before, fragment.sets setting = none) ∧
        first.sets setting = some known ∧ second.sets setting = some value ∧ known ≠ value ∧
        Concordant (before ++ first :: between) ∧
        FirstFault (before ++ first :: between) second (.agrees setting) ∧
        found = ⟨setting.entity, setting.name, setting.field, known.shown, first.origin,
          value.shown, second.origin⟩) ∧
    (∀ left ∈ fragments, ∀ right ∈ fragments, ∀ setting known value,
      left.sets setting = some known → right.sets setting = some value → known ≠ value →
      ∃ failure, merge fragments = .error failure ∧
        ((∃ found, failure = .conflict found) ∨
          ∃ origin key name, name ≠ key ∧ failure = misnamed origin key name) ∧
        (∀ origin key, failure ≠ missingImage origin key) ∧
        (∀ applet, failure ≠ .cycle applet) ∧
        ∀ side name referrer, failure ≠ .missingHook side name referrer) := by
  constructor
  · intro found
    rw [merge_eq_conflict_iff, Draft.of_fragments_eq_error]
    constructor
    · intro refused
      obtain ⟨earlier, second, after, check, rfl, concordant, fault, reports⟩ := refused
      cases reports with
      | conflict held set different =>
          obtain ⟨before, first, between, rfl, unset, knownSet, origin⟩ :=
            first_setter_eq_some.mp held
          exact ⟨before, first, between, second, after, _, _, _, rfl, unset, knownSet, set,
            different, concordant, fault, by rw [origin]⟩
    · intro disagreement
      obtain ⟨before, first, between, second, after, setting, known, value, rfl, unset, knownSet,
        set, different, concordant, fault, rfl⟩ := disagreement
      have held : firstSetter (before ++ first :: between) setting = some ⟨known, first.origin⟩ :=
        first_setter_eq_some.mpr ⟨before, first, between, rfl, unset, knownSet, rfl⟩
      exact ⟨_, second, after, _, rfl, concordant, fault, .conflict held set different⟩
  · intro left leftMember right rightMember setting known value knownSet set different
    have discordant : ¬Concordant fragments := fun concordant =>
      different (concordant.agree setting known value
        (List.mem_map.mpr ⟨left, leftMember, knownSet⟩)
        (List.mem_map.mpr ⟨right, rightMember, set⟩))
    obtain ⟨failure, refused, earlier, fragment, check, reports⟩ := discordant_refused discordant
    refine ⟨failure, refused, ?_⟩
    cases reports with
    | conflict held set different => simp [missingImage]
    | misnamed found named different =>
        refine ⟨.inr ⟨_, _, _, different, rfl⟩, misnamed_ne_missing_image _ _ _, ?_, ?_⟩
        · simp [misnamed]
        · simp [misnamed]

/-- The second fragment agrees with the first, so the third disagrees with the first, and that
`web` lists itself as a hook is not reported. -/
example : merge [⟨"a", .ofApplet "web" (.ofImage "nginx" [])⟩,
      ⟨"b", .ofApplet "web" (.ofImage "nginx" ["web"])⟩,
      ⟨"c", .ofApplet "web" (.ofImage "httpd" [])⟩] =
    .error (.conflict ⟨"applet", "web", "image", "\"nginx\"", "a", "\"httpd\"", "c"⟩) := by
  decide

end Fragments

end ContainerApplets
