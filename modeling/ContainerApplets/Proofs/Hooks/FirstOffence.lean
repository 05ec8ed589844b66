import ContainerApplets.Proofs.Hooks.Expansion

/-!
A refused walk reports the first offence in the order of expansion. Up to there every hook has named
an applet of the table and no two applets have had one name; there, a hook names nothing or an
applet has a name that was met before.
-/

namespace ContainerApplets

/-- What is expanded ahead of the end of a path. -/
def pathsAhead (path : List HookPosition) : Set (List HookPosition) :=
  {other | PathPrecedes other path}

/-- What has been expanded when the end of a path and all below it have been. -/
def pathsThrough (path : List HookPosition) : Set (List HookPosition) :=
  {other | PathPrecedes other path ∨ path <+: other}

theorem mem_paths_ahead_first {path stem : List HookPosition} :
    path ∈ pathsAhead (stem ++ [⟨.before, 0⟩]) ↔ path ∈ pathsAhead stem ∨ path = stem := by
  change PathPrecedes path _ ↔ PathPrecedes path stem ∨ _
  rw [PathPrecedes.concat_iff]
  simp [HookPosition.not_precedes_first]

theorem paths_ahead_next (stem : List HookPosition) (side : HookSide) (index : Nat) :
    pathsAhead (stem ++ [⟨side, index + 1⟩]) = pathsThrough (stem ++ [⟨side, index⟩]) := by
  ext path
  change PathPrecedes path _ ↔ PathPrecedes path _ ∨ _
  rw [PathPrecedes.concat_iff, PathPrecedes.concat_iff]
  have below : (stem ++ [⟨side, index⟩] <+: path) ↔
      ∃ rest, path = stem ++ ⟨side, index⟩ :: rest := by
    constructor
    · intro within
      obtain ⟨rest, rfl⟩ := within
      exact ⟨rest, by simp⟩
    · intro within
      obtain ⟨rest, rfl⟩ := within
      exact ⟨rest, by simp⟩
  rw [below]
  simp only [HookPosition.precedes_next_iff, and_or_left, exists_or, or_assoc]
  simp

namespace AppletTable

variable {table : AppletTable} {root : Applet}

/-- At these paths every hook is found and no two applets have one name. -/
structure Faultless (table : AppletTable) (root : Applet) (paths : Set (List HookPosition)) :
    Prop where
  found : ∀ path ∈ paths, ∀ referrer side name, table.HookAt root path referrer side name →
    ∃ target, table.get? name = some target
  distinct : ∀ path ∈ paths, ∀ other ∈ paths, ∀ left right, table.follow root path = some left →
    table.follow root other = some right → left.appletName = right.appletName → path = other

/-- What can be wrong at the end of a path, and how it is reported. -/
inductive OffenceAt (table : AppletTable) (root : Applet) : List HookPosition → Failure → Prop
  | missing {path : List HookPosition} {referrer : Applet} {side : HookSide} {name : String}
      (hook : table.HookAt root path referrer side name) (absent : table.get? name = none) :
      OffenceAt table root path (.missingHook side name referrer.appletName)
  | again {path earlier : List HookPosition} {applet other : Applet}
      (follows : table.follow root path = some applet) (precedes : PathPrecedes earlier path)
      (met : table.follow root earlier = some other)
      (same : other.appletName = applet.appletName) :
      OffenceAt table root path (.cycle applet.appletName)

/-- An offence ahead of which there is none. -/
structure FirstOffence (table : AppletTable) (root : Applet) (path : List HookPosition)
    (failure : Failure) : Prop where
  offends : table.OffenceAt root path failure
  faultless : table.Faultless root (pathsAhead path)

/-! ### What a walk has explored -/

/-- A walk has entered the applets at these paths and found no fault with them. -/
structure Explored (table : AppletTable) (root : Applet) (paths : Set (List HookPosition))
    (entered : List String) : Prop extends Faultless table root paths where
  entered_iff : ∀ name, name ∈ entered ↔ ∃ path ∈ paths, ∃ applet,
    table.follow root path = some applet ∧ applet.appletName = name

/-- Paths at which nothing stands make no difference. -/
theorem Explored.congr {paths others : Set (List HookPosition)} {entered : List String}
    (explored : table.Explored root paths entered)
    (same : ∀ path, table.Stands root path → (path ∈ paths ↔ path ∈ others)) :
    table.Explored root others entered where
  found := fun path member referrer side name hook =>
    explored.found path ((same path (.inr ⟨referrer, side, name, hook⟩)).mpr member) referrer side
      name hook
  distinct := fun path member other otherMember left right follows again named =>
    explored.distinct path ((same path (stands_of_follow follows)).mpr member) other
      ((same other (stands_of_follow again)).mpr otherMember) left right follows again named
  entered_iff := fun name => by
    rw [explored.entered_iff]
    refine exists_congr fun path => and_congr_left fun reached => ?_
    obtain ⟨applet, follows, _⟩ := reached
    exact same path (stands_of_follow follows)

theorem explored_nothing : table.Explored root (pathsAhead []) [] where
  found := fun path member => absurd member List.not_lex_nil
  distinct := fun path member => absurd member List.not_lex_nil
  entered_iff := fun name => by simp [pathsAhead, PathPrecedes]

/-- Entering an applet with a new name explores the end of one more path. -/
theorem Explored.enter {path : List HookPosition} {applet : Applet} {entered : List String}
    (explored : table.Explored root (pathsAhead path) entered)
    (follows : table.follow root path = some applet) (fresh : applet.appletName ∉ entered) :
    table.Explored root (pathsAhead (path ++ [⟨.before, 0⟩])) (applet.appletName :: entered) where
  found := fun other member referrer side name hook => by
    rcases mem_paths_ahead_first.mp member with earlier | rfl
    · exact explored.found other earlier referrer side name hook
    · exact ⟨applet, hook.follow_eq.symm.trans follows⟩
  distinct := fun first firstMember second secondMember left right leads again same => by
    have unmet {other : List HookPosition} {last : Applet} (earlier : other ∈ pathsAhead path)
        (reached : table.follow root other = some last) : last.appletName ≠ applet.appletName :=
      fun named => fresh ((explored.entered_iff _).mpr ⟨other, earlier, last, reached, named⟩)
    rcases mem_paths_ahead_first.mp firstMember with firstEarlier | rfl <;>
      rcases mem_paths_ahead_first.mp secondMember with secondEarlier | rfl
    · exact explored.distinct first firstEarlier second secondEarlier left right leads again same
    · cases follows.symm.trans again
      exact absurd same (unmet firstEarlier leads)
    · cases follows.symm.trans leads
      exact absurd same.symm (unmet secondEarlier again)
    · rfl
  entered_iff := fun name => by
    rw [List.mem_cons, explored.entered_iff]
    constructor
    · intro either
      rcases either with rfl | ⟨other, earlier, last, reached, named⟩
      · exact ⟨path, mem_paths_ahead_first.mpr (.inr rfl), applet, follows, rfl⟩
      · exact ⟨other, mem_paths_ahead_first.mpr (.inl earlier), last, reached, named⟩
    · intro met
      obtain ⟨other, member, last, reached, named⟩ := met
      rcases mem_paths_ahead_first.mp member with earlier | rfl
      · exact .inr ⟨other, earlier, last, reached, named⟩
      · cases follows.symm.trans reached
        exact .inl named.symm

/-- When the before hooks have been followed, the after hooks are next. -/
theorem Explored.between {path : List HookPosition} {applet : Applet} {entered : List String}
    (follows : table.follow root path = some applet)
    (explored : table.Explored root
      (pathsAhead (path ++ [⟨.before, (applet.hooks .before).length⟩])) entered) :
    table.Explored root (pathsAhead (path ++ [⟨.after, 0⟩])) entered := by
  refine explored.congr fun other stands => ?_
  change PathPrecedes other _ ↔ PathPrecedes other _
  rw [PathPrecedes.concat_iff, PathPrecedes.concat_iff]
  refine or_congr_right (or_congr_right (exists_congr fun position => exists_congr fun rest => ?_))
  refine and_congr_right fun whole => ?_
  subst whole
  have bound := stands.bound follows
  rw [HookPosition.precedes_before_iff, HookPosition.precedes_after_iff]
  constructor
  · exact fun precedes => .inl precedes.1
  · intro precedes
    rcases precedes with before | ⟨_, negative⟩
    · exact ⟨before, before ▸ bound⟩
    · exact absurd negative (Nat.not_lt_zero _)

/-- When the after hooks have been followed too, all below the applet has been expanded. -/
theorem Explored.complete {path : List HookPosition} {applet : Applet} {entered : List String}
    (follows : table.follow root path = some applet)
    (explored : table.Explored root
      (pathsAhead (path ++ [⟨.after, (applet.hooks .after).length⟩])) entered) :
    table.Explored root (pathsThrough path) entered := by
  refine explored.congr fun other stands => ?_
  change PathPrecedes other _ ↔ PathPrecedes other _ ∨ _
  rw [PathPrecedes.concat_iff]
  refine or_congr_right ⟨?_, ?_⟩
  · intro expanded
    rcases expanded with rfl | ⟨position, rest, rfl, _⟩
    · exact List.prefix_refl _
    · exact List.prefix_append _ _
  · intro within
    obtain ⟨rest, rfl⟩ := within
    cases rest with
    | nil => exact .inl (List.append_nil path)
    | cons position rest =>
        have bound := stands.bound follows
        refine .inr ⟨position, rest, rfl, HookPosition.precedes_after_iff.mpr ?_⟩
        cases side : position.side with
        | before => exact .inl rfl
        | after => exact .inr ⟨rfl, side ▸ bound⟩

/-- Where an errand stands in the expansion of the root: what is explored when it is begun and when
it is done. -/
inductive Placed (table : AppletTable) (root : Applet) :
    Errand → Set (List HookPosition) → Set (List HookPosition) → Prop
  | visit {path : List HookPosition} {applet : Applet}
      (follows : table.follow root path = some applet) :
      Placed table root (.visit applet) (pathsAhead path) (pathsThrough path)
  | hooks {path : List HookPosition} {referrer : Applet} {side : HookSide}
      {followed names : List String} (follows : table.follow root path = some referrer)
      (listed : referrer.hooks side = followed ++ names) :
      Placed table root (.hooks referrer side names)
        (pathsAhead (path ++ [⟨side, followed.length⟩]))
        (pathsAhead (path ++ [⟨side, (referrer.hooks side).length⟩]))

/-- What an errand comes to: all of its part explored, or the first offence of the root. -/
def Ends (table : AppletTable) (root : Applet) (stop : Set (List HookPosition)) :
    Except Failure Walk → Prop
  | .ok last => table.Explored root stop last.entered
  | .error failure => ∃ path, table.FirstOffence root path failure

theorem Runs.ends {errand : Errand} {walk : Walk} {outcome : Except Failure Walk}
    (run : table.Runs errand walk outcome) {start stop : Set (List HookPosition)}
    (placed : table.Placed root errand start stop)
    (explored : table.Explored root start walk.entered) : table.Ends root stop outcome := by
  -- Along the run, with the place of the errand: an offence is one of the root at once.
  induction run generalizing start stop with
  | again entered =>
      cases placed with
      | @visit path _ follows =>
          obtain ⟨earlier, ahead, other, met, same⟩ := (explored.entered_iff _).mp entered
          exact ⟨path, .again follows ahead met same, explored.toFaultless⟩
  | failsBefore fresh _ before =>
      cases placed with
      | visit follows =>
          have refused := before (.hooks follows (List.nil_append _).symm)
            (explored.enter follows fresh)
          exact refused
  | @passes applet walk between outcome fresh _ _ before after =>
      cases placed with
      | visit follows =>
          have inside := before (.hooks follows (List.nil_append _).symm)
            (explored.enter follows fresh)
          have beyond := after (.hooks follows (List.nil_append _).symm)
            (Explored.between follows inside)
          cases outcome with
          | error failure => exact beyond
          | ok last => exact Explored.complete follows beyond
  | done =>
      cases placed with
      | hooks follows listed =>
          rw [List.append_nil] at listed
          rw [listed]
          exact explored
  | missing absent =>
      cases placed with
      | hooks follows listed =>
          refine ⟨_, .missing (hook_at_concat_iff.mpr ⟨follows, rfl, ?_⟩) absent,
            explored.toFaultless⟩
          simp [listed]
  | targetFails found _ visit =>
      cases placed with
      | hooks follows listed =>
          have refused := visit (.visit (follow_listed follows listed found)) explored
          exact refused
  | next found _ _ visit later =>
      cases placed with
      | @hooks path _ _ followed _ follows listed =>
          have expanded := visit (.visit (follow_listed follows listed found)) explored
          have along := listed.trans (List.append_cons followed _ _)
          refine later (.hooks follows along) ?_
          rw [List.length_append, List.length_singleton, paths_ahead_next]
          exact expanded

theorem ends_walk (table : AppletTable) (root : Applet) :
    table.Ends root (pathsThrough []) (table.walk root) :=
  (runs_walk table root).ends (.visit rfl) explored_nothing

/-! ### One first offence -/

/-- Where nothing is at fault there is no offence. -/
theorem Faultless.no_offence {paths : Set (List HookPosition)}
    (faultless : table.Faultless root paths) {path : List HookPosition} {failure : Failure}
    (offends : table.OffenceAt root path failure) (member : path ∈ paths)
    (closed : ∀ other, PathPrecedes other path → other ∈ paths) : False := by
  cases offends with
  | missing hook absent =>
      obtain ⟨target, found⟩ := faultless.found path member _ _ _ hook
      simp [absent] at found
  | @again earlier _ _ follows precedes met same =>
      have equal := faultless.distinct earlier (closed earlier precedes) path member _ _ met
        follows same
      subst equal
      exact PathPrecedes.irrefl _ precedes

theorem OffenceAt.unique {path : List HookPosition} {left right : Failure}
    (first : table.OffenceAt root path left) (second : table.OffenceAt root path right) :
    left = right := by
  cases first with
  | missing hook absent =>
      have nowhere := hook.follow_eq.trans absent
      cases second with
      | missing same _ =>
          obtain ⟨rfl, rfl, rfl⟩ := hook.unique same
          rfl
      | again follows _ _ _ => exact nomatch nowhere.symm.trans follows
  | again follows _ _ _ =>
      cases second with
      | missing hook absent => exact nomatch (hook.follow_eq.trans absent).symm.trans follows
      | again leads _ _ _ =>
          cases follows.symm.trans leads
          rfl

theorem FirstOffence.unique {path other : List HookPosition} {left right : Failure}
    (first : table.FirstOffence root path left) (second : table.FirstOffence root other right) :
    left = right := by
  have apart {early late : List HookPosition} {failure reported : Failure}
      (one : table.FirstOffence root early failure)
      (two : table.FirstOffence root late reported) : ¬PathPrecedes early late :=
    fun precedes => two.faultless.no_offence one.offends precedes fun _ => (·.trans precedes)
  rcases PathPrecedes.total path other with earlier | rfl | later
  · exact absurd earlier (apart first second)
  · exact first.offends.unique second.offends
  · exact absurd later (apart second first)

/-- A walk is refused exactly for the first offence, if there is one. -/
theorem walk_eq_error_iff {failure : Failure} :
    table.walk root = .error failure ↔ ∃ path, table.FirstOffence root path failure := by
  have ends := ends_walk table root
  constructor
  · intro refused
    rw [refused] at ends
    exact ends
  · intro offence
    obtain ⟨path, first⟩ := offence
    cases walked : table.walk root with
    | error reported =>
        rw [walked] at ends
        obtain ⟨other, second⟩ := ends
        rw [second.unique first]
    | ok last =>
        rw [walked] at ends
        exact (ends.no_offence first.offends (.inr List.nil_prefix)
          fun _ _ => .inr List.nil_prefix).elim

/-! ### Who reports it -/

theorem closure_eq_error_iff {failure : Failure} :
    table.closure root = .error failure ↔ table.walk root = .error failure := by
  rw [closure, map_eq_error]

theorem resolve_eq_error_iff {extra : List String} {options : RunOptions} {failure : Failure} :
    table.resolve root extra options = .error failure ↔ table.closure root = .error failure := by
  rw [resolve]
  cases table.closure root <;> simp

theorem plan_eq_error_iff {extra : List String} {options : RunOptions} {failure : Failure} :
    table.plan root extra options = .error failure ↔ table.closure root = .error failure := by
  rw [plan]
  cases table.closure root <;> simp

/-- A table is refused for the first applet in name order that cannot be expanded. -/
theorem validate_eq_error_iff {failure : Failure} :
    table.validate = .error failure ↔ ∃ name applet, table.get? name = some applet ∧
      table.closure applet = .error failure ∧
      ∀ earlier other, earlier < name → table.get? earlier = some other →
        ∃ order, table.closure other = .ok order := by
  have expanded {applet : Applet} :
      (discard (table.walk applet) : Except Failure Unit) = .ok () ↔
        ∃ order, table.closure applet = .ok order := by
    rw [discard_eq_ok]
    simp [closure, map_eq_ok]
  have refused {applet : Applet} :
      (discard (table.walk applet) : Except Failure Unit) = .error failure ↔
        table.closure applet = .error failure := by
    rw [discard_eq_error, closure_eq_error_iff]
  rw [validate, for_each_eq_error]
  constructor
  · intro first
    obtain ⟨before, applet, after, split, passed, failed⟩ := first
    obtain ⟨ahead, rest, entries, rfl, others⟩ := List.map_eq_append_iff.mp split
    obtain ⟨entry, behind, rfl, rfl, rfl⟩ := List.map_eq_cons_iff.mp others
    refine ⟨entry.1, entry.2, Catalog.mem_entries.mp (by simp [entries]), refused.mp failed, ?_⟩
    intro name other less found
    have member : (name, other) ∈ ahead :=
      (Catalog.mem_ahead_iff entries).mpr ⟨Catalog.mem_entries.mpr found, less⟩
    exact expanded.mp (passed other (List.mem_map_of_mem member))
  · intro first
    obtain ⟨name, applet, found, failed, passed⟩ := first
    obtain ⟨ahead, behind, entries⟩ := List.append_of_mem (Catalog.mem_entries.mpr found)
    refine ⟨ahead.map Prod.snd, applet, behind.map Prod.snd, ?_, ?_, refused.mpr failed⟩
    · rw [Catalog.values, entries]
      simp
    · intro other member
      obtain ⟨entry, early, rfl⟩ := List.mem_map.mp member
      obtain ⟨listed, less⟩ := (Catalog.mem_ahead_iff entries).mp early
      exact expanded.mpr (passed entry.1 entry.2 less (Catalog.mem_entries.mp listed))

/-- Refusals are true and come from the first offence. What resolving a root reports is the first
offence in the order of expansion, and never anything else: a hook that an applet on the way lists
and the table does not have, or a name that stands at the ends of two paths. The closure and the
plan of the root report the same, and a table that is checked reports it for the first applet in
name order that has an offence. -/
theorem refusals_report_first_offence (table : AppletTable) (root : Applet) (extra : List String)
    (options : RunOptions) :
    (∀ failure, table.resolve root extra options = .error failure ↔
      ∃ path, table.FirstOffence root path failure) ∧
    (∀ side name referrer,
      table.resolve root extra options = .error (.missingHook side name referrer) →
        ∃ path applet, table.follow root path = some applet ∧ applet.appletName = referrer ∧
          name ∈ applet.hooks side ∧ table.get? name = none) ∧
    (∀ name, table.resolve root extra options = .error (.cycle name) →
      ∃ path other left right, path ≠ other ∧
        table.follow root path = some left ∧ left.appletName = name ∧
        table.follow root other = some right ∧ right.appletName = name) ∧
    (∀ failure, table.closure root = .error failure ↔
      table.resolve root extra options = .error failure) ∧
    (∀ failure, table.plan root extra options = .error failure ↔
      table.resolve root extra options = .error failure) ∧
    (∀ failure, table.validate = .error failure ↔ ∃ name applet, table.get? name = some applet ∧
      (∃ path, table.FirstOffence applet path failure) ∧
      ∀ earlier other, earlier < name → table.get? earlier = some other →
        ∃ order, table.closure other = .ok order) := by
  have offence {applet : Applet} {failure : Failure} :
      table.closure applet = .error failure ↔ ∃ path, table.FirstOffence applet path failure := by
    rw [closure_eq_error_iff, walk_eq_error_iff]
  have refused (failure : Failure) : table.resolve root extra options = .error failure ↔
      ∃ path, table.FirstOffence root path failure := by
    rw [resolve_eq_error_iff, offence]
  refine ⟨refused, ?_, ?_, ?_, ?_, ?_⟩
  · intro side name referrer missing
    obtain ⟨path, ⟨offends, _⟩⟩ := (refused _).mp missing
    cases offends with
    | missing hook absent =>
        obtain ⟨follows, listed⟩ := hook
        exact ⟨_, _, follows, rfl, List.mem_of_getElem? listed, absent⟩
  · intro name cycle
    obtain ⟨path, ⟨offends, _⟩⟩ := (refused _).mp cycle
    cases offends with
    | again follows precedes met same =>
        refine ⟨path, _, _, _, ?_, follows, rfl, met, same⟩
        rintro rfl
        exact PathPrecedes.irrefl _ precedes
  · exact fun failure => resolve_eq_error_iff.symm
  · exact fun failure => plan_eq_error_iff.trans resolve_eq_error_iff.symm
  · intro failure
    rw [validate_eq_error_iff]
    simp only [offence]

/-- The before hook leads back to the root ahead of the after hook that the table does not have. -/
example :
    let inner : Applet := { Applet.ofImage "inner" "alpine" with
      hooks := fun side => if side = .before then ["outer"] else [] }
    let outer : Applet := { Applet.ofImage "outer" "alpine" with
      hooks := fun side => if side = .before then ["inner"] else ["ghost"] }
    ((empty.insert inner).insert outer).closure outer = .error (.cycle "outer") := by
  rfl

end AppletTable

end ContainerApplets
