import ContainerApplets.Proofs.Hooks.Path

/-!
What a refused walk has found. A cycle is reported for a name that stands at two paths, a missing
hook for a name that an applet on the way lists and the table does not have. A walk reports nothing
else.
-/

namespace ContainerApplets

namespace AppletTable

variable {table : AppletTable}

/-- The path leads to an applet of this name. -/
def Meets (table : AppletTable) (errand : Errand) (path : List HookPosition) (name : String) :
    Prop :=
  ∃ applet, table.Leads errand path applet ∧ applet.appletName = name

/-- Every name that a run has entered stands at a path of its errand. -/
theorem Runs.meets {errand : Errand} {walk last : Walk} {outcome : Except Failure Walk}
    (run : table.Runs errand walk outcome) (ends : outcome = .ok last) {name : String}
    (entered : name ∈ last.entered) :
    name ∈ walk.entered ∨ ∃ path, table.Meets errand path name := by
  induction run generalizing last with
  | again _ => cases ends
  | failsBefore _ _ _ => cases ends
  | passes _ _ _ before after =>
      rcases after ends entered with between | ⟨path, applet, along, named⟩
      · rcases before rfl between with inside | ⟨path, applet, along, named⟩
        · rcases List.mem_cons.mp inside with same | known
          · exact .inr ⟨[], _, .here, same.symm⟩
          · exact .inl known
        · exact .inr ⟨path, applet, .inside along, named⟩
      · exact .inr ⟨path, applet, .inside along, named⟩
  | done =>
      cases ends
      exact .inl entered
  | missing _ => cases ends
  | targetFails _ _ _ => cases ends
  | next found _ _ visit later =>
      rcases later ends entered with between | ⟨path, applet, along, named⟩
      · rcases visit rfl between with known | ⟨path, applet, along, named⟩
        · exact .inl known
        · exact .inr ⟨_ :: path, applet, .first found along, named⟩
      · obtain ⟨index, rest, rfl⟩ := along.hook_path
        exact .inr ⟨_, applet, .later along, named⟩

/-- An applet that the errand comes to, or the one whose hooks it follows, lists this hook. -/
inductive Lists (table : AppletTable) : Errand → HookSide → String → String → Prop
  | own {referrer : Applet} {side : HookSide} {names : List String} {name : String}
      (listed : name ∈ names) :
      Lists table (.hooks referrer side names) side name referrer.appletName
  | reached {errand : Errand} {path : List HookPosition} {applet : Applet} {side : HookSide}
      {name : String} (along : table.Leads errand path applet) (listed : name ∈ applet.hooks side) :
      Lists table errand side name applet.appletName

/-- What a failure says about the paths of an errand that was begun with these names entered. -/
def Offends (table : AppletTable) (errand : Errand) (entered : List String) : Failure → Prop
  | .cycle name => ∃ path, table.Meets errand path name ∧
      (name ∈ entered ∨ ∃ other, other ≠ path ∧ table.Meets errand other name)
  | .missingHook side name referrer =>
      table.get? name = none ∧ table.Lists errand side name referrer
  | _ => False

/-- The offence of a part of an errand is one of the whole: the paths of the part go on from
somewhere, and what was entered before the part stands elsewhere. -/
theorem Offends.lift {part whole : Errand} {known entered : List String} {failure : Failure}
    (offends : table.Offends part known failure)
    (extend : List HookPosition → List HookPosition) (injective : Function.Injective extend)
    (leads : ∀ path applet, table.Leads part path applet →
      table.Leads whole (extend path) applet)
    (elsewhere : ∀ path name, table.Meets part path name → name ∈ known →
      name ∈ entered ∨ ∃ other, other ≠ extend path ∧ table.Meets whole other name)
    (lists : ∀ side name referrer, table.Lists part side name referrer →
      table.Lists whole side name referrer) :
    table.Offends whole entered failure := by
  have meets {path : List HookPosition} {name : String} :
      table.Meets part path name → table.Meets whole (extend path) name :=
    fun ⟨applet, along, named⟩ => ⟨applet, leads path applet along, named⟩
  cases failure with
  | cycle name =>
      obtain ⟨path, meet, earlier | ⟨other, different, again⟩⟩ := offends
      · exact ⟨extend path, meets meet, elsewhere path name meet earlier⟩
      · exact ⟨extend path, meets meet, .inr ⟨extend other, injective.ne different, meets again⟩⟩
  | missingHook side name referrer => exact ⟨offends.1, lists side name referrer offends.2⟩
  | _ => exact offends

theorem Lists.inside {applet : Applet} {side : HookSide} {kind : HookSide} {name referrer : String}
    (lists : table.Lists (.hooks applet side (applet.hooks side)) kind name referrer) :
    table.Lists (.visit applet) kind name referrer := by
  cases lists with
  | own listed => exact .reached .here listed
  | reached along listed => exact .reached (.inside along) listed

/-- The path to the hook after the one that it led to. -/
def shift : List HookPosition → List HookPosition
  | [] => []
  | position :: rest => { position with index := position.index + 1 } :: rest

theorem shift_injective : Function.Injective shift := by
  intro left right same
  cases left <;> cases right <;> simp_all [shift, HookPosition.ext_iff]

theorem Leads.shifted {referrer last : Applet} {side : HookSide} {name : String}
    {rest : List String} {path : List HookPosition}
    (leads : table.Leads (.hooks referrer side rest) path last) :
    table.Leads (.hooks referrer side (name :: rest)) (shift path) last := by
  obtain ⟨index, rest, rfl⟩ := leads.hook_path
  exact .later leads

theorem Meets.apart {applet : Applet} {left right : HookSide} {path other : List HookPosition}
    {names more : List String} {name again : String}
    (first : table.Meets (.hooks applet left names) path name)
    (second : table.Meets (.hooks applet right more) other again) (different : left ≠ right) :
    path ≠ other := by
  obtain ⟨_, along, _⟩ := first
  obtain ⟨_, beside, _⟩ := second
  obtain ⟨index, rest, rfl⟩ := along.hook_path
  obtain ⟨place, more, rfl⟩ := beside.hook_path
  simp [different]

/-- An applet that is entered stands at the empty path, its hooks at paths of their own. -/
theorem entered_elsewhere {applet : Applet} {walk : Walk} {side : HookSide} {names : List String}
    {path : List HookPosition} {name : String}
    (meet : table.Meets (.hooks applet side names) path name)
    (known : name ∈ (walk.enter applet.appletName).entered) :
    name ∈ walk.entered ∨ ∃ other, other ≠ path ∧ table.Meets (.visit applet) other name := by
  rcases List.mem_cons.mp known with same | earlier
  · obtain ⟨_, along, _⟩ := meet
    obtain ⟨index, rest, rfl⟩ := along.hook_path
    exact .inr ⟨[], by simp, applet, .here, same.symm⟩
  · exact .inl earlier

theorem Runs.offends {errand : Errand} {walk : Walk} {outcome : Except Failure Walk}
    (run : table.Runs errand walk outcome) {failure : Failure}
    (refused : outcome = .error failure) :
    table.Offends errand walk.entered failure := by
  -- Along the run; each refused part is lifted to the errand that it is a part of.
  induction run with
  | again entered =>
      cases refused
      exact ⟨[], ⟨_, .here, rfl⟩, .inl entered⟩
  | failsBefore _ _ before =>
      cases refused
      exact (before rfl).lift id Function.injective_id (fun _ _ => .inside)
        (fun _ _ meet known => entered_elsewhere meet known) (fun _ _ _ => .inside)
  | passes _ run _ _ after =>
      refine (after refused).lift id Function.injective_id (fun _ _ => .inside) ?_
        (fun _ _ _ => .inside)
      intro path name meet known
      rcases run.meets rfl known with inside | ⟨other, beside⟩
      · exact entered_elsewhere meet inside
      · -- A before hook has entered the name, and no path begins on both sides.
        have different : other ≠ path := beside.apart meet (by decide)
        obtain ⟨applet, along, named⟩ := beside
        exact .inr ⟨other, different, applet, .inside along, named⟩
  | done => cases refused
  | missing absent =>
      cases refused
      exact ⟨absent, .own (by simp)⟩
  | targetFails found _ visit =>
      cases refused
      refine (visit rfl).lift (_ :: ·) (List.cons_injective) (fun _ _ => .first found)
        (fun _ _ _ known => .inl known) ?_
      intro side name referrer lists
      cases lists with
      | reached along listed => exact .reached (.first found along) listed
  | @next referrer target side name rest walk between outcome found run _ _ later =>
      refine (later refused).lift shift shift_injective (fun _ _ => .shifted) ?_ ?_
      · intro path name meet known
        rcases run.meets rfl known with earlier | ⟨other, applet, along, named⟩
        · exact .inl earlier
        · -- The first hook has entered the name, and no shifted path begins at index zero.
          obtain ⟨_, beside, _⟩ := meet
          obtain ⟨index, rest, rfl⟩ := beside.hook_path
          exact .inr ⟨⟨side, 0⟩ :: other, by simp [shift], applet, .first found along, named⟩
      · intro kind hook owner lists
        cases lists with
        | own listed => exact .own (List.mem_cons_of_mem _ listed)
        | reached along listed => exact .reached along.shifted listed

/-- A refused walk has found a name at two paths, or a hook that names nothing. -/
theorem walk_error {root : Applet} {failure : Failure}
    (refused : table.walk root = .error failure) :
    (∃ name, failure = .cycle name ∧ ∃ path other left right, path ≠ other ∧
      table.follow root path = some left ∧ left.appletName = name ∧
      table.follow root other = some right ∧ right.appletName = name) ∨
    ∃ side name path applet, failure = .missingHook side name applet.appletName ∧
      table.follow root path = some applet ∧ name ∈ applet.hooks side ∧ table.get? name = none := by
  have offends := (walk_eq_iff_runs.mp refused).offends rfl
  cases failure with
  | cycle name =>
      obtain ⟨path, ⟨left, along, leftNamed⟩, again⟩ := offends
      rcases again with earlier | ⟨other, different, right, beside, rightNamed⟩
      · simp [Walk.start] at earlier
      · exact .inl ⟨name, rfl, path, other, left, right, different.symm,
          follow_eq_some_iff.mpr along, leftNamed, follow_eq_some_iff.mpr beside, rightNamed⟩
  | missingHook side name referrer =>
      obtain ⟨absent, lists⟩ := offends
      cases lists with
      | reached along listed =>
          exact .inr ⟨side, name, _, _, rfl, follow_eq_some_iff.mpr along, listed, absent⟩
  | _ => exact offends.elim

end AppletTable

end ContainerApplets
