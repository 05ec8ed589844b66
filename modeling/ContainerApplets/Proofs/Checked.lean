import ContainerApplets.Refusal
import Mathlib.Data.List.Forall2
import Mathlib.Data.List.Induction

/-!
Taking apart computations that can be refused: what a chain of them, a check of every item or a
change of the value says about its parts.
-/

namespace ContainerApplets

variable {Cause Value Other : Type}

@[simp] theorem ok_bind (value : Value) (next : Value → Except Cause Other) :
    ((.ok value : Except Cause Value) >>= next) = next value := rfl

@[simp] theorem error_bind (cause : Cause) (next : Value → Except Cause Other) :
    ((.error cause : Except Cause Value) >>= next) = .error cause := rfl

@[simp] theorem pure_eq_ok (value : Value) : (pure value : Except Cause Value) = .ok value := rfl

theorem bind_eq_ok {result : Except Cause Value} {next : Value → Except Cause Other}
    {other : Other} :
    (result >>= next) = .ok other ↔ ∃ value, result = .ok value ∧ next value = .ok other := by
  cases result <;> simp

theorem bind_eq_error {result : Except Cause Value} {next : Value → Except Cause Other}
    {cause : Cause} :
    (result >>= next) = .error cause ↔
      result = .error cause ∨ ∃ value, result = .ok value ∧ next value = .error cause := by
  cases result <;> simp

/-- A check lets what follows it go on, or it is the last word. -/
theorem check_bind_eq_ok {check : Except Cause Unit} {next : Except Cause Value} {value : Value} :
    (check >>= fun _ => next) = .ok value ↔ check = .ok () ∧ next = .ok value := by
  cases check <;> simp

theorem map_eq_ok {result : Except Cause Value} {change : Value → Other} {other : Other} :
    (change <$> result) = .ok other ↔ ∃ value, result = .ok value ∧ change value = other := by
  cases result <;> simp [Functor.map, Except.map]

theorem map_eq_error {result : Except Cause Value} {change : Value → Other} {cause : Cause} :
    (change <$> result) = .error cause ↔ result = .error cause := by
  cases result <;> simp [Functor.map, Except.map]

/-- A check refuses, or it is what follows that does. -/
theorem check_bind_eq_error {check : Except Cause Unit} {next : Except Cause Value}
    {cause : Cause} :
    (check >>= fun _ => next) = .error cause ↔
      check = .error cause ∨ check = .ok () ∧ next = .error cause := by
  cases check <;> simp

section Discard

variable {Result : Type} {result : Except Cause Result}

theorem discard_eq_ok :
    (discard result : Except Cause Unit) = .ok () ↔ ∃ value, result = .ok value := by
  cases result <;> simp [discard, Functor.mapConst, Except.map]

theorem discard_eq_error {cause : Cause} :
    (discard result : Except Cause Unit) = .error cause ↔ result = .error cause := by
  cases result <;> simp [discard, Functor.mapConst, Except.map]

/-- Only whether the result is refused matters to what follows, if that is refused alike for all
values. -/
theorem discard_bind {Following : Type} {next : Result → Except Cause Following}
    {rest : Except Cause Unit} (alike : ∀ value, discard (next value) = rest) :
    (discard (result >>= next) : Except Cause Unit) = discard result >>= fun _ => rest := by
  cases result with
  | ok value => exact alike value
  | error cause => rfl

theorem discard_bind_ok {Following : Type} (change : Result → Following) :
    (discard (result >>= fun value => (.ok (change value) : Except Cause Following)) :
      Except Cause Unit) = discard result := by
  cases result <;> rfl

theorem discard_check {check : Except Cause Unit} (value : Result) :
    (discard (check >>= fun _ => (.ok value : Except Cause Result)) : Except Cause Unit) =
      check := by
  cases check <;> rfl

end Discard

theorem for_each_eq_ok {Item : Type} {check : Item → Except Cause Unit} {items : List Item} :
    items.forM check = .ok () ↔ ∀ item ∈ items, check item = .ok () := by
  induction items with
  | nil => simp
  | cons item rest induction =>
      change (check item >>= fun _ => rest.forM check) = .ok () ↔ _
      rw [check_bind_eq_ok, List.forall_mem_cons, induction]

/-- A check of every item reports the first one that is refused. -/
theorem for_each_eq_error {Item : Type} {check : Item → Except Cause Unit} {items : List Item}
    {cause : Cause} :
    items.forM check = .error cause ↔ ∃ before item after, items = before ++ item :: after ∧
      (∀ earlier ∈ before, check earlier = .ok ()) ∧ check item = .error cause := by
  induction items with
  | nil => simp [pure, Except.pure]
  | cons item rest induction =>
      change (check item >>= fun _ => rest.forM check) = .error cause ↔ _
      rw [check_bind_eq_error, induction]
      constructor
      · intro refused
        rcases refused with here | ⟨passed, before, later, after, rfl, earlier, there⟩
        · exact ⟨[], item, rest, rfl, by simp, here⟩
        · refine ⟨item :: before, later, after, rfl, ?_, there⟩
          exact List.forall_mem_cons.mpr ⟨passed, earlier⟩
      · intro refused
        obtain ⟨before, later, after, split, earlier, there⟩ := refused
        cases before with
        | nil =>
            cases split
            exact .inl there
        | cons first before =>
            cases split
            obtain ⟨passed, others⟩ := List.forall_mem_cons.mp earlier
            exact .inr ⟨passed, before, later, after, rfl, others, there⟩

section Checks

variable {Item : Type} {check : Item → Except Cause Unit}

theorem for_each_append (before after : List Item) :
    (before ++ after).forM check = before.forM check >>= fun _ => after.forM check :=
  List.forM_append

theorem for_each_map {Whole : Type} (part : Whole → Item) (wholes : List Whole) :
    (wholes.map part).forM check = wholes.forM fun whole => check (part whole) :=
  List.forM_map

theorem for_each_flat_map {Whole : Type} (parts : Whole → List Item) (wholes : List Whole) :
    (wholes.flatMap parts).forM check = wholes.forM fun whole => (parts whole).forM check := by
  induction wholes with
  | nil => rfl
  | cons whole rest induction =>
      rw [List.flatMap_cons, for_each_append, induction]
      rfl

theorem for_each_congr {other : Item → Except Cause Unit} {items : List Item}
    (same : ∀ item ∈ items, check item = other item) : items.forM check = items.forM other := by
  induction items with
  | nil => rfl
  | cons item rest induction =>
      obtain ⟨first, later⟩ := List.forall_mem_cons.mp same
      change (check item >>= fun _ => rest.forM check) = _
      rw [first, induction later]
      rfl

/-- A refused run has come to an item that its step refuses. -/
theorem fold_eq_error {State : Type} {step : State → Item → Except Cause State} {items : List Item}
    {start : State} {cause : Cause} :
    items.foldlM step start = .error cause ↔ ∃ before item after state,
      items = before ++ item :: after ∧ before.foldlM step start = .ok state ∧
      step state item = .error cause := by
  constructor
  · intro refused
    induction items using List.reverseRecOn with
    | nil => exact nomatch refused
    | append_singleton items item induction =>
        simp only [List.foldlM_append, List.foldlM_cons, List.foldlM_nil, bind_pure,
          bind_eq_error] at refused
        rcases refused with earlier | ⟨state, passed, last⟩
        · obtain ⟨before, first, after, state, rfl, passed, refused⟩ := induction earlier
          exact ⟨before, first, after ++ [item], state, by simp, passed, refused⟩
        · exact ⟨items, item, [], state, rfl, passed, last⟩
  · intro refused
    obtain ⟨before, item, after, state, rfl, passed, last⟩ := refused
    rw [List.foldlM_append, passed, ok_bind, List.foldlM_cons, last, error_bind]

end Checks

theorem each_eq_ok_iff {Item : Type} {read : Item → Except Cause Value} {items : List Item}
    {values : List Value} :
    items.mapM read = .ok values ↔
      List.Forall₂ (fun item value => read item = .ok value) items values := by
  induction items generalizing values with
  | nil => simp [eq_comm]
  | cons item rest induction =>
      rw [List.mapM_cons, bind_eq_ok]
      simp only [bind_eq_ok, induction, pure_eq_ok, Except.ok.injEq, List.forall₂_cons_left_iff]
      constructor
      · intro passed
        obtain ⟨value, first, later, behind, rfl⟩ := passed
        exact ⟨value, later, first, behind, rfl⟩
      · intro passed
        obtain ⟨value, later, first, behind, rfl⟩ := passed
        exact ⟨value, first, later, behind, rfl⟩

/-- Items that are read back one by one are read back together. -/
theorem each_read_back {Written : Type} {write : Value → Written}
    {read : Written → Except Cause Value} {values : List Value}
    (reads : ∀ value ∈ values, read (write value) = .ok value) :
    (values.map write).mapM read = .ok values := by
  induction values with
  | nil => rfl
  | cons value rest induction =>
      have first := reads value (by simp)
      have later := induction fun other member => reads other (List.mem_cons_of_mem _ member)
      rw [List.map_cons, List.mapM_cons, first, ok_bind, later, ok_bind, pure_eq_ok]

/-! ### An item that is refused

What stands ahead of the item is passed as it was with other items behind it. -/

section Refused

variable {Item State : Type} {before kept : List Item} {item : Item} {cause : Cause}

theorem fold_refused {step : State → Item → Except Cause State} {start last : State}
    (after : List Item) (accepted : (before ++ kept).foldlM step start = .ok last)
    (refused : ∀ state, step state item = .error cause) :
    (before ++ item :: after).foldlM step start = .error cause := by
  rw [List.foldlM_append] at accepted ⊢
  obtain ⟨middle, passed, _⟩ := bind_eq_ok.mp accepted
  rw [passed, ok_bind, List.foldlM_cons, refused, error_bind]

theorem fold_passed {step : State → Item → Except Cause State} {start last : State}
    {after : List Item}
    (accepted : (before ++ item :: after).foldlM step start = .ok last) :
    ∃ state next, step state item = .ok next := by
  rw [List.foldlM_append] at accepted
  obtain ⟨middle, _, later⟩ := bind_eq_ok.mp accepted
  obtain ⟨next, passed, _⟩ := bind_eq_ok.mp (List.foldlM_cons.symm.trans later)
  exact ⟨middle, next, passed⟩

theorem each_refused {read : Item → Except Cause Value} {values : List Value} (after : List Item)
    (accepted : (before ++ kept).mapM read = .ok values) (refused : read item = .error cause) :
    (before ++ item :: after).mapM read = .error cause := by
  rw [List.mapM_append] at accepted ⊢
  obtain ⟨earlier, passed, _⟩ := bind_eq_ok.mp accepted
  rw [passed, ok_bind, List.mapM_cons, refused, error_bind, error_bind]

theorem each_passed {read : Item → Except Cause Value} {values : List Value} {after : List Item}
    (accepted : (before ++ item :: after).mapM read = .ok values) :
    ∃ value, read item = .ok value := by
  rw [List.mapM_append] at accepted
  obtain ⟨_, _, later⟩ := bind_eq_ok.mp accepted
  obtain ⟨_, behind, _⟩ := bind_eq_ok.mp later
  obtain ⟨value, passed, _⟩ := bind_eq_ok.mp (List.mapM_cons.symm.trans behind)
  exact ⟨value, passed⟩

end Refused

end ContainerApplets
