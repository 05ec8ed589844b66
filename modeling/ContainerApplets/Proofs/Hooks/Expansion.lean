import ContainerApplets.Proofs.Hooks.Graph
import Mathlib.Data.List.Lex

/-!
The order in which the hooks of a root are expanded. Depth first, an applet comes ahead of what its
hooks expand to, its before hooks come ahead of its after hooks, and the hooks of a side come in the
order in which they are listed. On paths this is the lexicographic order.
-/

namespace ContainerApplets

/-- Among the hooks of one applet, the one that is expanded first. -/
inductive HookPosition.Precedes : HookPosition → HookPosition → Prop
  | side {index other : Nat} : Precedes ⟨.before, index⟩ ⟨.after, other⟩
  | index {side : HookSide} {index other : Nat} (less : index < other) :
      Precedes ⟨side, index⟩ ⟨side, other⟩

/-- The end of the left path is expanded ahead of the end of the right one. -/
def PathPrecedes (left right : List HookPosition) : Prop :=
  List.Lex HookPosition.Precedes left right

namespace HookPosition

theorem Precedes.trans {first second third : HookPosition} (left : first.Precedes second)
    (right : second.Precedes third) : first.Precedes third := by
  cases left with
  | side => cases right with | index _ => exact .side
  | index less =>
      cases right with
      | side => exact .side
      | index more => exact .index (less.trans more)

theorem Precedes.irrefl (position : HookPosition) : ¬position.Precedes position := by
  intro precedes
  cases precedes with
  | index less => exact Nat.lt_irrefl _ less

theorem precedes_total (left right : HookPosition) :
    left.Precedes right ∨ left = right ∨ right.Precedes left := by
  obtain ⟨side, index⟩ := left
  obtain ⟨other, place⟩ := right
  cases side <;> cases other
  case before.after => exact .inl .side
  case after.before => exact .inr (.inr .side)
  all_goals
    rcases Nat.lt_trichotomy index place with less | rfl | more
    · exact .inl (.index less)
    · exact .inr (.inl rfl)
    · exact .inr (.inr (.index more))

instance : Std.Trichotomous Precedes where
  trichotomous := fun left right notBefore notAfter =>
    ((precedes_total left right).resolve_left notBefore).resolve_right notAfter

theorem not_precedes_first (position : HookPosition) : ¬position.Precedes ⟨.before, 0⟩ := by
  intro precedes
  cases precedes with
  | index less => exact Nat.not_lt_zero _ less

/-- The hooks ahead of the next one are this one and those ahead of it. -/
theorem precedes_next_iff {position : HookPosition} {side : HookSide} {index : Nat} :
    position.Precedes ⟨side, index + 1⟩ ↔
      position.Precedes ⟨side, index⟩ ∨ position = ⟨side, index⟩ := by
  constructor
  · intro precedes
    cases precedes with
    | side => exact .inl .side
    | index less =>
        rcases Nat.lt_succ_iff_lt_or_eq.mp less with earlier | rfl
        · exact .inl (.index earlier)
        · exact .inr rfl
  · intro either
    rcases either with precedes | rfl
    · exact precedes.trans (.index (Nat.lt_succ_self index))
    · exact .index (Nat.lt_succ_self index)

theorem precedes_after_iff {position : HookPosition} {count : Nat} :
    position.Precedes ⟨.after, count⟩ ↔
      position.side = .before ∨ position.side = .after ∧ position.index < count := by
  constructor
  · intro precedes
    cases precedes with
    | side => exact .inl rfl
    | index less => exact .inr ⟨rfl, less⟩
  · intro either
    obtain ⟨side, index⟩ := position
    rcases either with rfl | ⟨rfl, less⟩
    · exact .side
    · exact .index less

theorem precedes_before_iff {position : HookPosition} {count : Nat} :
    position.Precedes ⟨.before, count⟩ ↔ position.side = .before ∧ position.index < count := by
  constructor
  · intro precedes
    cases precedes with
    | index less => exact ⟨rfl, less⟩
  · intro both
    obtain ⟨side, index⟩ := position
    obtain ⟨rfl, less⟩ := both
    exact .index less

end HookPosition

namespace PathPrecedes

theorem trans {first second third : List HookPosition} (left : PathPrecedes first second)
    (right : PathPrecedes second third) : PathPrecedes first third :=
  List.lex_trans HookPosition.Precedes.trans left right

theorem irrefl (path : List HookPosition) : ¬PathPrecedes path path :=
  List.lex_irrefl HookPosition.Precedes.irrefl path

theorem total (left right : List HookPosition) :
    PathPrecedes left right ∨ left = right ∨ PathPrecedes right left :=
  trichotomous_of (List.Lex HookPosition.Precedes) left right

/-- What comes ahead of a hook of the applet at `stem`: what comes ahead of that applet, the applet
itself, and what its earlier hooks expand to. -/
theorem concat_iff {path stem : List HookPosition} {position : HookPosition} :
    PathPrecedes path (stem ++ [position]) ↔
      PathPrecedes path stem ∨ path = stem ∨
        ∃ earlier rest, path = stem ++ earlier :: rest ∧ earlier.Precedes position := by
  induction stem generalizing path with
  | nil =>
      cases path with
      | nil => simp [PathPrecedes]
      | cons first rest => simp [PathPrecedes, List.cons_lex_cons_iff]
  | cons head stem induction =>
      cases path with
      | nil => simp [PathPrecedes]
      | cons first rest =>
          have inner := @induction rest
          simp only [PathPrecedes, List.cons_append, List.cons_lex_cons_iff, List.cons.injEq]
            at inner ⊢
          rw [inner]
          by_cases same : first = head <;> simp [same, or_assoc]

end PathPrecedes

namespace AppletTable

variable {table : AppletTable} {root : Applet}

theorem follow_append (table : AppletTable) (root : Applet) (path rest : List HookPosition) :
    table.follow root (path ++ rest) =
      (table.follow root path).bind fun applet => table.follow applet rest := by
  induction path generalizing root with
  | nil => rfl
  | cons position path induction =>
      rw [List.cons_append, follow, follow, Option.bind_assoc]
      exact congrArg _ (funext fun target => induction target)

/-- The path ends at a hook: the applet ahead of its last step lists the name at that place. -/
inductive HookAt (table : AppletTable) (root : Applet) :
    List HookPosition → Applet → HookSide → String → Prop
  | listed {path : List HookPosition} {referrer : Applet} {position : HookPosition} {name : String}
      (follows : table.follow root path = some referrer)
      (listed : (referrer.hooks position.side)[position.index]? = some name) :
      HookAt table root (path ++ [position]) referrer position.side name

theorem hook_at_concat_iff {stem : List HookPosition} {position : HookPosition}
    {referrer : Applet} {side : HookSide} {name : String} :
    table.HookAt root (stem ++ [position]) referrer side name ↔
      table.follow root stem = some referrer ∧ side = position.side ∧
        (referrer.hooks position.side)[position.index]? = some name := by
  constructor
  · intro hook
    generalize whole : stem ++ [position] = path at hook
    cases hook with
    | listed follows listed =>
        obtain ⟨rfl, last⟩ := List.append_inj' whole rfl
        cases last
        exact ⟨follows, rfl, listed⟩
  · intro parts
    obtain ⟨follows, rfl, listed⟩ := parts
    exact .listed follows listed

theorem HookAt.follow_eq {path : List HookPosition} {referrer : Applet} {side : HookSide}
    {name : String} (hook : table.HookAt root path referrer side name) :
    table.follow root path = table.get? name := by
  obtain ⟨follows, listed⟩ := hook
  rw [follow_append, follows, Option.bind_some, follow, target?, listed, Option.bind_some]
  cases table.get? name <;> rfl

theorem HookAt.unique {path : List HookPosition} {referrer other : Applet} {side kind : HookSide}
    {name again : String} (first : table.HookAt root path referrer side name)
    (second : table.HookAt root path other kind again) :
    referrer = other ∧ side = kind ∧ name = again := by
  obtain ⟨follows, listed⟩ := first
  obtain ⟨leads, rfl, repeated⟩ := hook_at_concat_iff.mp second
  cases follows.symm.trans leads
  exact ⟨rfl, rfl, Option.some.inj (listed.symm.trans repeated)⟩

/-- On the way to a hook each step is at a place where a hook is listed. -/
theorem HookAt.bound {stem rest : List HookPosition} {position : HookPosition}
    {applet referrer : Applet} {side : HookSide} {name : String}
    (hook : table.HookAt root (stem ++ position :: rest) referrer side name)
    (follows : table.follow root stem = some applet) :
    position.index < (applet.hooks position.side).length := by
  suffices present : ∃ listed, (applet.hooks position.side)[position.index]? = some listed by
    obtain ⟨listed, present⟩ := present
    exact (List.getElem?_eq_some_iff.mp present).1
  rcases List.eq_nil_or_concat rest with rfl | ⟨inner, final, rfl⟩
  · -- The step is the last one.
    obtain ⟨reached, _, listed⟩ := hook_at_concat_iff.mp hook
    cases follows.symm.trans reached
    exact ⟨name, listed⟩
  · -- The step is followed, so its hook names an applet.
    rw [List.concat_eq_append, ← List.cons_append, ← List.append_assoc] at hook
    obtain ⟨reached, _, _⟩ := hook_at_concat_iff.mp hook
    rw [follow_append, follows, Option.bind_some, follow, Option.bind_eq_some_iff] at reached
    obtain ⟨target, named, _⟩ := reached
    obtain ⟨listed, present, _⟩ := Option.bind_eq_some_iff.mp named
    exact ⟨listed, present⟩

/-- The root or a hook stands at the end of the path. -/
def Stands (table : AppletTable) (root : Applet) (path : List HookPosition) : Prop :=
  path = [] ∨ ∃ referrer side name, table.HookAt root path referrer side name

theorem stands_of_follow {path : List HookPosition} {last : Applet}
    (follows : table.follow root path = some last) : table.Stands root path := by
  rcases List.eq_nil_or_concat path with rfl | ⟨stem, position, rfl⟩
  · exact .inl rfl
  · rw [List.concat_eq_append, follow_append, Option.bind_eq_some_iff] at follows
    obtain ⟨referrer, reached, step⟩ := follows
    rw [follow, Option.bind_eq_some_iff] at step
    obtain ⟨target, named, _⟩ := step
    obtain ⟨name, listed, _⟩ := Option.bind_eq_some_iff.mp named
    rw [List.concat_eq_append]
    exact .inr ⟨referrer, position.side, name, .listed reached listed⟩

theorem Stands.bound {stem rest : List HookPosition} {position : HookPosition} {applet : Applet}
    (stands : table.Stands root (stem ++ position :: rest))
    (follows : table.follow root stem = some applet) :
    position.index < (applet.hooks position.side).length := by
  rcases stands with empty | ⟨referrer, side, name, hook⟩
  · simp at empty
  · exact hook.bound follows

/-- One more step, along the first hook that has not been followed. -/
theorem follow_listed {path : List HookPosition} {referrer target : Applet} {side : HookSide}
    {followed rest : List String} {name : String}
    (follows : table.follow root path = some referrer)
    (listed : referrer.hooks side = followed ++ name :: rest)
    (found : table.get? name = some target) :
    table.follow root (path ++ [⟨side, followed.length⟩]) = some target := by
  have hook : table.HookAt root (path ++ [⟨side, followed.length⟩]) referrer side name :=
    hook_at_concat_iff.mpr ⟨follows, rfl, by simp [listed]⟩
  exact hook.follow_eq.trans found

end AppletTable

end ContainerApplets
