import ContainerApplets.Proofs.Files.Names

/-!
When two paths are the same, and which directories are above one. Paths are the same if they start
alike and have the same names; so a directory differs from all directories above it.
-/

namespace ContainerApplets.Path

variable {directory path other name : String}

/-! ### The same path -/

theorem component_injective : Function.Injective component := by
  intro left right same
  rw [component, component] at same
  split at same <;> split at same
  · simp_all
  · cases same
  · cases same
  · exact String.ofList_injective (Component.normal.inj same)

def Head.components : Head → List Component
  | .root => [.root]
  | .current => [.current]
  | .none => []

theorem components_eq (path : String) :
    ∃ parts : List (List Char), components path = (split path).head.components ++
      parts.map component ∧ names path = parts.map String.ofList := by
  refine ⟨(split path).pieces.filter (!isBlankPiece ·), ?_, ?_⟩
  · rw [components]
    cases (split path).head <;> rfl
  · by_cases empty : path = ""
    · rw [empty]
      decide
    · exact names_split empty

/-- How a path starts is not mistaken for a name. -/
theorem head_components_append {left right : Head} {parts others : List (List Char)} :
    left.components ++ parts.map component = right.components ++ others.map component ↔
      left = right ∧ parts = others := by
  have named (piece : List Char) : component piece ≠ .root ∧ component piece ≠ .current := by
    rw [component]
    split <;> simp
  have alike : parts.map component = others.map component ↔ parts = others :=
    List.map_inj_right fun _ _ same => component_injective same
  have started {head : Component} (starts : head = .root ∨ head = .current)
      (rest pieces : List (List Char)) : head :: rest.map component ≠ pieces.map component := by
    intro same
    obtain ⟨piece, _, _, first, _⟩ := List.map_eq_cons_iff.mp same.symm
    rcases starts with rfl | rfl
    · exact (named piece).1 first
    · exact (named piece).2 first
  cases left <;> cases right <;> simp [Head.components, alike, started, Ne.symm (started _ _ _)]

/-- Paths are the same if they start alike and have the same names. -/
theorem same_iff : same path other = true ↔
    (split path).head = (split other).head ∧ names path = names other := by
  obtain ⟨parts, whole, named⟩ := components_eq path
  obtain ⟨others, wholeOther, namedOther⟩ := components_eq other
  rw [same, beq_iff_eq, whole, wholeOther, head_components_append, named, namedOther,
    List.map_inj_right fun _ _ => String.ofList_injective]

theorem absolute_iff_head : isAbsolute path = true ↔ (split path).head = .root := by
  rw [isAbsolute, beq_iff_eq, List.head?_eq_some_iff, split]
  split <;> simp_all

theorem same_iff_names (absolute : isAbsolute path = true) (too : isAbsolute other = true) :
    same path other = true ↔ names path = names other := by
  rw [same_iff, absolute_iff_head.mp absolute, absolute_iff_head.mp too]
  exact and_iff_right rfl

theorem same_comm (path other : String) : same path other = same other path := by
  rw [← Bool.coe_iff_coe, same_iff, same_iff]
  exact and_congr eq_comm eq_comm

/-! ### Below the same directory -/

/-- How a path starts is settled at its first slash. -/
theorem head_append {text behind : List Char} (inside : text ≠ [])
    (slashed : text.getLast? = some '/' ∨ behind.head? = some '/') :
    (split (String.ofList (text ++ behind))).head = (split (String.ofList text)).head := by
  by_cases rooted : ∃ rest, text = '/' :: rest
  · obtain ⟨rest, rfl⟩ := rooted
    simp [split]
  by_cases dot : text = ['.']
  · subst dot
    obtain ⟨rest, rfl⟩ := List.head?_eq_some_iff.mp (slashed.resolve_left (by simp))
    simp [split]
  by_cases current : ∃ rest, text = '.' :: '/' :: rest
  · obtain ⟨rest, rfl⟩ := current
    simp [split]
  have headless (more : List Char) : (split (String.ofList (text ++ more))).head = .none := by
    obtain ⟨char, rest, rfl⟩ := List.exists_cons_of_ne_nil inside
    rw [split_without_head String.toList_ofList]
    · exact fun others same => rooted ⟨rest, by rw [(List.cons.inj same).1]⟩
    · intro same
      simp only [List.cons_append, List.cons.injEq, List.append_eq_nil_iff] at same
      exact dot (by rw [same.1, same.2.1])
    · intro others same
      obtain ⟨rfl, onward⟩ := List.cons.inj same
      cases rest with
      | nil => exact dot rfl
      | cons next rest => exact current ⟨rest, by rw [(List.cons.inj onward).1]⟩
  have alone := headless []
  rw [List.append_nil] at alone
  rw [headless, alone]

theorem head_join (directory : String) (plain : IsPlain name) :
    (split (join directory name)).head = (split directory).head := by
  by_cases empty : directory = ""
  · rw [empty, plain.join_empty, plain.split_eq]
    rfl
  have inside : directory.toList ≠ [] := by simpa using empty
  rw [join, if_neg (by simp [plain.relative])]
  split
  · next ending =>
    have slashed := ending.resolve_left (by simpa using empty)
    have kept : (split (String.ofList (directory.toList ++ name.toList))).head = _ :=
      head_append inside (.inl slashed)
    simpa using kept
  · have kept : (split (String.ofList (directory.toList ++ '/' :: name.toList))).head = _ :=
      head_append inside (.inr rfl)
    rw [String.append_assoc]
    simpa using kept

theorem same_join_iff {last : String} (plain : IsPlain name) (too : IsPlain last) :
    same (join directory name) (join other last) = true ↔
      same directory other = true ∧ name = last := by
  rw [same_iff, same_iff, head_join directory plain, head_join other too,
    names_join directory plain.relative, names_join other too.relative, plain.names_eq,
    too.names_eq, and_assoc]
  refine and_congr_right fun _ => ⟨fun whole => ?_, fun ⟨same, last⟩ => by rw [same, last]⟩
  obtain ⟨same, last⟩ := List.append_inj' whole rfl
  exact ⟨same, List.singleton_inj.mp last⟩

/-! ### Above a path -/

theorem parent_of_no_names (absolute : isAbsolute path = true) (rooted : names path = []) :
    parent? path = none := by
  rw [isAbsolute, beq_iff_eq, List.head?_eq_some_iff] at absolute
  obtain ⟨rest, written⟩ := absolute
  rw [names, written, pieces, if_pos rfl, named_blank, ← named_drop_blanks] at rooted
  have blank : dropBlanks (pieces rest) = [] := by
    rcases List.eq_nil_or_concat (dropBlanks (pieces rest)) with empty | ⟨front, last, body⟩
    · exact empty
    · rw [List.concat_eq_append] at body
      simp [body, named, last_of_body body] at rooted
  simp [parent?, split, written, blank]

/-- The directories from a path upwards, as long as they name anything. Each one but the first is
the parent of the one ahead of it, and has all names of that but the last. -/
inductive Climbs : String → List String → Prop
  | root {path : String} (top : names path = []) : Climbs path []
  | up {path parent last : String} {above : List String} (next : parent? path = some parent)
      (below : IsBelow parent path last) (further : Climbs parent above) :
      Climbs path (path :: above)

theorem IsBelow.shorter {parent last : String} (below : IsBelow parent path last) :
    parent.length < path.length := by
  rw [← String.length_toList, ← String.length_toList]
  refine Nat.lt_of_le_of_ne below.ahead.length_le fun same => ?_
  have whole := below.names
  rw [String.toList_injective (below.ahead.eq_of_length same)] at whole
  simp at whole

theorem below_parent {parent : String} (absolute : isAbsolute path = true)
    (next : parent? path = some parent) : ∃ last, IsBelow parent path last := by
  have inside : names path ≠ [] := by
    intro rooted
    cases next.symm.trans (parent_of_no_names absolute rooted)
  obtain ⟨_, last, same, below, _⟩ := parent_of_names inside
  cases next.symm.trans same
  exact ⟨last, below⟩

theorem climbs_ancestors (absolute : isAbsolute path = true) :
    Climbs path ((ancestors path).takeWhile fun directory => (parent? directory).isSome) := by
  fun_induction ancestors path with
  | case1 path parent next _ induction =>
      obtain ⟨last, below⟩ := below_parent absolute next
      rw [List.takeWhile_cons_of_pos (by simp [next])]
      exact .up next below (induction (below.absolute.trans absolute))
  | case2 path parent next longer =>
      obtain ⟨_, below⟩ := below_parent absolute next
      exact absurd below.shorter longer
  | case3 path top =>
      rw [List.takeWhile_cons_of_neg (by simp [top])]
      refine .root (Classical.byContradiction fun inside => ?_)
      obtain ⟨_, _, next, _⟩ := parent_of_names inside
      cases top.symm.trans next

variable {above : List String}

theorem Climbs.ahead (climbs : Climbs path above) :
    ∀ directory ∈ above, names directory <+: names path := by
  induction climbs with
  | root => exact nofun
  | up _ below _ induction =>
      refine List.forall_mem_cons.mpr ⟨List.prefix_rfl, fun directory member => ?_⟩
      rw [below.names]
      exact (induction directory member).trans (List.prefix_append _ _)

theorem Climbs.absolute (climbs : Climbs path above) (absolute : isAbsolute path = true) :
    ∀ directory ∈ above, isAbsolute directory = true := by
  induction climbs with
  | root => exact nofun
  | up _ below _ induction =>
      exact List.forall_mem_cons.mpr ⟨absolute, induction (below.absolute.trans absolute)⟩

/-- No directory is above itself. -/
theorem Climbs.apart (climbs : Climbs path above) :
    above.Pairwise fun directory further => same directory further = false := by
  induction climbs with
  | root => exact .nil
  | @up path parent last above _ below further induction =>
      refine .cons (fun directory member => ?_) induction
      rw [← Bool.not_eq_true, same_iff]
      intro alike
      have shorter := (further.ahead directory member).length_le
      rw [← alike.2, below.names, List.length_append, List.length_singleton] at shorter
      exact Nat.not_succ_le_self _ shorter

end ContainerApplets.Path
