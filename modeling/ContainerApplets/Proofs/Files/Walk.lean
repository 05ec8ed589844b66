import ContainerApplets.Proofs.Files.Names
import ContainerApplets.Proofs.Files.Tree

/-!
Walks through a tree of files as a relation, which has only those that find something. A walk can be
cut into a way to a directory and the steps from there; and it looks at nothing but what it comes
by, so that a change elsewhere does not lead it to another place.
-/

namespace ContainerApplets.FileTree

/-- The step names an entry of the directory where it is taken. -/
structure IsEntryName (step : String) : Prop where
  proper : step ∉ ["", ".", ".."]
  short : step.utf8ByteSize ≤ longestName

/-- `tree.Walks follow links here remaining found`: the walk ends, and this is found there. -/
inductive Walks (tree : FileTree) (follow : Bool) : Nat → Place → List String → Found → Prop
  | done {links : Nat} {here : Place} : Walks tree follow links here [] (.present here .directory)
  | blank {links : Nat} {here : Place} {step : String} {rest : List String} {found : Found}
      (nothing : step = "" ∨ step = ".") (walks : Walks tree follow links here rest found) :
      Walks tree follow links here (step :: rest) found
  | up {links : Nat} {here : Place} {rest : List String} {found : Found}
      (walks : Walks tree follow links here.dropLast rest found) :
      Walks tree follow links here (".." :: rest) found
  | vacant {links : Nat} {here : Place} {step : String} (named : IsEntryName step)
      (stands : tree.node? (here ++ [step]) = none) :
      Walks tree follow links here [step] (.vacant here step)
  | down {links : Nat} {here : Place} {step : String} {rest : List String} {found : Found}
      (named : IsEntryName step) (stands : tree.node? (here ++ [step]) = some .directory)
      (walks : Walks tree follow links (here ++ [step]) rest found) :
      Walks tree follow links here (step :: rest) found
  | file {links : Nat} {here : Place} {step text : String} {isExecutable : Bool}
      (named : IsEntryName step)
      (stands : tree.node? (here ++ [step]) = some (.file text isExecutable)) :
      Walks tree follow links here [step] (.present (here ++ [step]) (.file text isExecutable))
  | link {links : Nat} {here : Place} {step target : String} (named : IsEntryName step)
      (stands : tree.node? (here ++ [step]) = some (.link target)) (kept : follow = false) :
      Walks tree follow links here [step] (.present (here ++ [step]) (.link target))
  | follows {links : Nat} {here : Place} {step target : String} {rest : List String} {found : Found}
      (named : IsEntryName step) (stands : tree.node? (here ++ [step]) = some (.link target))
      (goes : rest ≠ [] ∨ follow = true)
      (walks : Walks tree follow links (startOf here target) (steps target ++ rest) found) :
      Walks tree follow (links + 1) here (step :: rest) found

variable {tree other : FileTree} {follow : Bool} {links : Nat} {here : Place}
  {remaining : List String} {found : Found}

/-- A walk that leaves links to jumps which take one from the links. -/
theorem walks_of_walk_by {jump : Place → List String → Except FileFault Found}
    (jumps : ∀ place rest found, jump place rest = .ok found →
      ∃ fewer, links = fewer + 1 ∧ tree.Walks follow fewer place rest found)
    (walked : tree.walkBy follow jump here remaining = .ok found) :
    tree.Walks follow links here remaining found := by
  have names {step : String} (some : ¬(step = "" ∨ step = ".")) (down : ¬step = "..")
      (short : ¬longestName < step.utf8ByteSize) : IsEntryName step :=
    ⟨by simp_all, Nat.not_lt.mp short⟩
  fun_induction tree.walkBy follow jump here remaining with
  | case1 => cases walked; exact .done
  | case2 _ _ _ nothing induction => exact .blank nothing (induction walked)
  | case3 _ _ _ induction => exact .up (induction walked)
  | case4 => cases walked
  | case5 _ _ some down short _ stands => cases walked; exact .vacant (names some down short) stands
  | case6 => cases walked
  | case7 _ _ _ some down short _ stands induction =>
      exact .down (names some down short) stands (induction walked)
  | case8 _ _ some down short _ _ _ stands =>
      cases walked; exact .file (names some down short) stands
  | case9 => cases walked
  | case10 _ _ rest some down short _ _ stands last =>
      cases walked
      obtain ⟨rfl, kept⟩ := last
      exact .link (names some down short) stands (by simpa using kept)
  | case11 _ _ rest some down short _ _ stands goes =>
      obtain ⟨fewer, rfl, walks⟩ := jumps _ _ _ walked
      refine .follows (names some down short) stands ?_ walks
      by_cases last : rest = [] <;> simp_all

theorem walks_of_walk (walked : tree.walk follow links here remaining = .ok found) :
    tree.Walks follow links here remaining found := by
  induction links generalizing here remaining found with
  | zero => exact walks_of_walk_by (fun _ _ _ jumped => by cases jumped) walked
  | succ links induction =>
      exact walks_of_walk_by (fun _ _ _ jumped => ⟨links, rfl, induction jumped⟩) walked

theorem walk_nil : tree.walk follow links here [] = .ok (.present here .directory) := by
  cases links <;> rfl

theorem walk_blank {step : String} (nothing : step = "" ∨ step = ".") (rest : List String) :
    tree.walk follow links here (step :: rest) = tree.walk follow links here rest := by
  cases links <;> exact if_pos nothing

theorem walk_up (rest : List String) :
    tree.walk follow links here (".." :: rest) = tree.walk follow links here.dropLast rest := by
  cases links <;> rfl

theorem walk_entry {step : String} (named : IsEntryName step) (rest : List String) :
    tree.walk follow links here (step :: rest) =
      match tree.node? (here ++ [step]) with
      | none =>
          if rest = [] then .ok (.vacant here step)
          else .error (if rest = [""] then .missingDirectory else .missing)
      | some .directory => tree.walk follow links (here ++ [step]) rest
      | some (.file text isExecutable) =>
          if rest = [] then .ok (.present (here ++ [step]) (.file text isExecutable))
          else .error .notDirectory
      | some (.link target) =>
          if rest = [] ∧ !follow then .ok (.present (here ++ [step]) (.link target))
          else match links with
            | 0 => .error .loop
            | links + 1 => tree.walk follow links (startOf here target) (steps target ++ rest) := by
  obtain ⟨proper, short⟩ := named
  simp only [List.mem_cons, List.not_mem_nil, or_false, not_or] at proper
  have blank : ¬(step = "" ∨ step = ".") := not_or.mpr ⟨proper.1, proper.2.1⟩
  cases links with
  | _ => exact (if_neg blank).trans ((if_neg proper.2.2).trans (if_neg (Nat.not_lt.mpr short)))

theorem Walks.walk_eq (walks : tree.Walks follow links here remaining found) :
    tree.walk follow links here remaining = .ok found := by
  induction walks with
  | done => exact walk_nil
  | blank nothing _ induction => rw [walk_blank nothing, induction]
  | up _ induction => rw [walk_up, induction]
  | vacant named stands => simp only [walk_entry named, stands, if_true]
  | down named stands _ induction => simp only [walk_entry named, stands, induction]
  | file named stands => simp only [walk_entry named, stands, if_true]
  | link named stands kept => simp [walk_entry named, stands, kept]
  | follows named stands goes _ induction =>
      have goesOn : ¬(_ = [] ∧ (!follow) = true) := fun stops =>
        goes.elim (absurd stops.1) fun follows => by simp [follows] at stops
      simp only [walk_entry named, stands, if_neg goesOn, induction]

theorem walk_eq_ok_iff :
    tree.walk follow links here remaining = .ok found ↔
      tree.Walks follow links here remaining found :=
  ⟨walks_of_walk, Walks.walk_eq⟩

theorem Walks.unique {last : Found} (first : tree.Walks follow links here remaining found)
    (second : tree.Walks follow links here remaining last) : found = last :=
  Except.ok.inj (first.walk_eq.symm.trans second.walk_eq)

/-! ### What is found -/

/-- Where something was found, or would be. -/
def Found.place : Found → Place
  | .present place _ => place
  | .vacant directory name => directory ++ [name]

/-- What was found is there, and what was not is not, but could be. -/
def Found.Stands (tree : FileTree) : Found → Prop
  | .present place node => tree.node? place = some node
  | .vacant directory name =>
      tree.node? directory = some .directory ∧ tree.node? (directory ++ [name]) = none ∧
        isFileName name = true

theorem start_of_stands (inside : tree.node? here = some .directory) (path : String) :
    tree.node? (startOf here path) = some .directory := by
  rw [startOf]
  split
  · rfl
  · exact inside

/-- Steps of paths without NUL. -/
def AreClean (remaining : List String) : Prop :=
  ∀ step ∈ remaining, '/' ∉ step.toList ∧ '\x00' ∉ step.toList

theorem steps_clean {path : String} (clean : '\x00' ∉ path.toList) : AreClean (steps path) := by
  intro step member
  have inside : step ∈ (Path.pieces path.toList).map String.ofList := by
    rcases List.mem_append.mp member with early | late
    · exact List.dropLast_subset _ (List.mem_filter.mp early).1
    · exact List.mem_of_mem_drop late
  obtain ⟨piece, among, rfl⟩ := List.mem_map.mp inside
  rw [String.toList_ofList]
  exact ⟨Path.slash_not_mem_piece among, fun nul => clean (Path.mem_of_mem_piece among nul)⟩

theorem IsEntryName.is_file_name {step : String} (named : IsEntryName step)
    (clean : '/' ∉ step.toList ∧ '\x00' ∉ step.toList) : isFileName step = true := by
  simp [isFileName, named.proper, clean.1, clean.2]

theorem Walks.stands (walks : tree.Walks follow links here remaining found) (sound : tree.Sound)
    (inside : tree.node? here = some .directory) (clean : AreClean remaining) :
    found.Stands tree := by
  induction walks with
  | done => exact inside
  | blank _ _ induction =>
      exact induction inside fun step member => clean step (List.mem_cons_of_mem _ member)
  | up _ induction =>
      exact induction (sound.closed.above inside)
        fun step member => clean step (List.mem_cons_of_mem _ member)
  | vacant named stands =>
      exact ⟨inside, stands, named.is_file_name (clean _ List.mem_cons_self)⟩
  | down _ stands _ induction =>
      exact induction stands fun step member => clean step (List.mem_cons_of_mem _ member)
  | file _ stands => exact stands
  | link _ stands _ => exact stands
  | follows _ stands _ _ induction =>
      refine induction (start_of_stands inside _) fun step member => ?_
      rcases List.mem_append.mp member with ofTarget | later
      · exact steps_clean (sound.targets _ _ stands) step ofTarget
      · exact clean step (List.mem_cons_of_mem _ later)

/-! ### Cutting a walk -/

/-- A way to a directory ends with some links left to follow, and goes on from there. -/
structure Leads (tree : FileTree) (links : Nat) (here : Place) (way : List String)
    (left : Nat) (directory : Place) : Prop where
  arrives : tree.Walks true links here way (.present directory .directory)
  goes {follow : Bool} {step : String} {rest : List String} {found : Found}
    (walks : tree.Walks follow left directory (step :: rest) found) :
    tree.Walks follow links here (way ++ step :: rest) found

namespace Leads

variable {way : List String} {step target : String} {left : Nat} {directory : Place}

theorem atStart : tree.Leads links here [] links here := ⟨.done, id⟩

theorem blank (nothing : step = "" ∨ step = ".")
    (leads : tree.Leads links here way left directory) :
    tree.Leads links here (step :: way) left directory :=
  ⟨.blank nothing leads.arrives, fun walks => .blank nothing (leads.goes walks)⟩

theorem up (leads : tree.Leads links here.dropLast way left directory) :
    tree.Leads links here (".." :: way) left directory :=
  ⟨.up leads.arrives, fun walks => .up (leads.goes walks)⟩

theorem down (named : IsEntryName step) (stands : tree.node? (here ++ [step]) = some .directory)
    (leads : tree.Leads links (here ++ [step]) way left directory) :
    tree.Leads links here (step :: way) left directory :=
  ⟨.down named stands leads.arrives, fun walks => .down named stands (leads.goes walks)⟩

theorem follows (named : IsEntryName step)
    (stands : tree.node? (here ++ [step]) = some (.link target))
    (leads : tree.Leads links (startOf here target) (steps target ++ way) left directory) :
    tree.Leads (links + 1) here (step :: way) left directory where
  arrives := .follows named stands (.inr rfl) leads.arrives
  goes := by
    intro follow next rest found walks
    have onward := leads.goes walks
    rw [List.append_assoc] at onward
    exact .follows named stands (.inl (by simp)) onward

end Leads

theorem Walks.leads {way : List String} {last : Found} (walks : tree.Walks true links here way last)
    {directory : Place} (arrives : last = .present directory .directory) :
    ∃ left, tree.Leads links here way left directory := by
  induction walks with
  | done =>
      cases arrives
      exact ⟨_, .atStart⟩
  | blank nothing _ induction => exact (induction arrives).imp fun _ => .blank nothing
  | up _ induction => exact (induction arrives).imp fun _ => .up
  | vacant => cases arrives
  | down named stands _ induction => exact (induction arrives).imp fun _ => .down named stands
  | file => cases arrives
  | link => cases arrives
  | follows named stands _ _ induction =>
      exact (induction arrives).imp fun _ => .follows named stands

theorem alone_of_append {way behind : List String} {step last : String}
    (alone : [last] = way ++ step :: behind) : way = [] ∧ [last] = step :: behind := by
  cases way <;> simp_all

/-- A walk that goes on behind a way has come to a directory by it. -/
theorem Walks.cut {way behind : List String} {step : String}
    (walks : tree.Walks follow links here remaining found)
    (whole : remaining = way ++ step :: behind) :
    ∃ left directory, tree.Leads links here way left directory ∧
      tree.Walks follow left directory (step :: behind) found := by
  induction walks generalizing way with
  | done => simp at whole
  | blank nothing walks induction =>
      rcases List.cons_eq_append_iff.mp whole with ⟨rfl, same⟩ | ⟨way, rfl, same⟩
      · exact ⟨_, _, .atStart, same ▸ .blank nothing walks⟩
      · obtain ⟨left, directory, leads, last⟩ := induction same
        exact ⟨left, directory, .blank nothing leads, last⟩
  | up walks induction =>
      rcases List.cons_eq_append_iff.mp whole with ⟨rfl, same⟩ | ⟨way, rfl, same⟩
      · exact ⟨_, _, .atStart, same ▸ .up walks⟩
      · obtain ⟨left, directory, leads, last⟩ := induction same
        exact ⟨left, directory, .up leads, last⟩
  | vacant named stands =>
      obtain ⟨rfl, same⟩ := alone_of_append whole
      exact ⟨_, _, .atStart, same ▸ .vacant named stands⟩
  | down named stands walks induction =>
      rcases List.cons_eq_append_iff.mp whole with ⟨rfl, same⟩ | ⟨way, rfl, same⟩
      · exact ⟨_, _, .atStart, same ▸ .down named stands walks⟩
      · obtain ⟨left, directory, leads, last⟩ := induction same
        exact ⟨left, directory, .down named stands leads, last⟩
  | file named stands =>
      obtain ⟨rfl, same⟩ := alone_of_append whole
      exact ⟨_, _, .atStart, same ▸ .file named stands⟩
  | link named stands kept =>
      obtain ⟨rfl, same⟩ := alone_of_append whole
      exact ⟨_, _, .atStart, same ▸ .link named stands kept⟩
  | @follows _ _ _ target _ _ named stands goes walks induction =>
      rcases List.cons_eq_append_iff.mp whole with ⟨rfl, same⟩ | ⟨way, rfl, same⟩
      · exact ⟨_, _, .atStart, same ▸ .follows named stands goes walks⟩
      · obtain ⟨left, directory, leads, last⟩ :=
          induction ((congrArg (steps target ++ ·) same).trans (List.append_assoc ..).symm)
        exact ⟨left, directory, .follows named stands leads, last⟩

/-- Nothing is found only by a name that nothing has. -/
theorem Walks.vacant_here {step name : String} {directory : Place}
    (walks : tree.Walks false links here [step] (.vacant directory name)) :
    directory = here ∧ name = step ∧ IsEntryName step ∧ tree.node? (here ++ [step]) = none := by
  cases walks with
  | blank _ rest => cases rest
  | up rest => cases rest
  | vacant named stands => exact ⟨rfl, rfl, named, stands⟩
  | down _ _ rest => cases rest
  | follows _ _ goes => exact absurd goes (by simp)

/-- A link is found only by its own name. -/
theorem Walks.link_here {step target : String} {place : Place}
    (walks : tree.Walks false links here [step] (.present place (.link target))) :
    place = here ++ [step] ∧ IsEntryName step ∧
      tree.node? (here ++ [step]) = some (.link target) := by
  cases walks with
  | blank _ rest => cases rest
  | up rest => cases rest
  | down _ _ rest => cases rest
  | link named stands => exact ⟨rfl, named, stands⟩
  | follows _ _ goes => exact absurd goes (by simp)

/-- What stands at the end of a way to a directory is found without following a link at the end. -/
theorem Walks.unfollowed {way : List String} {directory : Place}
    (walks : tree.Walks true links here way (.present directory .directory)) :
    ∃ place node, tree.Walks false links here way (.present place node) := by
  rcases List.eq_nil_or_concat way with rfl | ⟨front, last, rfl⟩
  · exact ⟨_, _, .done⟩
  · rw [List.concat_eq_append] at walks ⊢
    obtain ⟨left, between, leads, final⟩ := walks.cut rfl
    cases final with
    | blank nothing => exact ⟨_, _, leads.goes (.blank nothing .done)⟩
    | up => exact ⟨_, _, leads.goes (.up .done)⟩
    | down named stands => exact ⟨_, _, leads.goes (.down named stands .done)⟩
    | follows named stands => exact ⟨_, _, leads.goes (.link named stands rfl)⟩

/-! ### Blank steps -/

def isBlankStep (step : String) : Bool := step == "" || step == "."

theorem is_blank_step_iff {step : String} : isBlankStep step = true ↔ step = "" ∨ step = "." := by
  simp [isBlankStep]

theorem IsEntryName.not_blank {step : String} (named : IsEntryName step) :
    ¬(step = "" ∨ step = ".") := by
  intro nothing
  rcases nothing with rfl | rfl
  · exact named.proper (by decide)
  · exact named.proper (by decide)

theorem Walks.behind_blank {step : String} {rest : List String} (nothing : step = "" ∨ step = ".")
    (walks : tree.Walks follow links here (step :: rest) found) :
    tree.Walks follow links here rest found := by
  cases walks with
  | blank _ walks => exact walks
  | up => exact absurd nothing (by decide)
  | vacant named => exact absurd nothing named.not_blank
  | down named => exact absurd nothing named.not_blank
  | file named => exact absurd nothing named.not_blank
  | link named => exact absurd nothing named.not_blank
  | follows named => exact absurd nothing named.not_blank

theorem arrives_cons_iff {step : String} {rest : List String} {directory : Place} :
    tree.Walks true links here (step :: rest) (.present directory .directory) ↔
      ∃ left between, tree.Leads links here [step] left between ∧
        tree.Walks true left between rest (.present directory .directory) := by
  constructor
  · intro walks
    cases rest with
    | nil =>
        obtain ⟨left, leads⟩ := walks.leads rfl
        exact ⟨left, directory, leads, .done⟩
    | cons next rest => exact walks.cut (List.singleton_append).symm
  · intro through
    obtain ⟨left, between, leads, walks⟩ := through
    cases rest with
    | nil =>
        cases walks
        exact leads.arrives
    | cons next rest => exact leads.goes walks

/-- The way to a directory is the same without its blank steps. -/
theorem arrives_iff_unblanked {way : List String} {directory : Place} :
    tree.Walks true links here way (.present directory .directory) ↔
      tree.Walks true links here (way.filter (!isBlankStep ·)) (.present directory .directory) := by
  induction way generalizing links here with
  | nil => rfl
  | cons step rest induction =>
      cases blank : isBlankStep step with
      | true =>
          have nothing := is_blank_step_iff.mp blank
          rw [List.filter_cons_of_neg (by simp [blank]), ← induction]
          exact ⟨Walks.behind_blank nothing, .blank nothing⟩
      | false =>
          rw [List.filter_cons_of_pos (by simp [blank]), arrives_cons_iff, arrives_cons_iff]
          simp only [induction]

/-! ### Other trees -/

/-- What is found in a tree is found in one that has grown from it. -/
theorem Walks.grows (walks : tree.Walks follow links here remaining found)
    (grows : tree.Grows other) {place : Place} {node : FileNode}
    (present : found = .present place node) :
    other.Walks follow links here remaining found := by
  induction walks with
  | done => exact .done
  | blank nothing _ induction => exact .blank nothing (induction present)
  | up _ induction => exact .up (induction present)
  | vacant => cases present
  | down named stands _ induction =>
      exact .down named (grows _ _ stands) (induction present)
  | file named stands => exact .file named (grows _ _ stands)
  | link named stands kept => exact .link named (grows _ _ stands) kept
  | follows named stands goes _ induction =>
      exact .follows named (grows _ _ stands) goes (induction present)

/-- Nothing or a file stands there, so that no walk passes it. -/
def IsEnd (tree : FileTree) (place : Place) : Prop :=
  ∀ node, tree.node? place = some node → ∃ text isExecutable, node = .file text isExecutable

/-- The trees are alike, but for a spot that no walk passes. -/
structure AlikeBut (spot : Place) (tree other : FileTree) : Prop where
  elsewhere : ∀ place, place ≠ spot → other.node? place = tree.node? place
  here : tree.IsEnd spot
  there : other.IsEnd spot

theorem AlikeBut.symm {spot : Place} (alike : AlikeBut spot tree other) :
    AlikeBut spot other tree :=
  ⟨fun place different => (alike.elsewhere place different).symm, alike.there, alike.here⟩

/-- What another node than a file stands at is not the spot. -/
theorem AlikeBut.kept {spot place : Place} (alike : AlikeBut spot tree other) {node : FileNode}
    (stands : tree.node? place = some node)
    (passed : ∀ text isExecutable, node ≠ .file text isExecutable) :
    other.node? place = some node := by
  rw [alike.elsewhere, stands]
  intro same
  obtain ⟨text, isExecutable, file⟩ := alike.here node (same ▸ stands)
  exact passed text isExecutable file

theorem IsEnd.walks {step : String} (ends : tree.IsEnd (here ++ [step]))
    (named : IsEntryName step) :
    ∃ last, tree.Walks follow links here [step] last ∧ last.place = here ++ [step] := by
  cases stands : tree.node? (here ++ [step]) with
  | none => exact ⟨_, .vacant named stands, rfl⟩
  | some node =>
      obtain ⟨text, isExecutable, rfl⟩ := ends node stands
      exact ⟨_, .file named stands, rfl⟩

/-- A walk leads to the same place, and to the same node unless that is the spot. -/
theorem Walks.alike {spot : Place} (walks : tree.Walks follow links here remaining found)
    (alike : AlikeBut spot tree other) :
    ∃ last, other.Walks follow links here remaining last ∧ last.place = found.place ∧
      (found.place ≠ spot → last = found) := by
  induction walks with
  | done => exact ⟨_, .done, rfl, fun _ => rfl⟩
  | blank nothing _ induction =>
      obtain ⟨last, walks, same⟩ := induction
      exact ⟨last, .blank nothing walks, same⟩
  | up _ induction =>
      obtain ⟨last, walks, same⟩ := induction
      exact ⟨last, .up walks, same⟩
  | @vacant _ here step named stands =>
      by_cases same : here ++ [step] = spot
      · obtain ⟨last, walks, reached⟩ := IsEnd.walks (same ▸ alike.there) named
        exact ⟨last, walks, reached, fun other => absurd same other⟩
      · exact ⟨_, .vacant named ((alike.elsewhere _ same).trans stands), rfl, fun _ => rfl⟩
  | down named stands _ induction =>
      obtain ⟨last, walks, same⟩ := induction
      exact ⟨last, .down named (alike.kept stands nofun) walks, same⟩
  | @file _ here step _ _ named stands =>
      by_cases same : here ++ [step] = spot
      · obtain ⟨last, walks, reached⟩ := IsEnd.walks (same ▸ alike.there) named
        exact ⟨last, walks, reached, fun other => absurd same other⟩
      · exact ⟨_, .file named ((alike.elsewhere _ same).trans stands), rfl, fun _ => rfl⟩
  | link named stands kept =>
      exact ⟨_, .link named (alike.kept stands nofun) kept, rfl, fun _ => rfl⟩
  | follows named stands goes _ induction =>
      obtain ⟨last, walks, same⟩ := induction
      exact ⟨last, .follows named (alike.kept stands nofun) goes walks, same⟩

end ContainerApplets.FileTree
