import ContainerApplets.Files.Tree
import Mathlib.Data.List.TakeWhile

/-!
A path as the names that it is made of. Joining paths joins their names, and the parent of a path
has all names but the last.
-/

namespace ContainerApplets.Path

/-! ### Pieces and names -/

theorem slash_not_mem_piece {text piece : List Char} (member : piece ∈ pieces text) :
    '/' ∉ piece := by
  induction text generalizing piece with
  | nil => simp_all [pieces]
  | cons char rest induction =>
      rw [pieces] at member
      split at member
      · rcases List.mem_cons.mp member with rfl | later
        · simp
        · exact induction later
      · next plain =>
        split at member
        · next none => exact absurd none (pieces_ne_nil rest)
        · next first more found =>
          rcases List.mem_cons.mp member with rfl | later
          · have inside : '/' ∉ first := induction (found ▸ List.mem_cons_self)
            simp [inside, Ne.symm plain]
          · exact induction (found ▸ List.mem_cons_of_mem first later)

theorem mem_join_pieces {parts : List (List Char)} {piece : List Char} (member : piece ∈ parts) :
    piece ⊆ joinPieces parts := by
  induction parts with
  | nil => cases member
  | cons part rest induction =>
      cases rest with
      | nil =>
          rw [List.mem_singleton.mp member]
          exact List.Subset.refl part
      | cons next rest =>
          rw [join_pieces_cons part (by simp)]
          rcases List.mem_cons.mp member with rfl | later
          · exact List.subset_append_left _ _
          · exact fun char inside => by simp [induction later inside]

theorem mem_of_mem_piece {text piece : List Char} (member : piece ∈ pieces text) :
    piece ⊆ text := by
  have inside := mem_join_pieces member
  rw [join_pieces] at inside
  exact inside

theorem first_piece_ne_nil {char : Char} {rest : List Char} (plain : char ≠ '/') :
    ∀ first ∈ (pieces (char :: rest)).head?, first ≠ [] := by
  rw [pieces, if_neg plain]
  split <;> simp

theorem pieces_join_pieces {parts : List (List Char)} (some : parts ≠ [])
    (slashless : ∀ part ∈ parts, '/' ∉ part) : pieces (joinPieces parts) = parts := by
  induction parts with
  | nil => exact absurd rfl some
  | cons part rest induction =>
      have plain := pieces_of_no_slash (slashless part List.mem_cons_self)
      cases rest with
      | nil => exact plain
      | cons next rest =>
          rw [join_pieces_cons part (by simp), pieces_append, plain,
            induction (by simp) fun other member => slashless other (List.mem_cons_of_mem _ member)]
          rfl

def named (parts : List (List Char)) : List String :=
  (parts.filter (!isBlankPiece ·)).map String.ofList

/-- The names of a path in order, `..` included. -/
def names (path : String) : List String := named (pieces path.toList)

@[simp] theorem named_append (left right : List (List Char)) :
    named (left ++ right) = named left ++ named right := by
  simp [named]

@[simp] theorem named_nil : named [] = [] := rfl

@[simp] theorem named_blank (rest : List (List Char)) : named ([] :: rest) = named rest := by
  simp [named, isBlankPiece]

theorem named_blanks {parts : List (List Char)} (blank : ∀ part ∈ parts, isBlankPiece part) :
    named parts = [] := by
  simp only [named, List.map_eq_nil_iff, List.filter_eq_nil_iff]
  exact fun part member => by simp [blank part member]

theorem drop_blanks_append (parts : List (List Char)) :
    ∃ blanks, parts = dropBlanks parts ++ blanks ∧ ∀ part ∈ blanks, isBlankPiece part := by
  refine ⟨(parts.reverse.takeWhile isBlankPiece).reverse, ?_, ?_⟩
  · rw [dropBlanks, ← List.reverse_append, List.takeWhile_append_dropWhile, List.reverse_reverse]
  · intro part member
    exact List.mem_takeWhile_imp (List.mem_reverse.mp member)

theorem named_drop_blanks (parts : List (List Char)) : named (dropBlanks parts) = named parts := by
  obtain ⟨blanks, whole, blank⟩ := drop_blanks_append parts
  have same := congrArg named whole
  rw [named_append, named_blanks blank, List.append_nil] at same
  exact same.symm

theorem last_of_body {parts front : List (List Char)} {last : List Char}
    (body : dropBlanks parts = front ++ [last]) : isBlankPiece last = false := by
  have stops := List.head?_dropWhile_not isBlankPiece parts.reverse
  have ends : (parts.reverse.dropWhile isBlankPiece) = last :: front.reverse := by
    rw [← List.reverse_reverse (parts.reverse.dropWhile isBlankPiece), ← dropBlanks, body]
    simp
  rw [ends] at stops
  simpa using stops

theorem prefix_of_drop_blanks (parts : List (List Char)) : dropBlanks parts <+: parts := by
  obtain ⟨blanks, whole, _⟩ := drop_blanks_append parts
  exact ⟨blanks, whole.symm⟩

/-! ### Below a directory -/

theorem pieces_join (base : String) {path : String} (relative : isAbsolute path = false) :
    ∃ ahead, pieces (join base path).toList = ahead ++ pieces path.toList ∧
      named ahead = names base := by
  rw [join, if_neg (by simp [relative])]
  split
  · next onward =>
    rcases onward with empty | slashed
    · have same : base = "" := by simpa using empty
      exact ⟨[], by simp [same], by simp [same, names, pieces]⟩
    · obtain ⟨front, written⟩ := List.getLast?_eq_some_iff.mp slashed
      refine ⟨pieces front, ?_, ?_⟩
      · rw [String.toList_append, written, List.append_assoc]
        exact pieces_append front path.toList
      · rw [names, written, pieces_append, named_append]
        simp [pieces]
  · refine ⟨pieces base.toList, ?_, rfl⟩
    have written : (base ++ "/" ++ path).toList = base.toList ++ '/' :: path.toList := by simp
    rw [written, pieces_append]

theorem names_join (base : String) {path : String} (relative : isAbsolute path = false) :
    names (join base path) = names base ++ names path := by
  obtain ⟨ahead, written, named⟩ := pieces_join base relative
  rw [names, written, named_append, named]
  rfl

theorem absolute_join (base : String) {path : String} (relative : isAbsolute path = false) :
    isAbsolute (join base path) = isAbsolute base := by
  rw [join, if_neg (by simp [relative])]
  by_cases empty : base = ""
  · rw [if_pos (.inl (by simp [empty])), empty, String.empty_append, relative]
    rfl
  · have some : base.toList ≠ [] := by simpa using empty
    obtain ⟨char, rest, written⟩ := List.exists_cons_of_ne_nil some
    split <;> simp [isAbsolute, written]

/-! ### The parts of a path -/

/-- The pieces stand behind the head as they would be read there. -/
structure Split.Sound (split : Split) : Prop where
  slashless : ∀ piece ∈ split.pieces, '/' ∉ piece
  current : split.head = .current → ∀ first ∈ split.pieces.head?, first = []
  none : split.head = .none → ∀ first ∈ split.pieces.head?, first ≠ []

theorem split_sound {path : String} (some : path ≠ "") : (split path).Sound := by
  rw [split]
  split
  · exact ⟨fun _ => slash_not_mem_piece, by simp, by simp⟩
  · exact ⟨by simp, by simp, by simp⟩
  · refine ⟨fun _ => slash_not_mem_piece, ?_, by simp⟩
    simp [pieces]
  · next text relative _ _ =>
    refine ⟨fun _ => slash_not_mem_piece, by simp, ?_⟩
    have inside : path.toList ≠ [] := by simpa using some
    obtain ⟨char, rest, written⟩ := List.exists_cons_of_ne_nil inside
    rw [written]
    exact fun _ => first_piece_ne_nil fun slash => relative rest (slash ▸ written)

theorem Split.Sound.take {split : Split} (sound : split.Sound) {front : List (List Char)}
    (ahead : front <+: split.pieces) : Sound ⟨split.head, front⟩ := by
  obtain ⟨behind, whole⟩ := ahead
  have first : ∀ piece ∈ front.head?, piece ∈ split.pieces.head? := by
    intro piece member
    rw [← whole, Option.mem_def, List.head?_append, Option.mem_def.mp member]
    rfl
  exact ⟨fun piece member => sound.slashless piece (whole ▸ List.mem_append_left behind member),
    fun same piece member => sound.current same piece (first piece member),
    fun same piece member => sound.none same piece (first piece member)⟩

theorem path_split (path : String) : (split path).path = path := by
  apply String.toList_injective
  simp only [Split.path, split, String.toList_ofList]
  split
  · next rest written => simp [Head.text, join_pieces, written]
  · next written => simp [Head.text, joinPieces, written]
  · next rest written =>
    rw [written, join_pieces]
    rfl
  · simp [Head.text, join_pieces]

theorem named_join_pieces {parts : List (List Char)} (slashless : ∀ part ∈ parts, '/' ∉ part) :
    named (pieces (joinPieces parts)) = named parts := by
  cases parts with
  | nil => rfl
  | cons part rest => rw [pieces_join_pieces (by simp) slashless]

theorem Split.Sound.names_path {split : Split} (sound : split.Sound) :
    names split.path = named split.pieces := by
  obtain ⟨head, parts⟩ := split
  obtain ⟨slashless, current, _⟩ := sound
  rw [names, Split.path, String.toList_ofList]
  cases head with
  | root =>
      change named (Path.pieces ([] ++ '/' :: joinPieces parts)) = _
      rw [pieces_append, named_append, named_join_pieces slashless]
      rfl
  | none => exact named_join_pieces slashless
  | current =>
      match parts with
      | [] => rfl
      | [first] =>
          cases current rfl first rfl
          rfl
      | first :: next :: rest =>
          cases current rfl first rfl
          change named (Path.pieces (['.'] ++ '/' :: joinPieces (next :: rest))) = _
          rw [pieces_append, named_append,
            named_join_pieces fun part member => slashless part (List.mem_cons_of_mem _ member)]
          simp [named, Path.pieces, isBlankPiece]

theorem prefix_of_join_pieces {front parts : List (List Char)} (ahead : front <+: parts) :
    joinPieces front <+: joinPieces parts := by
  induction front generalizing parts with
  | nil => exact List.nil_prefix
  | cons part front induction =>
      obtain ⟨behind, rfl⟩ := ahead
      cases front with
      | nil =>
          cases behind with
          | nil => exact List.prefix_refl _
          | cons next behind => exact List.prefix_append part _
      | cons next front =>
          have onward := induction (List.prefix_append (next :: front) behind)
          rw [join_pieces_cons part (by simp), List.cons_append, join_pieces_cons part (by simp)]
          exact List.prefix_append_right_inj part |>.mpr (List.cons_prefix_cons.mpr ⟨rfl, onward⟩)

theorem Split.Sound.absolute_path {split : Split} (sound : split.Sound) :
    isAbsolute split.path = (split.head == .root) := by
  obtain ⟨head, parts⟩ := split
  rw [isAbsolute, Split.path, String.toList_ofList]
  cases head with
  | root => rfl
  | current => rfl
  | none =>
      match parts with
      | [] => rfl
      | [] :: _ => exact absurd rfl (sound.none rfl [] rfl)
      | (char :: part) :: rest =>
          have plain := sound.slashless _ List.mem_cons_self
          have other : char ≠ '/' := fun slash => plain (slash ▸ List.mem_cons_self)
          have ahead : [char :: part] <+: (char :: part) :: rest := ⟨rest, rfl⟩
          obtain ⟨behind, whole⟩ := prefix_of_join_pieces ahead
          simp [Head.text, ← whole, joinPieces, other]

theorem names_split {path : String} (some : path ≠ "") :
    names path = named (split path).pieces := by
  have written := (split_sound some).names_path
  rw [path_split] at written
  exact written

/-! ### The parent -/

/-- The path of a directory with one more name. -/
structure IsBelow (directory path last : String) : Prop where
  names : names path = names directory ++ [last]
  absolute : isAbsolute directory = isAbsolute path
  ahead : directory.toList <+: path.toList

/-- The path does not end in a slash or a dot. -/
def EndsInName (path : String) : Prop :=
  ∃ front last, pieces path.toList = front ++ [last] ∧ isBlankPiece last = false

/-- The path of pieces that end in a name ends in it, too. -/
theorem Split.Sound.ends_in_name {split : Split} (sound : split.Sound) {front : List (List Char)}
    {last : List Char} (whole : split.pieces = front ++ [last])
    (lastNamed : isBlankPiece last = false) : EndsInName split.path := by
  obtain ⟨head, parts⟩ := split
  obtain ⟨slashless, current, _⟩ := sound
  cases whole
  have joined := pieces_join_pieces (by simp) slashless
  rw [EndsInName, Split.path, String.toList_ofList]
  cases head with
  | root =>
      change ∃ before ending, Path.pieces ([] ++ '/' :: joinPieces _) = before ++ [ending] ∧ _
      rw [pieces_append, joined]
      exact ⟨[] :: front, last, rfl, lastNamed⟩
  | none => exact ⟨front, last, joined, lastNamed⟩
  | current =>
      cases front with
      | nil =>
          cases current rfl last rfl
          cases lastNamed
      | cons first front =>
          cases current rfl first rfl
          have later : Path.pieces (joinPieces (front ++ [last])) = front ++ [last] :=
            pieces_join_pieces (by simp)
              fun part member => slashless part (List.mem_cons_of_mem _ member)
          have text : Head.current.text ++ joinPieces ([] :: (front ++ [last])) =
              ['.'] ++ '/' :: joinPieces (front ++ [last]) := by
            rw [join_pieces_cons [] (by simp)]
            rfl
          refine ⟨['.'] :: front, last, ?_, lastNamed⟩
          exact (congrArg Path.pieces text).trans ((pieces_append _ _).trans (by rw [later]; rfl))

/-- A path that names something has a parent. -/
theorem parent_of_names {path : String} (some : names path ≠ []) :
    ∃ parent last, parent? path = Option.some parent ∧ IsBelow parent path last ∧
      (names parent ≠ [] → EndsInName parent) ∧
      fileName? path = if last = ".." then none else Option.some last := by
  have inside : path ≠ "" := fun empty => some (by rw [empty]; rfl)
  have sound := split_sound inside
  have body : dropBlanks (split path).pieces ≠ [] := by
    intro empty
    rw [names_split inside, ← named_drop_blanks, empty] at some
    exact some rfl
  obtain ⟨front, last, whole⟩ := (List.eq_nil_or_concat _).resolve_left body
  rw [List.concat_eq_append] at whole
  have lastNamed := last_of_body whole
  have ahead : dropBlanks front <+: (split path).pieces :=
    (prefix_of_drop_blanks front).trans (List.IsPrefix.trans ⟨[last], whole.symm⟩
      (prefix_of_drop_blanks (split path).pieces))
  have above := sound.take ahead
  refine ⟨Split.path ⟨(split path).head, dropBlanks front⟩, String.ofList last, ?_, ⟨?_, ?_, ?_⟩,
    ?_, ?_⟩
  · simp [parent?, whole]
  · rw [above.names_path, named_drop_blanks, names_split inside, ← named_drop_blanks, whole,
      named_append]
    simp [named, lastNamed]
  · rw [above.absolute_path, ← path_split path, sound.absolute_path, path_split]
  · have text := congrArg String.toList (path_split path)
    rw [Split.path, String.toList_ofList] at text ⊢
    rw [← text]
    exact (List.prefix_append_right_inj _).mpr (prefix_of_join_pieces ahead)
  · intro further
    rw [above.names_path] at further
    have body : dropBlanks front ≠ [] := by
      intro empty
      rw [empty] at further
      exact further rfl
    obtain ⟨before, ending, whole⟩ := (List.eq_nil_or_concat _).resolve_left body
    rw [List.concat_eq_append] at whole
    exact above.ends_in_name whole (last_of_body whole)
  · rw [fileName?, whole, List.getLast?_concat]
    have same : last = ['.', '.'] ↔ String.ofList last = ".." :=
      ⟨fun same => same ▸ rfl, fun same => by simpa using congrArg String.toList same⟩
    simp [same]

/-! ### Below a directory -/

/-- What one entry of a directory can be called in a path. -/
structure IsPlain (name : String) : Prop where
  slashless : '/' ∉ name.toList
  proper : name ∉ ["", ".", ".."]

instance (name : String) : Decidable (IsPlain name) :=
  decidable_of_iff ('/' ∉ name.toList ∧ name ∉ ["", ".", ".."])
    ⟨fun both => ⟨both.1, both.2⟩, fun plain => ⟨plain.slashless, plain.proper⟩⟩

theorem ne_empty_of_absolute {path : String} (absolute : isAbsolute path = true) : path ≠ "" := by
  rintro rfl
  cases absolute

theorem below_join (base : String) {path entry : String} (relative : isAbsolute path = false)
    (single : names path = [entry]) : IsBelow base (join base path) entry := by
  refine ⟨by rw [names_join base relative, single], (absolute_join base relative).symm, ?_⟩
  rw [join, if_neg (by simp [relative])]
  split <;> simp

theorem IsPlain.relative {name : String} (plain : IsPlain name) : isAbsolute name = false := by
  rw [isAbsolute, beq_eq_false_iff_ne]
  exact fun slashed => plain.slashless (List.mem_of_mem_head? slashed)

theorem IsPlain.pieces_eq {name : String} (plain : IsPlain name) :
    pieces name.toList = [name.toList] := pieces_of_no_slash plain.slashless

theorem IsPlain.not_blank {name : String} (plain : IsPlain name) :
    isBlankPiece name.toList = false := by
  have other (text : String) (listed : text ∈ ["", ".", ".."]) : name.toList ≠ text.toList :=
    fun same => plain.proper (String.toList_injective same ▸ listed)
  rw [isBlankPiece, Bool.or_eq_false_iff, beq_eq_false_iff_ne, beq_eq_false_iff_ne]
  exact ⟨other "" (by simp), other "." (by simp)⟩

theorem IsPlain.names_eq {name : String} (plain : IsPlain name) : names name = [name] := by
  simp [names, plain.pieces_eq, named, plain.not_blank]

theorem split_without_head {path : String} {text : List Char} (written : path.toList = text)
    (relative : ∀ rest, text ≠ '/' :: rest) (named : text ≠ ['.'])
    (ahead : ∀ rest, text ≠ '.' :: '/' :: rest) : split path = ⟨.none, pieces text⟩ := by
  rw [split, written]
  split
  · exact absurd rfl (relative _)
  · exact absurd rfl named
  · exact absurd rfl (ahead _)
  · rfl

theorem IsPlain.split_eq {name : String} (plain : IsPlain name) :
    split name = ⟨.none, [name.toList]⟩ := by
  have slashless := plain.slashless
  rw [split_without_head rfl, plain.pieces_eq]
  · exact fun rest written => slashless (written ▸ List.mem_cons_self)
  · intro dot
    have written : name = "." := String.toList_injective dot
    exact plain.proper (by simp [written])
  · exact fun rest written => slashless (by simp [written])

theorem IsPlain.join_empty {name : String} (plain : IsPlain name) : join "" name = name := by
  rw [join, if_neg (by simp [plain.relative]), if_pos (by simp), String.empty_append]

theorem split_behind_slash (front : List Char) :
    ∃ head parts, ∀ name, IsPlain name →
      split (String.ofList (front ++ '/' :: name.toList)) = ⟨head, parts ++ [name.toList]⟩ := by
  by_cases rooted : ∃ rest, front = '/' :: rest
  · obtain ⟨rest, rfl⟩ := rooted
    refine ⟨.root, pieces rest, fun name plain => ?_⟩
    simp [split, pieces_append, plain.pieces_eq]
  by_cases current : ∃ rest, front = '.' :: '/' :: rest
  · obtain ⟨rest, rfl⟩ := current
    refine ⟨.current, pieces ('/' :: rest), fun name plain => ?_⟩
    simp [split, pieces, pieces_append, plain.pieces_eq]
  by_cases dot : front = ['.']
  · subst dot
    refine ⟨.current, [[]], fun name plain => ?_⟩
    simp [split, pieces, plain.pieces_eq]
  by_cases empty : front = []
  · subst empty
    refine ⟨.root, [], fun name plain => ?_⟩
    simp [split, plain.pieces_eq]
  refine ⟨.none, pieces front, fun name plain => ?_⟩
  rw [split_without_head (String.toList_ofList), pieces_append, plain.pieces_eq]
  · intro rest same
    cases front with
    | nil => exact empty rfl
    | cons char more => exact rooted ⟨more, by simp_all⟩
  · intro same
    simp [List.append_eq_singleton_iff] at same
  · intro rest same
    cases front with
    | nil => exact empty rfl
    | cons char more =>
        cases more with
        | nil => exact dot (by simp_all)
        | cons next more => exact current ⟨more, by simp_all⟩

/-- Only the last piece of a path below a directory depends on its name. -/
theorem split_join (base : String) :
    ∃ head parts, ∀ name, IsPlain name →
      split (join base name) = ⟨head, parts ++ [name.toList]⟩ := by
  by_cases empty : base = ""
  · refine ⟨.none, [], fun name plain => ?_⟩
    rw [empty, plain.join_empty, plain.split_eq]
    rfl
  by_cases slashed : base.toList.getLast? = some '/'
  · obtain ⟨front, written⟩ := List.getLast?_eq_some_iff.mp slashed
    obtain ⟨head, parts, behind⟩ := split_behind_slash front
    refine ⟨head, parts, fun name plain => ?_⟩
    rw [← behind name plain, join, if_neg (by simp [plain.relative]), if_pos (.inr slashed)]
    congr 1
    apply String.toList_injective
    simp [written]
  · obtain ⟨head, parts, behind⟩ := split_behind_slash base.toList
    refine ⟨head, parts, fun name plain => ?_⟩
    rw [← behind name plain, join, if_neg (by simp [plain.relative]),
      if_neg (not_or.mpr ⟨by simpa using empty, slashed⟩)]
    congr 1
    apply String.toList_injective
    simp

theorem ends_in_name_join (base : String) {name : String} (plain : IsPlain name) :
    EndsInName (join base name) := by
  obtain ⟨ahead, written, _⟩ := pieces_join base plain.relative
  rw [plain.pieces_eq] at written
  exact ⟨ahead, name.toList, written, plain.not_blank⟩

/-- Paths of a directory with a plain name more have a common parent. -/
theorem parent_join (base : String) :
    ∃ parent, ∀ name, IsPlain name → parent? (join base name) = some parent ∧
      IsBelow parent (join base name) name ∧ names parent = names base ∧
      (names parent ≠ [] → EndsInName parent) ∧ EndsInName (join base name) := by
  obtain ⟨head, parts, behind⟩ := split_join base
  refine ⟨Split.path ⟨head, dropBlanks parts⟩, fun name plain => ?_⟩
  have found : parent? (join base name) = Option.some (Split.path ⟨head, dropBlanks parts⟩) := by
    have body : dropBlanks (parts ++ [name.toList]) = parts ++ [name.toList] := by
      simp [dropBlanks, plain.not_blank]
    simp [parent?, behind name plain, body]
  have whole : names (join base name) = names base ++ [name] := by
    rw [names_join base plain.relative, plain.names_eq]
  have some : names (join base name) ≠ [] := by simp [whole]
  obtain ⟨parent, last, same, below, tidy, _⟩ := parent_of_names some
  rw [found] at same
  cases same
  obtain ⟨names_eq, ends⟩ := List.append_inj' (below.names.symm.trans whole) rfl
  cases ends
  exact ⟨found, below, names_eq, tidy, ends_in_name_join base plain⟩

theorem file_name_join (directory : String) {name : String} (plain : IsPlain name) :
    fileName? (join directory name) = some name := by
  obtain ⟨head, parts, behind⟩ := split_join directory
  have body : dropBlanks (parts ++ [name.toList]) = parts ++ [name.toList] := by
    simp [dropBlanks, plain.not_blank]
  have down : name.toList ≠ ['.', '.'] := by
    intro up
    have written : name = ".." := String.toList_injective up
    exact plain.proper (by simp [written])
  simp [fileName?, behind name plain, body, down]

theorem plain_of_file_name {path name : String} (last : fileName? path = some name) :
    IsPlain name := by
  rw [fileName?] at last
  split at last
  case h_2 => cases last
  case h_1 piece found =>
    split at last
    case isTrue => cases last
    case isFalse down =>
      cases last
      have some : path ≠ "" := by
        rintro rfl
        cases found
      obtain ⟨front, whole⟩ := List.getLast?_eq_some_iff.mp found
      have member : piece ∈ (split path).pieces :=
        (prefix_of_drop_blanks (split path).pieces).subset (by simp [whole])
      have named := last_of_body whole
      refine ⟨by simpa using (split_sound some).slashless piece member, ?_⟩
      simp only [isBlankPiece, Bool.or_eq_false_iff, beq_eq_false_iff_ne] at named
      simp [← String.toList_inj, named, down]

end ContainerApplets.Path
