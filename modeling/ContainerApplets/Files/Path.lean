/-!
Paths as text. A path names its components between slashes; empty components and `.` name nothing,
except a `.` in front. Two spellings of one list of components are the same path.
-/

namespace ContainerApplets

inductive Component
  | root
  | current
  | parent
  | normal (name : String)
  deriving DecidableEq

namespace Path

/-- The parts between slashes, empty ones included. -/
def pieces : List Char → List (List Char)
  | [] => [[]]
  | char :: rest =>
      if char = '/' then [] :: pieces rest
      else match pieces rest with
        | [] => [[char]]
        | piece :: more => (char :: piece) :: more

def joinPieces : List (List Char) → List Char
  | [] => []
  | [piece] => piece
  | piece :: rest => piece ++ '/' :: joinPieces rest

theorem pieces_ne_nil (text : List Char) : pieces text ≠ [] := by
  cases text with
  | nil => simp [pieces]
  | cons char rest =>
      simp only [pieces]
      split
      · simp
      · split <;> simp

theorem join_pieces_cons (piece : List Char) {rest : List (List Char)} (some : rest ≠ []) :
    joinPieces (piece :: rest) = piece ++ '/' :: joinPieces rest := by
  cases rest with
  | nil => exact absurd rfl some
  | cons => rfl

theorem join_pieces (text : List Char) : joinPieces (pieces text) = text := by
  induction text with
  | nil => rfl
  | cons char rest induction =>
      simp only [pieces]
      split
      · next slash => rw [join_pieces_cons _ (pieces_ne_nil rest), induction, slash]; rfl
      · split
        · next none => exact absurd none (pieces_ne_nil rest)
        · next piece more found =>
          rw [found] at induction
          cases more with
          | nil => simp_all [joinPieces]
          | cons => simp_all [joinPieces]

theorem pieces_append (left right : List Char) :
    pieces (left ++ '/' :: right) = pieces left ++ pieces right := by
  induction left with
  | nil => rfl
  | cons char rest induction =>
      simp only [List.cons_append, pieces, induction]
      split
      · rfl
      · cases found : pieces rest with
        | nil => exact absurd found (pieces_ne_nil rest)
        | cons piece more => rfl

theorem pieces_of_no_slash {text : List Char} (slashless : '/' ∉ text) : pieces text = [text] := by
  induction text with
  | nil => rfl
  | cons char rest induction =>
      simp only [List.mem_cons, not_or] at slashless
      rw [pieces, if_neg (Ne.symm slashless.1), induction slashless.2]

/-- The part of a path in front of its pieces: the root, a `.` in front, or nothing. -/
inductive Head
  | root
  | current
  | none
  deriving DecidableEq

def Head.text : Head → List Char
  | .root => ['/']
  | .current => ['.']
  | .none => []

structure Split where
  head : Head
  pieces : List (List Char)
  deriving DecidableEq

def split (path : String) : Split :=
  match path.toList with
  | '/' :: rest => ⟨.root, pieces rest⟩
  | ['.'] => ⟨.current, [[]]⟩
  | '.' :: '/' :: rest => ⟨.current, pieces ('/' :: rest)⟩
  | text => ⟨.none, pieces text⟩

def Split.path (split : Split) : String :=
  String.ofList (split.head.text ++ joinPieces split.pieces)

/-- Names nothing. -/
def isBlankPiece (piece : List Char) : Bool := piece == [] || piece == ['.']

def dropBlanks (pieces : List (List Char)) : List (List Char) :=
  (pieces.reverse.dropWhile isBlankPiece).reverse

def component (piece : List Char) : Component :=
  if piece = ['.', '.'] then .parent else .normal (String.ofList piece)

def components (path : String) : List Component :=
  let split := split path
  let head := match split.head with
    | .root => [Component.root]
    | .current => [.current]
    | .none => []
  head ++ (split.pieces.filter (!isBlankPiece ·)).map component

def same (left right : String) : Bool := components left == components right

def isAbsolute (path : String) : Bool := path.toList.head? == some '/'

/-- The last component, if it is a name. -/
def fileName? (path : String) : Option String :=
  match (dropBlanks (split path).pieces).getLast? with
  | some piece => if piece = ['.', '.'] then none else some (String.ofList piece)
  | none => none

theorem last_piece_of_split {path : String} (slashed : '/' ∈ path.toList) :
    (split path).pieces.getLast? = (pieces path.toList).getLast? := by
  have behind (piece : List Char) (rest : List Char) :
      (piece :: pieces rest).getLast? = (pieces rest).getLast? := by
    cases found : pieces rest with
    | nil => exact absurd found (pieces_ne_nil rest)
    | cons => rw [List.getLast?_cons_cons]
  rw [split]
  split
  · next rest found => simp [found, pieces, behind]
  · next found => simp [found] at slashed
  · next rest found => simp [found, pieces, behind]
  · rfl

theorem last_of_drop_blanks {pieces : List (List Char)} {piece : List Char}
    (last : pieces.getLast? = some piece) (named : isBlankPiece piece = false) :
    (dropBlanks pieces).getLast? = some piece := by
  obtain ⟨earlier, reversed⟩ :=
    List.head?_eq_some_iff.mp (List.head?_reverse.trans last)
  rw [dropBlanks, List.getLast?_reverse, reversed, List.dropWhile_cons_of_neg (by simp [named]),
    List.head?_cons]

/-- A name below a directory is the last component of its path. -/
theorem file_name_below (directory : String) {name : String} (slashless : '/' ∉ name.toList)
    (proper : name ∉ ["", ".", ".."]) : fileName? (directory ++ "/" ++ name) = some name := by
  have written : (directory ++ "/" ++ name).toList = directory.toList ++ '/' :: name.toList := by
    simp
  have last : (split (directory ++ "/" ++ name)).pieces.getLast? = some name.toList := by
    rw [last_piece_of_split (by simp [written]), written, pieces_append,
      pieces_of_no_slash slashless, List.getLast?_append]
    rfl
  have other (text : String) (listed : text ∈ ["", ".", ".."]) : name.toList ≠ text.toList :=
    fun same => proper (String.toList_injective same ▸ listed)
  have named : isBlankPiece name.toList = false := by
    rw [isBlankPiece, Bool.or_eq_false_iff, beq_eq_false_iff_ne, beq_eq_false_iff_ne]
    exact ⟨other "" (by simp), other "." (by simp)⟩
  have below : name.toList ≠ ['.', '.'] := other ".." (by simp)
  simp [fileName?, last_of_drop_blanks last named, below]

/-- The path without its last component. The root and the empty path have none. -/
def parent? (path : String) : Option String :=
  let split := split path
  let body := dropBlanks split.pieces
  if body.isEmpty then
    match split.head with
    | .current => some ""
    | _ => none
  else some (Split.path ⟨split.head, dropBlanks body.dropLast⟩)

/-- A path below another one; an absolute path stands alone. -/
def join (base path : String) : String :=
  if isAbsolute path then path
  else if base.isEmpty ∨ base.toList.getLast? = some '/' then base ++ path
  else base ++ "/" ++ path

/-- The path, its parent, the parent of that and so on. A parent is shorter. -/
def ancestors (path : String) : List String :=
  match parent? path with
  | some parent => if parent.length < path.length then path :: ancestors parent else [path]
  | none => [path]
  termination_by path.length

end Path

end ContainerApplets
