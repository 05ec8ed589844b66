/-!
Text with variables: `$NAME`, `$` and a name in braces, the same with a default after `:-`, and
`$$` for a dollar sign. A text is cut into pieces from left to right; the meaning of a text is the
meanings of its pieces in order. Values are inserted as they are and not read again.
-/

namespace ContainerApplets

/-- Reads a variable; an unset one has no value. -/
abbrev Environment := String → Option String

namespace Template

def startsName (char : Char) : Bool := char.isAlpha || char == '_'

def continuesName (char : Char) : Bool := char.isAlphanum || char == '_'

inductive Piece
  | literal (text : List Char)
  | dollar
  | named (name : List Char)
  | braced (body : List Char)
  | stray
  deriving DecidableEq

/-- The text that a piece is read from. -/
def Piece.source : Piece → List Char
  | .literal text => text
  | .dollar => ['$', '$']
  | .named name => '$' :: name
  | .braced body => '$' :: '\x7b' :: body ++ ['\x7d']
  | .stray => ['$']

/-- The first piece of what follows a dollar sign, and the text after it. -/
def afterDollar : List Char → Piece × List Char
  | [] => (.stray, [])
  | char :: rest =>
      if char = '$' then (.dollar, rest)
      else if char = '\x7b' then
        match rest.dropWhile (· ≠ '\x7d') with
        | [] => (.stray, char :: rest)
        | _ :: after => (.braced (rest.takeWhile (· ≠ '\x7d')), after)
      else if startsName char then
        (.named (char :: rest.takeWhile continuesName), rest.dropWhile continuesName)
      else (.stray, char :: rest)

def firstPiece (char : Char) (rest : List Char) : Piece × List Char :=
  if char = '$' then afterDollar rest
  else (.literal (char :: rest.takeWhile (· ≠ '$')), rest.dropWhile (· ≠ '$'))

theorem source_after_dollar (text : List Char) :
    (afterDollar text).1.source ++ (afterDollar text).2 = '$' :: text := by
  cases text with
  | nil => rfl
  | cons char rest =>
      simp only [afterDollar]
      split
      · next same => simp [Piece.source, same]
      · split
        · next same =>
          split
          · next none => simp [Piece.source]
          · next closing after found =>
            have closes : closing = '\x7d' := by
              have holds :=
                List.head?_dropWhile_not (fun char : Char => decide (char ≠ '\x7d')) rest
              rw [found] at holds
              simpa using holds
            have whole := List.takeWhile_append_dropWhile
              (p := fun char : Char => decide (char ≠ '\x7d')) (l := rest)
            rw [found, closes] at whole
            simp only [Piece.source, same, List.cons_append, List.append_assoc, List.nil_append]
            rw [whole]
        · split <;> simp [Piece.source, List.takeWhile_append_dropWhile]

theorem source_first_piece (char : Char) (rest : List Char) :
    (firstPiece char rest).1.source ++ (firstPiece char rest).2 = char :: rest := by
  simp only [firstPiece]
  split
  · next same => rw [same]; exact source_after_dollar rest
  · simp [Piece.source, List.takeWhile_append_dropWhile]

theorem source_ne_nil (char : Char) (rest : List Char) : (firstPiece char rest).1.source ≠ [] := by
  simp only [firstPiece]
  split
  · cases rest with
    | nil => simp [afterDollar, Piece.source]
    | cons next rest =>
        simp only [afterDollar]
        repeat' split
        all_goals simp [Piece.source]
  · simp [Piece.source]

theorem first_piece_shorter (char : Char) (rest : List Char) :
    (firstPiece char rest).2.length < (char :: rest).length := by
  have whole := congrArg List.length (source_first_piece char rest)
  have some := List.length_pos_iff.mpr (source_ne_nil char rest)
  simp only [List.length_append] at whole
  omega

/-- The pieces that a text is made of. -/
def pieces : List Char → List Piece
  | [] => []
  | char :: rest => (firstPiece char rest).1 :: pieces (firstPiece char rest).2
  termination_by text => text.length
  decreasing_by exact first_piece_shorter char rest

theorem flat_map_source_pieces (text : List Char) : (pieces text).flatMap Piece.source = text := by
  fun_induction pieces text with
  | case1 => rfl
  | case2 char rest induction =>
      rw [List.flatMap_cons, induction]
      exact source_first_piece char rest

/-- Splits a braced body at its first `:-`. -/
def splitDefault : List Char → Option (List Char × List Char)
  | ':' :: '-' :: rest => some ([], rest)
  | [] => none
  | char :: rest => (splitDefault rest).map fun parts => (char :: parts.1, parts.2)

theorem split_default_shorter {body : List Char} {parts : List Char × List Char}
    (split : splitDefault body = some parts) : parts.2.length < body.length := by
  fun_induction splitDefault body generalizing parts with
  | case1 rest =>
      cases split
      simp only [List.length_cons]
      omega
  | case2 => cases split
  | case3 char rest _ induction =>
      obtain ⟨found, same, rfl⟩ := Option.map_eq_some_iff.mp split
      have shorter := induction same
      simp only [List.length_cons]
      omega

def valueOf (lookup : Environment) (name : List Char) : List Char :=
  ((lookup (String.ofList name)).getD "").toList

/-- The value of a variable that is set and not empty. -/
def setValue (lookup : Environment) (name : List Char) : Option (List Char) :=
  match valueOf lookup name with
  | [] => none
  | value => some value

theorem length_source_le {piece : Piece} {text : List Char} (member : piece ∈ pieces text) :
    piece.source.length ≤ text.length := by
  rw [← flat_map_source_pieces text]
  exact (List.sublist_flatten_of_mem (List.mem_map_of_mem member)).length_le

/-- The variable and the default of a braced piece that has a default. -/
def Piece.default? : Piece → Option (List Char × List Char)
  | .braced body => splitDefault body
  | _ => none

/-- The value of a piece without a default. -/
def Piece.value (lookup : Environment) : Piece → List Char
  | .literal text => text
  | .dollar | .stray => ['$']
  | .named name => valueOf lookup name
  | .braced body => valueOf lookup body

theorem default_shorter {piece : Piece} {text : List Char} {parts : List Char × List Char}
    (member : piece ∈ pieces text) (split : piece.default? = some parts) :
    parts.2.length < text.length := by
  cases piece with
  | braced body =>
      have shorter := split_default_shorter split
      have part := length_source_le member
      simp only [Piece.source, List.length_append, List.length_cons, List.length_nil] at part
      omega
  | _ => simp [Piece.default?] at split

/-- A default is a text with variables again; it counts where the variable is unset or empty. -/
def expandChars (lookup : Environment) (text : List Char) : List Char :=
  (pieces text).attach.flatMap fun ⟨piece, member⟩ =>
    match split : piece.default? with
    | none => piece.value lookup
    | some parts =>
        have := default_shorter member split
        (setValue lookup parts.1).getD (expandChars lookup parts.2)
  termination_by text.length

end Template

/-- Replaces every variable of a text by its value. -/
def expand (lookup : Environment) (text : String) : String :=
  String.ofList (Template.expandChars lookup text.toList)

/-- A text without a dollar sign is not read. -/
def expandMarked (lookup : Environment) (text : String) : String :=
  if text.toList.contains '$' then expand lookup text else text

end ContainerApplets
