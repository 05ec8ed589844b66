import ContainerApplets.Text.Template
import Mathlib.Data.List.Forall2
import Mathlib.Data.List.TakeWhile
import Mathlib.Logic.ExistsUnique

/-!
The grammar of texts with variables. A text is composed of pieces in exactly one way, and expanding
it puts the meanings of its pieces one after the other. What a variable holds is put in as it is.
-/

namespace ContainerApplets.Template

/-! ### Names -/

def IsNameStart (char : Char) : Prop :=
  ('A' ≤ char ∧ char ≤ 'Z') ∨ ('a' ≤ char ∧ char ≤ 'z') ∨ char = '_'

def IsNameChar (char : Char) : Prop := IsNameStart char ∨ ('0' ≤ char ∧ char ≤ '9')

theorem is_alpha_iff {char : Char} :
    char.isAlpha = true ↔ ('A' ≤ char ∧ char ≤ 'Z') ∨ ('a' ≤ char ∧ char ≤ 'z') := by
  change (decide _ || (decide _ && decide _)) = true ↔ _
  rw [Bool.or_eq_true, Bool.and_eq_true, decide_eq_true_iff, decide_eq_true_iff,
    decide_eq_true_iff]
  rfl

theorem starts_name_iff {char : Char} : startsName char = true ↔ IsNameStart char := by
  rw [startsName, IsNameStart, Bool.or_eq_true, is_alpha_iff, beq_iff_eq, or_assoc]

theorem continues_name_iff {char : Char} : continuesName char = true ↔ IsNameChar char := by
  rw [IsNameChar, ← starts_name_iff]
  simp only [continuesName, startsName, Char.isAlphanum, Char.isDigit, Bool.or_eq_true,
    Bool.and_eq_true, decide_eq_true_eq, beq_iff_eq]
  exact or_right_comm

/-! ### Pieces in front of a text -/

/-- The text is empty or goes on with a character of which this holds. -/
def GoesOn (holds : Char → Prop) (text : List Char) : Prop := ∀ next ∈ text.head?, holds next

/-- A piece can stand ahead of a text if it would not be read on into the text. A dollar sign is a
stray one only if nothing else can be read from it. -/
inductive Piece.Fits : Piece → List Char → Prop
  | literal {text after : List Char} (some : text ≠ []) (plain : '$' ∉ text)
      (ends : GoesOn (· = '$') after) : Fits (.literal text) after
  | dollar {after : List Char} : Fits .dollar after
  | named {first : Char} {rest after : List Char} (starts : IsNameStart first)
      (continues : ∀ char ∈ rest, IsNameChar char) (ends : GoesOn (¬IsNameChar ·) after) :
      Fits (.named (first :: rest)) after
  | braced {body after : List Char} (closes : '\x7d' ∉ body) : Fits (.braced body) after
  | strayAtEnd : Fits .stray []
  | strayBefore {next : Char} {after : List Char} (other : next ≠ '$' ∧ next ≠ '\x7b')
      (nameless : ¬IsNameStart next) : Fits .stray (next :: after)
  | strayUnclosed {after : List Char} (unclosed : '\x7d' ∉ after) : Fits .stray ('\x7b' :: after)

/-- The text is the sources of the pieces, one after the other, each ahead of the rest. -/
inductive Composes : List Piece → List Char → Prop
  | nil : Composes [] []
  | cons {piece : Piece} {pieces : List Piece} {after : List Char} (fits : piece.Fits after)
      (rest : Composes pieces after) : Composes (piece :: pieces) (piece.source ++ after)

theorem Composes.source {pieces : List Piece} {text : List Char} (composes : Composes pieces text) :
    pieces.flatMap Piece.source = text := by
  induction composes with
  | nil => rfl
  | cons _ _ induction => rw [List.flatMap_cons, induction]

section Spans

variable {belongs : Char → Bool} {part after : List Char}

theorem take_while_part (inside : ∀ char ∈ part, belongs char)
    (ends : GoesOn (belongs · = false) after) : (part ++ after).takeWhile belongs = part := by
  rw [List.takeWhile_append_of_pos inside]
  cases after with
  | nil => simp
  | cons next rest => simp [ends next rfl]

theorem drop_while_part (inside : ∀ char ∈ part, belongs char)
    (ends : GoesOn (belongs · = false) after) : (part ++ after).dropWhile belongs = after := by
  rw [List.dropWhile_append_of_pos inside]
  cases after with
  | nil => rfl
  | cons next rest => simp [ends next rfl]

theorem goes_on_drop_while (belongs : Char → Bool) (text : List Char) :
    GoesOn (belongs · = false) (text.dropWhile belongs) := by
  intro next first
  have stops := List.head?_dropWhile_not belongs text
  rw [Option.mem_def.mp first] at stops
  simpa using stops

end Spans

theorem not_mem_take_while (closing : Char) (text : List Char) :
    closing ∉ text.takeWhile (· ≠ closing) := by
  intro member
  simpa using List.mem_takeWhile_imp member

theorem name_start_ne {char : Char} (starts : IsNameStart char) :
    char ≠ '$' ∧ char ≠ '\x7b' := by
  constructor
  · intro same
    subst same
    exact absurd (starts_name_iff.mpr starts) (by decide)
  · intro same
    subst same
    exact absurd (starts_name_iff.mpr starts) (by decide)

/-- The piece that is read after a dollar sign fits ahead of what is left. -/
theorem fits_after_dollar (text : List Char) :
    (afterDollar text).1.Fits (afterDollar text).2 := by
  cases text with
  | nil => exact .strayAtEnd
  | cons char rest =>
      simp only [afterDollar]
      split
      · exact .dollar
      · next notDollar =>
        split
        · next opens =>
          subst opens
          split
          · next none =>
            refine .strayUnclosed fun member => ?_
            simpa using List.dropWhile_eq_nil_iff.mp none _ member
          · exact .braced (not_mem_take_while '\x7d' rest)
        · next notOpening =>
          split
          · next starts =>
            refine .named (starts_name_iff.mp starts) ?_ ?_
            · intro other member
              exact continues_name_iff.mp (List.mem_takeWhile_imp member)
            · intro next first
              rw [← continues_name_iff, goes_on_drop_while continuesName rest next first]
              simp
          · next nameless =>
            exact .strayBefore ⟨notDollar, notOpening⟩
              fun starts => nameless (starts_name_iff.mpr starts)

theorem fits_first_piece (char : Char) (rest : List Char) :
    (firstPiece char rest).1.Fits (firstPiece char rest).2 := by
  rw [firstPiece]
  split
  · exact fits_after_dollar rest
  · next plain =>
    refine .literal (by simp) ?_ ?_
    · simp only [List.mem_cons, not_or]
      exact ⟨Ne.symm plain, not_mem_take_while '$' rest⟩
    · intro next first
      simpa using goes_on_drop_while (fun char => decide (char ≠ '$')) rest next first

theorem composes_pieces (text : List Char) : Composes (pieces text) text := by
  fun_induction pieces text with
  | case1 => exact .nil
  | case2 char rest induction =>
      have composed := Composes.cons (fits_first_piece char rest) induction
      rw [source_first_piece] at composed
      exact composed

/-- A piece that fits ahead of a text is what is read there first. -/
theorem first_piece_of_fits {piece : Piece} {after rest : List Char} {char : Char}
    (fits : piece.Fits after) (whole : piece.source ++ after = char :: rest) :
    firstPiece char rest = (piece, after) := by
  cases fits with
  | @literal text _ some plain ends =>
      obtain ⟨first, more, rfl⟩ := List.exists_cons_of_ne_nil some
      simp only [List.mem_cons, not_or] at plain
      have inside : ∀ other ∈ more, decide (other ≠ '$') :=
        fun other member => decide_eq_true fun same => plain.2 (same ▸ member)
      have stops : GoesOn (fun next => decide (next ≠ '$') = false) after :=
        fun next first => by simp [ends next first]
      obtain ⟨rfl, same⟩ := List.cons.inj whole
      rw [firstPiece, if_neg (Ne.symm plain.1), ← same]
      change (Piece.literal (first :: (more ++ after).takeWhile _), (more ++ after).dropWhile _) = _
      rw [take_while_part inside stops, drop_while_part inside stops]
  | dollar =>
      cases whole
      rfl
  | @named first more _ starts continues ends =>
      cases whole
      have inside : ∀ other ∈ more, continuesName other :=
        fun other member => continues_name_iff.mpr (continues other member)
      have stops : GoesOn (continuesName · = false) after :=
        fun next first => Bool.eq_false_iff.mpr fun holds =>
          ends next first (continues_name_iff.mp holds)
      obtain ⟨notDollar, notOpening⟩ := name_start_ne starts
      change afterDollar (first :: (more ++ after)) = _
      rw [afterDollar, if_neg notDollar, if_neg notOpening,
        if_pos (starts_name_iff.mpr starts), take_while_part inside stops,
        drop_while_part inside stops]
  | @braced body _ closes =>
      cases whole
      have inside : ∀ other ∈ body, decide (other ≠ '\x7d') :=
        fun other member => decide_eq_true fun same => closes (same ▸ member)
      have stops : GoesOn (fun next => decide (next ≠ '\x7d') = false) ('\x7d' :: after) := by
        intro next first
        cases first
        simp
      change afterDollar ('\x7b' :: (body ++ ['\x7d'] ++ after)) = _
      rw [List.append_assoc, List.singleton_append, afterDollar, if_neg (by decide), if_pos rfl,
        take_while_part inside stops, drop_while_part inside stops]
  | strayAtEnd =>
      cases whole
      rfl
  | @strayBefore next more other nameless =>
      cases whole
      have noName : ¬startsName next = true := fun starts => nameless (starts_name_iff.mp starts)
      change afterDollar (next :: more) = _
      rw [afterDollar, if_neg other.1, if_neg other.2, if_neg noName]
  | @strayUnclosed more unclosed =>
      cases whole
      have none : more.dropWhile (fun char => decide (char ≠ '\x7d')) = [] :=
        List.dropWhile_eq_nil_iff.mpr fun other member =>
          decide_eq_true fun same => unclosed (same ▸ member)
      change afterDollar ('\x7b' :: more) = _
      rw [afterDollar, if_neg (by decide), if_pos rfl, none]

/-- There is one way to compose a text. -/
theorem composes_iff {parts : List Piece} {text : List Char} :
    Composes parts text ↔ parts = pieces text := by
  constructor
  · intro composes
    induction composes with
    | nil => rw [pieces]
    | @cons piece parts after fits _ induction =>
        cases whole : piece.source ++ after with
        | nil =>
            have empty := (List.append_eq_nil_iff.mp whole).1
            cases fits with
            | literal some _ _ => exact absurd empty some
            | _ => cases empty
        | cons char rest =>
            rw [pieces, first_piece_of_fits fits whole, induction]
  · intro same
    exact same ▸ composes_pieces text

/-! ### Meanings -/

/-- The body is a name and a default behind the first `:-`. -/
structure HasDefault (body name default : List Char) : Prop where
  whole : body = name ++ ':' :: '-' :: default
  first : ¬[':', '-'] <:+: name ++ [':']

def HasNoDefault (body : List Char) : Prop := ¬[':', '-'] <:+: body

theorem has_default_here {rest name default : List Char} :
    HasDefault (':' :: '-' :: rest) name default ↔ name = [] ∧ default = rest := by
  constructor
  · intro split
    obtain ⟨whole, first⟩ := split
    match name with
    | [] =>
        cases whole
        exact ⟨rfl, rfl⟩
    | [_] => cases whole
    | _ :: _ :: more =>
        cases whole
        exact absurd ⟨[], more ++ [':'], rfl⟩ first
  · intro same
    obtain ⟨rfl, rfl⟩ := same
    exact ⟨rfl, by decide⟩

/-- Elsewhere the body is split behind its first character. -/
theorem has_default_later {char : Char} {rest name default : List Char}
    (other : ∀ more, char = ':' → rest = '-' :: more → False) :
    HasDefault (char :: rest) name default ↔
      ∃ behind, name = char :: behind ∧ HasDefault rest behind default := by
  constructor
  · intro split
    obtain ⟨whole, first⟩ := split
    cases name with
    | nil =>
        obtain ⟨rfl, rfl⟩ := List.cons.inj whole
        exact (other _ rfl rfl).elim
    | cons head behind =>
        obtain ⟨rfl, rfl⟩ := List.cons.inj whole
        exact ⟨behind, rfl, rfl, fun inside => first (List.infix_cons inside)⟩
  · intro later
    obtain ⟨behind, rfl, rfl, first⟩ := later
    refine ⟨rfl, fun inside => ?_⟩
    rcases List.infix_cons_iff.mp inside with atStart | behindStart
    · obtain ⟨rfl, starts⟩ := List.cons_prefix_cons.mp atStart
      cases behind with
      | nil => exact absurd starts (by decide)
      | cons head more =>
          obtain ⟨rfl, _⟩ := List.cons_prefix_cons.mp starts
          exact other _ rfl rfl
    · exact first behindStart

theorem split_default_eq_some_iff {body name default : List Char} :
    splitDefault body = some (name, default) ↔ HasDefault body name default := by
  fun_induction splitDefault body generalizing name with
  | case1 rest => simp [has_default_here, eq_comm]
  | case2 =>
      refine ⟨by simp, fun split => ?_⟩
      exact absurd split.whole.symm (by simp)
  | case3 char rest other induction =>
      rw [has_default_later other]
      simp only [← induction, Option.map_eq_some_iff, Prod.mk.injEq, Prod.exists]
      constructor
      · intro split
        obtain ⟨behind, _, found, rfl, rfl⟩ := split
        exact ⟨behind, rfl, found⟩
      · intro split
        obtain ⟨behind, rfl, found⟩ := split
        exact ⟨behind, default, found, rfl, rfl⟩

theorem split_default_eq_none_iff {body : List Char} :
    splitDefault body = none ↔ HasNoDefault body := by
  fun_induction splitDefault body with
  | case1 rest => exact ⟨by simp, fun plain => absurd ⟨[], rest, rfl⟩ plain⟩
  | case2 => simp [HasNoDefault]
  | case3 char rest other induction =>
      have notHere : ¬[':', '-'] <+: char :: rest := by
        intro starts
        obtain ⟨rfl, later⟩ := List.cons_prefix_cons.mp starts
        cases rest with
        | nil => exact absurd later (by decide)
        | cons head more =>
            obtain ⟨rfl, _⟩ := List.cons_prefix_cons.mp later
            exact other _ rfl rfl
      rw [Option.map_eq_none_iff, induction, HasNoDefault, HasNoDefault, List.infix_cons_iff,
        or_iff_right notHere]

/-- The text that a piece stands for. A value is put in as it is; a default stands for what it
expands to itself. -/
inductive Piece.Means (lookup : Environment) : Piece → String → Prop
  | literal {text : List Char} : Means lookup (.literal text) (String.ofList text)
  | dollar : Means lookup .dollar "$"
  | stray : Means lookup .stray "$"
  | named {name : List Char} :
      Means lookup (.named name) ((lookup (String.ofList name)).getD "")
  | braced {body : List Char} (plain : HasNoDefault body) :
      Means lookup (.braced body) ((lookup (String.ofList body)).getD "")
  | bracedSet {body name default : List Char} {value : String}
      (split : HasDefault body name default) (set : lookup (String.ofList name) = some value)
      (filled : value ≠ "") : Means lookup (.braced body) value
  | bracedDefault {body name default : List Char} (split : HasDefault body name default)
      (unset : (lookup (String.ofList name)).getD "" = "") :
      Means lookup (.braced body) (expand lookup (String.ofList default))

/-- What is put in for a piece when its text is expanded. -/
def Piece.meaning (lookup : Environment) (piece : Piece) : List Char :=
  match piece.default? with
  | none => piece.value lookup
  | some parts => (setValue lookup parts.1).getD (expandChars lookup parts.2)

theorem expand_chars_eq (lookup : Environment) (text : List Char) :
    expandChars lookup text = (pieces text).flatMap (Piece.meaning lookup) := by
  have unattached : (pieces text).attach.flatMap (fun part => part.val.meaning lookup) =
      (pieces text).flatMap (Piece.meaning lookup) := by
    rw [← List.flatMap_map, List.attach_map_subtype_val]
  rw [← unattached, expandChars]
  apply List.flatMap_congr
  intro part _
  obtain ⟨piece, member⟩ := part
  simp only [Piece.meaning]
  split <;> simp_all

theorem expand_empty (lookup : Environment) : expand lookup "" = "" := by
  rw [expand, expand_chars_eq, String.toList_empty, pieces, List.flatMap_nil, String.ofList_nil]

theorem set_value_eq_none {lookup : Environment} {name : List Char}
    (unset : (lookup (String.ofList name)).getD "" = "") : setValue lookup name = none := by
  simp [setValue, valueOf, unset]

theorem set_value_eq_some {lookup : Environment} {name : List Char} {value : String}
    (set : lookup (String.ofList name) = some value) (filled : value ≠ "") :
    setValue lookup name = some value.toList := by
  have some : value.toList ≠ [] := by simpa using filled
  simp only [setValue, valueOf, set, Option.getD_some]

theorem Piece.Means.eq_meaning {lookup : Environment} {piece : Piece} {value : String}
    (means : piece.Means lookup value) : value = String.ofList (piece.meaning lookup) := by
  cases means with
  | literal => rfl
  | dollar => rfl
  | stray => rfl
  | named => simp [meaning, default?, Piece.value, valueOf]
  | braced plain =>
      have unsplit := split_default_eq_none_iff.mpr plain
      simp [meaning, default?, unsplit, Piece.value, valueOf]
  | bracedSet split set filled =>
      have found := split_default_eq_some_iff.mpr split
      simp [meaning, default?, found, set_value_eq_some set filled]
  | bracedDefault split unset =>
      have found := split_default_eq_some_iff.mpr split
      simp [meaning, default?, found, set_value_eq_none unset, expand]

theorem Piece.means_something (lookup : Environment) (piece : Piece) :
    ∃ value, piece.Means lookup value := by
  cases piece with
  | literal text => exact ⟨_, .literal⟩
  | dollar => exact ⟨_, .dollar⟩
  | stray => exact ⟨_, .stray⟩
  | named name => exact ⟨_, .named⟩
  | braced body =>
      cases found : splitDefault body with
      | none => exact ⟨_, .braced (split_default_eq_none_iff.mp found)⟩
      | some parts =>
          have split := split_default_eq_some_iff.mp found
          cases set : lookup (String.ofList parts.1) with
          | none => exact ⟨_, .bracedDefault split (by simp [set])⟩
          | some value =>
              by_cases empty : value = ""
              · exact ⟨_, .bracedDefault split (by simp [set, empty])⟩
              · exact ⟨_, .bracedSet split set empty⟩

/-- A piece means one text, which is what expanding puts in for it. -/
theorem Piece.means_iff {lookup : Environment} {piece : Piece} {value : String} :
    piece.Means lookup value ↔ value = String.ofList (piece.meaning lookup) := by
  constructor
  · exact Means.eq_meaning
  · intro same
    obtain ⟨other, means⟩ := piece.means_something lookup
    rw [same, ← means.eq_meaning]
    exact means

theorem join_meanings (lookup : Environment) (parts : List Piece) :
    String.ofList (parts.flatMap (Piece.meaning lookup)) =
      String.join (parts.map fun part => String.ofList (part.meaning lookup)) := by
  induction parts with
  | nil => rfl
  | cons part rest induction =>
      rw [List.flatMap_cons, String.ofList_append, induction, List.map_cons, String.join_cons]

/-- Expanding reads a text by its grammar. The text is composed of pieces in one way, whose sources
are the text again; each piece means one text; and the expansion is what they mean, in order. -/
theorem expand_implements_grammar (lookup : Environment) (text : String) :
    (∃! parts, Composes parts text.toList) ∧
    (∀ piece : Piece, ∃! value, piece.Means lookup value) ∧
    ∃ parts values, Composes parts text.toList ∧ parts.flatMap Piece.source = text.toList ∧
      List.Forall₂ (Piece.Means lookup) parts values ∧
      expand lookup text = String.join values := by
  refine ⟨⟨pieces text.toList, composes_pieces _, fun other => composes_iff.mp⟩, ?_, ?_⟩
  · intro piece
    exact ⟨_, Piece.means_iff.mpr rfl, fun other => Piece.Means.eq_meaning⟩
  · have composes := composes_pieces text.toList
    refine ⟨pieces text.toList, (pieces text.toList).map (String.ofList <| ·.meaning lookup),
      composes, composes.source, ?_, ?_⟩
    · rw [List.forall₂_map_right_iff, List.forall₂_same]
      exact fun piece _ => Piece.means_iff.mpr rfl
    · rw [expand, expand_chars_eq, join_meanings]

end ContainerApplets.Template
