import ContainerApplets.Proofs.Template.Grammar

/-!
Texts that stand for themselves. Where every dollar sign is doubled nothing else is read from it,
and what is written behind such a text is expanded as if it stood alone.
-/

namespace ContainerApplets

namespace Template

variable {lookup : Environment} {piece : Piece} {after : List Char}

/-! ### Piece by piece -/

/-- Ahead of a text that it fits, a piece is put in first, and then the text is expanded. -/
theorem Piece.Fits.expand_source (fits : piece.Fits after) :
    expandChars lookup (piece.source ++ after) =
      piece.meaning lookup ++ expandChars lookup after := by
  have composed : piece :: pieces after = pieces (piece.source ++ after) :=
    composes_iff.mp (.cons fits (composes_pieces after))
  rw [expand_chars_eq, ← composed, List.flatMap_cons, ← expand_chars_eq]

theorem expand_doubled (rest : List Char) :
    expandChars lookup ('$' :: '$' :: rest) = '$' :: expandChars lookup rest :=
  Piece.Fits.expand_source .dollar

/-- What is ahead of the first dollar sign is kept. -/
theorem expand_ahead_of_dollar (text : List Char) :
    expandChars lookup text =
      text.takeWhile (· ≠ '$') ++ expandChars lookup (text.dropWhile (· ≠ '$')) := by
  by_cases none : text.takeWhile (· ≠ '$') = []
  · have whole := List.takeWhile_append_dropWhile (p := fun char => decide (char ≠ '$')) (l := text)
    rw [none, List.nil_append] at whole
    rw [none, List.nil_append, whole]
  · have fits : (Piece.literal (text.takeWhile (· ≠ '$'))).Fits (text.dropWhile (· ≠ '$')) := by
      apply Piece.Fits.literal none (not_mem_take_while '$' text)
      intro next first
      simpa using goes_on_drop_while (fun char => decide (char ≠ '$')) text next first
    have expanded : expandChars lookup (text.takeWhile (· ≠ '$') ++ text.dropWhile (· ≠ '$')) =
        text.takeWhile (· ≠ '$') ++ expandChars lookup (text.dropWhile (· ≠ '$')) :=
      fits.expand_source
    rw [List.takeWhile_append_dropWhile] at expanded
    exact expanded

theorem expand_plain {char : Char} (plain : char ≠ '$') (rest : List Char) :
    expandChars lookup (char :: rest) = char :: expandChars lookup rest := by
  rw [expand_ahead_of_dollar, List.takeWhile_cons_of_pos (by simpa using plain),
    List.dropWhile_cons_of_pos (by simpa using plain), List.cons_append, ← expand_ahead_of_dollar]

theorem expand_nothing : expandChars lookup [] = [] := by
  rw [expand_chars_eq, pieces, List.flatMap_nil]

theorem expand_behind {text : List Char} (plain : '$' ∉ text) (behind : List Char) :
    expandChars lookup (text ++ behind) = text ++ expandChars lookup behind := by
  induction text with
  | nil => rfl
  | cons char rest induction =>
      simp only [List.mem_cons, not_or] at plain
      rw [List.cons_append, expand_plain (Ne.symm plain.1), induction plain.2, List.cons_append]

/-- A text without a dollar sign stands for itself. -/
theorem expand_undollared {text : List Char} (plain : '$' ∉ text) :
    expandChars lookup text = text := by
  rw [← List.append_nil text, expand_behind plain, expand_nothing]

/-! ### Doubled dollar signs -/

def escapeChar (char : Char) : List Char := if char = '$' then ['$', '$'] else [char]

theorem expand_escape_char (char : Char) (behind : List Char) :
    expandChars lookup (escapeChar char ++ behind) = char :: expandChars lookup behind := by
  unfold escapeChar
  split
  · next dollar =>
    rw [dollar]
    exact expand_doubled behind
  · next plain => exact expand_plain plain behind

/-- The induction is on the escaped text; what stands behind it is never looked at. -/
theorem expand_escaped (text behind : List Char) :
    expandChars lookup (text.flatMap escapeChar ++ behind) = text ++ expandChars lookup behind := by
  induction text with
  | nil => rfl
  | cons char rest induction =>
      rw [List.flatMap_cons, List.append_assoc, expand_escape_char, induction, List.cons_append]

end Template

/-- The text with every dollar sign doubled. -/
def escape (text : String) : String := String.ofList (text.toList.flatMap Template.escapeChar)

/-- An escaped text stands for itself, whatever variables hold, and it has no say in how the text
behind it is read. -/
theorem expand_escape (lookup : Environment) (text : String) :
    expand lookup (escape text) = text ∧
    ∀ behind, expand lookup (escape text ++ behind) = text ++ expand lookup behind := by
  have ahead (behind : String) :
      expand lookup (escape text ++ behind) = text ++ expand lookup behind := by
    apply String.toList_injective
    simp only [expand, escape, String.toList_append, String.toList_ofList, Template.expand_escaped]
  have alone := ahead ""
  rw [String.append_empty, Template.expand_empty, String.append_empty] at alone
  exact ⟨alone, ahead⟩

/-- Neither the dollar signs at the end nor the brace behind them are taken for a variable. -/
example : expand (fun _ => some "x") (escape "5$" ++ "\x7bA\x7d") = "5$\x7bA\x7d" := by
  decide +kernel

end ContainerApplets
