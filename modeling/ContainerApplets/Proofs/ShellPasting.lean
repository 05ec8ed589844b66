import ContainerApplets.Proofs.ShellReading

/-!
Lines that are pasted into a shell. A token without NUL is read back. A token with NUL is shown
between double quotes as in a message, and there everything is literal but the two characters that
begin an expansion: a line is safe to paste exactly if no such token holds one of them.
-/

namespace ContainerApplets.Shell

/-! ### A shell without a history -/

/-- Reads one character of a line that is not typed. Without a history to refer to, an exclamation
mark stands for itself between double quotes. -/
def Reading.paste (reading : Reading) (char : Char) : Option Reading :=
  if reading.quoting = .double ∧ char = '!' then some (reading.add .double [char])
  else reading.step char

/-- The words of a pasted line, if the shell does nothing but split it and remove quotes. -/
def pasted? (line : String) : Option (List String) := do
  let reading ← line.toList.foldlM Reading.paste .start
  return (← reading.finish).map String.ofList

/-- These begin an expansion between double quotes, too. -/
def expanding : List Char := ['$', '\x60']

/-- The token is shown as in a message although something in it can be expanded. -/
def Exposed (token : String) : Prop :=
  '\x00' ∈ token.toList ∧ ∃ char ∈ expanding, char ∈ token.toList

instance (token : String) : Decidable (Exposed token) :=
  @instDecidableAnd _ _ _ (List.decidableBEx (· ∈ token.toList) expanding)

/-- What is read of a character in a message: of an escape only the backslash in front of a quote or
of another backslash is taken away. -/
def shownChar (char : Char) : List Char :=
  if char ∈ ['"', '\\'] then [char] else Text.quotedChar char

/-- What a shell reads of a token that is not exposed. -/
def shown (token : String) : String :=
  if '\x00' ∈ token.toList then String.ofList (token.toList.flatMap shownChar) else token

/-! ### Reading one token -/

theorem Reading.paste_of_step {reading next : Reading} {char : Char}
    (steps : reading.step char = some next) : reading.paste char = some next := by
  rw [paste, if_neg]
  · exact steps
  · rintro ⟨double, rfl⟩
    simp [step, double] at steps

theorem fold_paste_of_step {text : List Char} {reading last : Reading}
    (reads : text.foldlM Reading.step reading = some last) :
    text.foldlM Reading.paste reading = some last := by
  induction text generalizing reading with
  | nil => exact reads
  | cons char rest induction =>
      rw [List.foldlM_cons] at reads ⊢
      obtain ⟨next, steps, later⟩ := Option.bind_eq_some_iff.mp reads
      rw [Reading.paste_of_step steps]
      exact induction later

/-- Between double quotes all of these stand for themselves. -/
theorem paste_plain {text : List Char} (plain : ∀ char ∈ text, char ∉ '"' :: '\\' :: expanding)
    (word : List Char) (words : List (List Char)) :
    text.foldlM Reading.paste ⟨.double, some word, words⟩ =
      some ⟨.double, some (word ++ text), words⟩ := by
  induction text generalizing word with
  | nil => simp
  | cons char rest induction =>
      obtain ⟨first, later⟩ := List.forall_mem_cons.mp plain
      have taken : Reading.paste ⟨.double, some word, words⟩ char =
          some ⟨.double, some (word ++ [char]), words⟩ := by
        simp only [expanding, List.mem_cons, List.not_mem_nil, or_false, not_or] at first
        by_cases mark : char = '!' <;> simp [Reading.paste, Reading.step, Reading.add, mark, first]
      rw [List.foldlM_cons, taken, Option.bind_eq_bind, Option.bind_some, induction later,
        List.append_assoc, List.singleton_append]

theorem hex_digit_plain {value : Nat} (small : value < 16) :
    Text.hexDigit value ∉ '"' :: '\\' :: expanding := by
  revert value
  decide

theorem hex_digits_plain (value : Nat) :
    ∀ char ∈ Text.hexDigits value, char ∉ '"' :: '\\' :: expanding := by
  induction value using Text.hexDigits.induct with
  | case1 value small =>
      rw [Text.hexDigits, if_pos small]
      simpa using hex_digit_plain small
  | case2 value large induction =>
      rw [Text.hexDigits, if_neg large]
      intro char member
      rcases List.mem_append.mp member with ahead | last
      · exact induction char ahead
      · rw [List.mem_singleton.mp last]
        exact hex_digit_plain (Nat.mod_lt value (by decide))

/-- A backslash that escapes nothing is read together with what it stands in front of. -/
theorem paste_escape {char : Char} {text : List Char} (letter : char ≠ '\n')
    (plain : ∀ other ∈ char :: text, other ∉ '"' :: '\\' :: expanding) (word : List Char)
    (words : List (List Char)) :
    ('\\' :: char :: text).foldlM Reading.paste ⟨.double, some word, words⟩ =
      some ⟨.double, some (word ++ '\\' :: char :: text), words⟩ := by
  obtain ⟨first, later⟩ := List.forall_mem_cons.mp plain
  have taken : ['\\', char].foldlM Reading.paste ⟨.double, some word, words⟩ =
      some ⟨.double, some (word ++ ['\\', char]), words⟩ := by
    simp only [expanding, List.mem_cons, List.not_mem_nil, or_false, not_or] at first
    simp [Reading.paste, Reading.step, Reading.add, letter, first]
  rw [show '\\' :: char :: text = ['\\', char] ++ text from rfl, List.foldlM_append, taken,
    Option.bind_eq_bind, Option.bind_some, paste_plain later, List.append_assoc]

/-- How a character can be written in a message. -/
inductive Quotes (char : Char) : List Char → Prop
  | plain (ordinary : char ∉ ['"', '\\']) : Quotes char [char]
  | escaped (special : char ∈ ['"', '\\']) : Quotes char ['\\', char]
  /-- A backslash and a name of the character, which holds nothing else that is special. -/
  | named {letter : Char} {text : List Char} (ordinary : char ∉ ['"', '\\'])
      (begins : letter ≠ '\n')
      (unspecial : ∀ other ∈ letter :: text, other ∉ '"' :: '\\' :: expanding) :
      Quotes char ('\\' :: letter :: text)

theorem quoted_char_quotes (char : Char) : Quotes char (Text.quotedChar char) := by
  by_cases special : char ∈ ['"', '\\']
  · have written : Text.quotedChar char = ['\\', char] := by
      simp only [List.mem_cons, List.not_mem_nil, or_false] at special
      rcases special with rfl | rfl <;> rfl
    exact written ▸ .escaped special
  have ordinary := special
  simp only [List.mem_cons, List.not_mem_nil, or_false, not_or] at ordinary
  have brief (letter : Char) (listed : letter ∈ ['0', 't', 'n', 'r']) :
      Quotes char ['\\', letter] := by
    simp only [List.mem_cons, List.not_mem_nil, or_false] at listed
    rcases listed with rfl | rfl | rfl | rfl <;>
      exact .named special (by decide) (by simp [expanding])
  unfold Text.quotedChar
  rw [if_neg ordinary.1, if_neg ordinary.2]
  split
  · exact brief '0' (by decide)
  split
  · exact brief 't' (by decide)
  split
  · exact brief 'n' (by decide)
  split
  · exact brief 'r' (by decide)
  split
  · have unspecial : ∀ other ∈ ['u', '\x7b'] ++ Text.hexDigits char.toNat ++ ['\x7d'],
        other ∉ '"' :: '\\' :: expanding := by
      simp only [List.forall_mem_append]
      exact ⟨⟨by simp [expanding], hex_digits_plain char.toNat⟩, by simp [expanding]⟩
    exact .named special (by decide) unspecial
  · exact .plain special

theorem paste_quoted_char {char : Char} (literal : char ∉ expanding) (word : List Char)
    (words : List (List Char)) :
    (Text.quotedChar char).foldlM Reading.paste ⟨.double, some word, words⟩ =
      some ⟨.double, some (word ++ shownChar char), words⟩ := by
  have quotes := quoted_char_quotes char
  unfold shownChar
  revert quotes
  generalize Text.quotedChar char = written
  intro quotes
  cases quotes with
  | plain ordinary =>
      rw [if_neg ordinary]
      exact paste_plain (by simp_all) word words
  | escaped special =>
      rw [if_pos special]
      simp only [List.mem_cons, List.not_mem_nil, or_false] at special
      rcases special with rfl | rfl <;> simp [Reading.paste, Reading.step, Reading.add]
  | named ordinary begins unspecial =>
      rw [if_neg ordinary]
      exact paste_escape begins unspecial word words

/-- Read up to an expansion, the quotes are still open. -/
theorem paste_quoted_chars {text : List Char} (literal : ∀ char ∈ text, char ∉ expanding)
    (word : List Char) (words : List (List Char)) :
    (text.flatMap Text.quotedChar).foldlM Reading.paste ⟨.double, some word, words⟩ =
      some ⟨.double, some (word ++ text.flatMap shownChar), words⟩ := by
  induction text generalizing word with
  | nil => simp
  | cons char rest induction =>
      obtain ⟨first, later⟩ := List.forall_mem_cons.mp literal
      rw [List.flatMap_cons, List.foldlM_append, paste_quoted_char first, Option.bind_eq_bind,
        Option.bind_some, induction later, List.append_assoc, List.flatMap_cons]

/-- A message has no escape for the beginning of an expansion. -/
theorem quoted_expanding {char : Char} (expands : char ∈ expanding) :
    Text.quotedChar char = [char] := by
  simp only [expanding, List.mem_cons, List.not_mem_nil, or_false] at expands
  rcases expands with rfl | rfl <;> rfl

theorem paste_expanding {reading : Reading} {char : Char} (double : reading.quoting = .double)
    (expands : char ∈ expanding) : reading.paste char = none := by
  simp only [expanding, List.mem_cons, List.not_mem_nil, or_false] at expands
  rcases expands with rfl | rfl <;> simp [Reading.paste, Reading.step, double]

/-- Wherever a word can begin or go on, pasting the one adds the other to the word. -/
def Pastes (written text : List Char) : Prop :=
  ∀ word words, written.foldlM Reading.paste ⟨.bare, word, words⟩ =
    some ⟨.bare, some (word.getD [] ++ text), words⟩

theorem word_of_nul {token : String} (nul : '\x00' ∈ token.toList) :
    (word token).toList = '"' :: token.toList.flatMap Text.quotedChar ++ ['"'] := by
  have filled : token.isEmpty = false := by
    rw [Bool.eq_false_iff]
    intro empty
    simp [String.isEmpty_iff.mp empty] at nul
  rw [word, filled, if_neg (by decide), if_pos (by simpa using nul), Text.quoted,
    String.toList_ofList]

theorem pastes_word {token : String} (safe : ¬Exposed token) :
    Pastes (word token).toList (shown token).toList := by
  intro before words
  by_cases nul : '\x00' ∈ token.toList
  · have literal : ∀ char ∈ token.toList, char ∉ expanding :=
      fun char member expands => safe ⟨nul, char, expands, member⟩
    have opened : Reading.paste ⟨.bare, before, words⟩ '"' =
        some ⟨.double, some (before.getD []), words⟩ := by
      simp [Reading.paste, Reading.step, Reading.add]
    rw [word_of_nul nul, List.cons_append, List.foldlM_cons, opened, Option.bind_eq_bind,
      Option.bind_some, List.foldlM_append, paste_quoted_chars literal, shown, if_pos nul,
      String.toList_ofList]
    simp [Reading.paste, Reading.step, Reading.add]
  · rw [shown, if_neg nul]
    exact fold_paste_of_step (adds_word nul before words)

/-- In an exposed token something is met between double quotes that a shell expands there. -/
theorem exposed_word {token : String} (exposed : Exposed token) :
    ∃ ahead char behind, (word token).toList = ahead ++ char :: behind ∧ char ∈ expanding ∧
      ∀ words, ∃ found, ahead.foldlM Reading.paste ⟨.bare, none, words⟩ =
        some ⟨.double, found, words⟩ := by
  obtain ⟨nul, char, expands, member⟩ := exposed
  have present : (token.toList.find? (· ∈ expanding)).isSome :=
    List.find?_isSome.mpr ⟨char, member, by simpa using expands⟩
  obtain ⟨first, found⟩ := Option.isSome_iff_exists.mp present
  obtain ⟨hit, ahead, behind, whole, literal⟩ := List.find?_eq_some_iff_append.mp found
  have expandsFirst : first ∈ expanding := by simpa using hit
  refine ⟨'"' :: ahead.flatMap Text.quotedChar, first,
    behind.flatMap Text.quotedChar ++ ['"'], ?_, expandsFirst, fun words => ?_⟩
  · simp [word_of_nul nul, whole, quoted_expanding expandsFirst]
  · refine ⟨some ([] ++ ahead.flatMap shownChar), ?_⟩
    have opened : Reading.paste ⟨.bare, none, words⟩ '"' = some ⟨.double, some [], words⟩ := rfl
    rw [List.foldlM_cons, opened, Option.bind_eq_bind, Option.bind_some]
    exact paste_quoted_chars (by simpa using literal) [] words

/-! ### Lines -/

theorem line_cons (token : String) {rest : List String} (some : rest ≠ []) :
    (line (token :: rest)).toList = (word token).toList ++ ' ' :: (line rest).toList := by
  obtain ⟨next, later, rfl⟩ := List.exists_cons_of_ne_nil some
  simp [line, String.intercalate_cons_cons]

/-- The tokens ahead are read as words of their own. -/
theorem paste_ahead {before rest : List String} (safe : ∀ token ∈ before, ¬Exposed token)
    (some : rest ≠ []) (words : List (List Char)) :
    ∃ front, (line (before ++ rest)).toList = front ++ (line rest).toList ∧
      front.foldlM Reading.paste ⟨.bare, none, words⟩ =
        Option.some ⟨.bare, none, words ++ before.map (String.toList ∘ shown)⟩ := by
  induction before generalizing words with
  | nil => exact ⟨[], rfl, by simp⟩
  | cons token before induction =>
      obtain ⟨first, later⟩ := List.forall_mem_cons.mp safe
      obtain ⟨front, written, reads⟩ := induction later (words ++ [(shown token).toList])
      refine ⟨(word token).toList ++ ' ' :: front, ?_, ?_⟩
      · rw [List.cons_append, line_cons token (by simp [some]), written]
        simp
      · have ended : Reading.paste ⟨.bare, Option.some (shown token).toList, words⟩ ' ' =
            Option.some ⟨.bare, none, words ++ [(shown token).toList]⟩ := rfl
        rw [List.foldlM_append, pastes_word first, Option.bind_eq_bind, Option.bind_some,
          List.foldlM_cons, Option.getD_none, List.nil_append, ended, Option.bind_eq_bind,
          Option.bind_some, reads]
        simp

theorem pasted_line {tokens : List String} (safe : ∀ token ∈ tokens, ¬Exposed token) :
    pasted? (line tokens) = some (tokens.map shown) := by
  rcases List.eq_nil_or_concat tokens with rfl | ⟨before, last, rfl⟩
  · rfl
  rw [List.concat_eq_append] at safe ⊢
  obtain ⟨safeBefore, safeLast⟩ := List.forall_mem_append.mp safe
  obtain ⟨front, written, reads⟩ := paste_ahead safeBefore (List.cons_ne_nil last []) []
  have final := pastes_word (safeLast last (List.mem_singleton_self last)) none
    ([] ++ before.map (String.toList ∘ shown))
  have whole : (line (before ++ [last])).toList.foldlM Reading.paste .start =
      some ⟨.bare, some (shown last).toList, before.map (String.toList ∘ shown)⟩ := by
    rw [written, List.foldlM_append, Reading.start, reads, line, List.map_singleton,
      String.intercalate_singleton]
    exact final
  simp [pasted?, whole, Reading.finish, Reading.endWord]

/-- Somewhere between double quotes stands a character that begins an expansion there. -/
def Expands (line : String) : Prop :=
  ∃ ahead char behind reading, line.toList = ahead ++ char :: behind ∧ char ∈ expanding ∧
    ahead.foldlM Reading.paste .start = some reading ∧ reading.quoting = .double

theorem Expands.unread {line : String} (expands : Expands line) : pasted? line = none := by
  obtain ⟨ahead, char, behind, reading, whole, begins, reached, double⟩ := expands
  simp [pasted?, whole, reached, paste_expanding double begins]

theorem exposed_line {tokens : List String} (exposed : ∃ token ∈ tokens, Exposed token) :
    Expands (line tokens) := by
  obtain ⟨token, member, exposed⟩ := exposed
  have present : (tokens.find? (Exposed ·)).isSome :=
    List.find?_isSome.mpr ⟨token, member, by simpa using exposed⟩
  obtain ⟨first, found⟩ := Option.isSome_iff_exists.mp present
  obtain ⟨hit, before, after, rfl, safe⟩ := List.find?_eq_some_iff_append.mp found
  obtain ⟨front, written, reads⟩ :=
    paste_ahead (by simpa using safe) (List.cons_ne_nil first after) []
  obtain ⟨ahead, char, behind, whole, expands, opens⟩ := exposed_word (by simpa using hit)
  obtain ⟨text, opened⟩ := opens ([] ++ before.map (String.toList ∘ shown))
  have begins : ∃ rest, (line (first :: after)).toList = (word first).toList ++ rest := by
    by_cases last : after = []
    · exact ⟨[], by simp [last, line]⟩
    · exact ⟨_, line_cons first last⟩
  obtain ⟨rest, begins⟩ := begins
  have reached : (front ++ ahead).foldlM Reading.paste .start =
      some ⟨.double, text, [] ++ before.map (String.toList ∘ shown)⟩ := by
    rw [List.foldlM_append, Reading.start, reads]
    exact opened
  refine ⟨front ++ ahead, char, behind ++ rest, _, ?_, expands, reached, rfl⟩
  rw [written, begins, whole]
  simp

end ContainerApplets.Shell

namespace ContainerApplets.Command

/-- Pasted into a shell, the line of a command is split into its tokens with nothing expanded, and
no operator in it ends the command, unless a token with NUL holds the beginning of an expansion.
Such a beginning stands between double quotes and nothing takes its meaning away. -/
theorem pasted_line_inert_iff (command : Command) :
    ((∀ token ∈ command.tokens, ¬Shell.Exposed token) ↔
      Shell.pasted? command.line = some (command.tokens.map Shell.shown)) ∧
    ((∃ token ∈ command.tokens, Shell.Exposed token) → Shell.Expands command.line) := by
  refine ⟨⟨Shell.pasted_line, fun read token member exposed => ?_⟩, Shell.exposed_line⟩
  have unread := (Shell.exposed_line ⟨token, member, exposed⟩).unread
  rw [line, unread] at read
  cases read

/-- Operators, quotes and a newline in a token with NUL, and an expansion in one without. -/
def hostile : Command :=
  .loud "echo" ["; rm -rf \"/\" | sh & > \n\x00!", "$(id) \x60id\x60"]

theorem hostile_pasted_inert :
    (∀ token ∈ hostile.tokens, ¬Shell.Exposed token) ∧
      Shell.pasted? hostile.line = some
        ["echo", "; rm -rf \"/\" | sh & > \\n\\0!", "$(id) \x60id\x60"] :=
  have safe : ∀ token ∈ hostile.tokens, ¬Shell.Exposed token := by decide
  ⟨safe, (pasted_line_inert_iff hostile).1.mp safe⟩

/-- The same expansion is carried out when NUL is in its token. -/
theorem substitution_pasted_live :
    (Command.loud "echo" ["$(id)\x00"]).line = "echo \"$(id)\\0\"" ∧
      Shell.Expands "echo \"$(id)\\0\"" ∧ Shell.pasted? "echo \"$(id)\\0\"" = none := by
  have written : (Command.loud "echo" ["$(id)\x00"]).line = "echo \"$(id)\\0\"" := by
    decide +kernel
  have expands : Shell.Expands "echo \"$(id)\\0\"" :=
    ⟨"echo \"".toList, '$', "(id)\\0\"".toList, _, by decide, by decide, rfl, rfl⟩
  exact ⟨written, expands, expands.unread⟩

end ContainerApplets.Command
