import ContainerApplets.Command
import ContainerApplets.Proofs.Template.Grammar
import Mathlib.Data.List.Basic

/-!
Command lines as a POSIX shell reads them. The reader splits a line into words and takes quotes and
backslashes away; it gives up where the shell would do more than that. A line that a command is
written as is read back as the tokens of the command.
-/

namespace ContainerApplets.Shell

/-! ### The reader -/

inductive Quoting
  | bare
  | single
  | double
  /-- Behind a backslash, outside quotes or between double quotes. -/
  | escaped
  | doubleEscaped
  deriving DecidableEq

/-- What has been read of a line. A word has begun as soon as a character or a quote of it has been
seen, so it can be empty. -/
structure Reading where
  quoting : Quoting
  word : Option (List Char)
  words : List (List Char)
  deriving DecidableEq

/-- Outside quotes a shell takes these as operators, expansions, patterns, comments, assignments or
references to its history, if only at some places. -/
def active : List Char :=
  ['|', '&', ';', '<', '>', '(', ')', '$', '\x60', '*', '?', '[', '#', '~', '=', '%', '\x7b',
    '\x7d', '!', '^']

/-- Outside quotes only these stand for themselves in every shell and every locale. -/
def isLiteral (char : Char) : Bool := '!' ≤ char && char ≤ '~' && !active.contains char

namespace Reading

def start : Reading := ⟨.bare, none, []⟩

def add (reading : Reading) (quoting : Quoting) (text : List Char) : Reading :=
  { reading with quoting := quoting, word := some (reading.word.getD [] ++ text) }

def endWord (reading : Reading) : Reading :=
  match reading.word with
  | none => reading
  | some word => { reading with word := none, words := reading.words ++ [word] }

/-- Reads one character. A newline behind a backslash is taken away together with it. Between double
quotes a backslash escapes some characters only, expansions take place, and an exclamation mark may
refer to the history. -/
def step (reading : Reading) (char : Char) : Option Reading :=
  match reading.quoting with
  | .bare =>
      if char = ' ' ∨ char = '\t' then some reading.endWord
      else if char = '\'' then some (reading.add .single [])
      else if char = '"' then some (reading.add .double [])
      else if char = '\\' then some { reading with quoting := .escaped }
      else if isLiteral char then some (reading.add .bare [char])
      else none
  | .escaped =>
      if char = '\n' then some { reading with quoting := .bare }
      else some (reading.add .bare [char])
  | .single => some (if char = '\'' then reading.add .bare [] else reading.add .single [char])
  | .double =>
      if char = '"' then some (reading.add .bare [])
      else if char = '\\' then some { reading with quoting := .doubleEscaped }
      else if char ∈ ['$', '\x60', '!'] then none
      else some (reading.add .double [char])
  | .doubleEscaped =>
      if char = '\n' then some { reading with quoting := .double }
      else if char ∈ ['$', '\x60', '"', '\\'] then some (reading.add .double [char])
      else some (reading.add .double ['\\', char])

/-- All quotes have to be closed. -/
def finish (reading : Reading) : Option (List (List Char)) :=
  match reading.quoting with
  | .bare => some reading.endWord.words
  | _ => none

end Reading

/-- The words of a line, if a shell does nothing but split it and remove quotes. -/
def words? (line : String) : Option (List String) := do
  let reading ← line.toList.foldlM Reading.step .start
  return (← reading.finish).map String.ofList

/-! ### What one written piece adds to a word -/

/-- Wherever a word can begin or go on, reading the one adds the other to the word. -/
def Adds (written text : List Char) : Prop :=
  ∀ word words, written.foldlM Reading.step ⟨.bare, word, words⟩ =
    some ⟨.bare, some (word.getD [] ++ text), words⟩

theorem Adds.append {first second text rest : List Char} (one : Adds first text)
    (two : Adds second rest) : Adds (first ++ second) (text ++ rest) := by
  intro word words
  rw [List.foldlM_append, one, Option.bind_eq_bind, Option.bind_some, two, Option.getD_some,
    List.append_assoc]

theorem visible_of_bare {char : Char} (bare : isBare char = true) : '!' ≤ char ∧ char ≤ '~' := by
  rcases Bool.or_eq_true _ _ ▸ bare with alphanumeric | listed
  · simp only [Char.isAlphanum, Char.isDigit, Bool.or_eq_true, Bool.and_eq_true, decide_eq_true_eq,
      Template.is_alpha_iff] at alphanumeric
    rcases alphanumeric with (⟨low, high⟩ | ⟨low, high⟩) | ⟨low, high⟩
    all_goals exact ⟨Char.le_trans (by decide) low, Char.le_trans high (by decide)⟩
  · have all : ("+-./:@]_".toList.all fun sign => '!' ≤ sign && sign ≤ '~') = true := by decide
    simpa using List.all_eq_true.mp all char (List.contains_iff_mem.mp listed)

theorem not_bare :
    ((active ++ [' ', '\t', '\'', '"', '\\']).all fun char => !isBare char) = true := by
  decide

theorem literal_of_bare {char : Char} (bare : isBare char = true) :
    isLiteral char = true ∧ char ∉ [' ', '\t', '\'', '"', '\\'] := by
  have elsewhere : char ∉ active ++ [' ', '\t', '\'', '"', '\\'] := by
    intro member
    simpa [bare] using List.all_eq_true.mp not_bare char member
  rw [List.mem_append, not_or] at elsewhere
  refine ⟨?_, elsewhere.2⟩
  simp [isLiteral, visible_of_bare bare, elsewhere.1]

theorem adds_literal {char : Char} (bare : isBare char = true) : Adds [char] [char] := by
  intro word words
  obtain ⟨literal, ordinary⟩ := literal_of_bare bare
  simp only [List.mem_cons, List.not_mem_nil, or_false, not_or] at ordinary
  obtain ⟨blank, tab, single, double, escape⟩ := ordinary
  simp [Reading.step, Reading.add, blank, tab, single, double, escape, literal]

theorem adds_bare {char : Char} {text : List Char}
    (bare : ∀ letter ∈ char :: text, isBare letter = true) :
    Adds (char :: text) (char :: text) := by
  induction text generalizing char with
  | nil => exact adds_literal (bare char (by simp))
  | cons next rest induction =>
      have later := induction fun letter member => bare letter (List.mem_cons_of_mem _ member)
      exact (adds_literal (bare char (by simp))).append later

/-- What stands between quotes adds to the word that the opening quote has begun. -/
theorem adds_quoted {quote : Char} {quoting : Quoting} {inner text : List Char}
    (opens : ∀ reading : Reading, reading.quoting = .bare →
      reading.step quote = some (reading.add quoting []))
    (closes : ∀ reading : Reading, reading.quoting = quoting →
      reading.step quote = some (reading.add .bare []))
    (within : ∀ word words, inner.foldlM Reading.step ⟨quoting, some word, words⟩ =
      some ⟨quoting, some (word ++ text), words⟩) :
    Adds (quote :: inner ++ [quote]) text := by
  intro word words
  rw [List.cons_append, List.foldlM_cons, opens ⟨.bare, word, words⟩ rfl, Option.bind_eq_bind,
    Option.bind_some, List.foldlM_append, Reading.add, List.append_nil, within,
    Option.bind_eq_bind, Option.bind_some, List.foldlM_cons, closes _ rfl]
  simp [Reading.add]

theorem adds_single {text : List Char} (unquoted : '\'' ∉ text) :
    Adds ('\'' :: text ++ ['\'']) text := by
  apply @adds_quoted _ .single
  · intro reading bare
    simp [Reading.step, bare]
  · intro reading single
    simp [Reading.step, single]
  · induction text with
    | nil => simp
    | cons char rest induction =>
        intro word words
        obtain ⟨different, later⟩ := List.ne_and_not_mem_of_not_mem_cons unquoted
        simp only [List.foldlM_cons, Reading.step, if_neg different.symm, Reading.add,
          Option.bind_eq_bind, Option.bind_some, Option.getD_some]
        rw [induction later, List.append_assoc, List.singleton_append]

/-- Between double quotes a character is read as itself once it is escaped, whatever comes next. -/
theorem read_escape_double {char : Char} (quiet : char ≠ '!') (word : List Char)
    (words : List (List Char)) :
    (escapeDouble char).foldlM Reading.step ⟨.double, some word, words⟩ =
      some ⟨.double, some (word ++ [char]), words⟩ := by
  by_cases special : char ∈ ['$', '\x60', '"', '\\']
  · have ended : char ≠ '\n' := by rintro rfl; simp at special
    simp [escapeDouble, special, Reading.step, Reading.add, ended]
  · simp only [List.mem_cons, List.not_mem_nil, or_false, not_or] at special
    simp [escapeDouble, special, quiet, Reading.step, Reading.add]

theorem adds_double {text : List Char} (quiet : '!' ∉ text) :
    Adds ('"' :: text.flatMap escapeDouble ++ ['"']) text := by
  apply @adds_quoted _ .double
  · intro reading bare
    simp [Reading.step, bare]
  · intro reading double
    simp [Reading.step, double]
  · induction text with
    | nil => simp
    | cons char rest induction =>
        intro word words
        obtain ⟨different, later⟩ := List.ne_and_not_mem_of_not_mem_cons quiet
        rw [List.flatMap_cons, List.foldlM_append, read_escape_double different.symm,
          Option.bind_eq_bind, Option.bind_some, induction later, List.append_assoc,
          List.singleton_append]

/-! ### Words -/

/-- What a style needs of a character to write it so that it is read back. -/
def Style.Fits : Style → Char → Prop
  | .bare, char => isBare char = true
  | .single, char => char ≠ '\''
  | .double, char => char ≠ '!'

theorem Style.fits_of_admits {style : Style} {char : Char} (admitted : style.admits char = true) :
    style.Fits char := by
  cases style <;> simp_all [Style.admits, Style.Fits]

theorem Style.adds_write {style : Style} {char : Char} {text : List Char}
    (fits : ∀ letter ∈ char :: text, style.Fits letter) :
    Adds (style.write (char :: text)) (char :: text) := by
  cases style with
  | bare => exact adds_bare fits
  | single => exact adds_single fun member => fits _ member rfl
  | double => exact adds_double fun member => fits _ member rfl

theorem opening_ne_nil (char : Char) : opening char ≠ [] := by
  by_cases quoted : char = '\'' ∨ char = '\\'
  · rcases quoted with rfl | rfl <;> decide
  · rw [not_or] at quoted
    by_cases caret : char = '^'
    · simp [opening, caret]
    · have single : Style.single ∈ opening char := by
        simp [opening, narrow, Style.admits, caret, quoted]
      exact List.ne_nil_of_mem single

theorem fits_of_mem_opening {style : Style} {char : Char} (member : style ∈ opening char) :
    style.Fits char := by
  unfold opening at member
  split at member
  case isTrue caret =>
    rw [List.mem_singleton.mp member, caret]
    simp [Style.Fits]
  case isFalse => exact Style.fits_of_admits (List.mem_filter.mp member).2

/-- A chunk is left with styles to choose from, and whichever is chosen admits all of it. -/
theorem chunk_styles {styles : List Style} (choice : styles ≠ []) (text : List Char) :
    (chunk styles text).2.1 ≠ [] ∧ ∀ style ∈ (chunk styles text).2.1,
      style ∈ styles ∧ ∀ char ∈ (chunk styles text).1, style.admits char = true := by
  induction text generalizing styles with
  | nil => simpa [chunk] using choice
  | cons char rest induction =>
      rw [chunk]
      split
      case isTrue => simpa using choice
      case isFalse narrowed =>
        obtain ⟨left, admits⟩ := induction (by simpa using narrowed)
        refine ⟨left, fun style member => ?_⟩
        obtain ⟨kept, later⟩ := admits style member
        obtain ⟨known, first⟩ := List.mem_filter.mp kept
        exact ⟨known, List.forall_mem_cons.mpr ⟨first, later⟩⟩

/-- The chunk at the front of a text is read back in the style that is chosen for it. -/
theorem adds_chunk (char : Char) (rest : List Char) :
    Adds (((chunk (opening char) rest).2.1.headD .single).write
      (char :: (chunk (opening char) rest).1)) (char :: (chunk (opening char) rest).1) := by
  obtain ⟨left, admits⟩ := chunk_styles (opening_ne_nil char) rest
  have chosen :
      (chunk (opening char) rest).2.1.headD .single ∈ (chunk (opening char) rest).2.1 := by
    obtain ⟨style, more, styles⟩ := List.exists_cons_of_ne_nil left
    simp [styles]
  obtain ⟨opened, later⟩ := admits _ chosen
  exact Style.adds_write (List.forall_mem_cons.mpr
    ⟨fits_of_mem_opening opened, fun letter member => Style.fits_of_admits (later letter member)⟩)

theorem adds_write_chunks {text : List Char} (filled : text ≠ []) :
    Adds (writeChunks text) text := by
  induction text using writeChunks.induct with
  | case1 => exact absurd rfl filled
  | case2 char rest found induction =>
      rw [writeChunks]
      have front := adds_chunk char rest
      have whole : char :: rest = (char :: found.1) ++ found.2.2 := by
        rw [List.cons_append, chunk_append]
      rw [whole]
      by_cases last : found.2.2 = []
      · simpa [last, found, writeChunks] using front
      · exact front.append (induction last)

theorem adds_word {token : String} (written : '\x00' ∉ token.toList) :
    Adds (word token).toList token.toList := by
  unfold word
  split
  case isTrue empty =>
    rw [String.isEmpty_iff.mp empty]
    exact @adds_single [] (by simp)
  case isFalse filled =>
    rw [if_neg (by simpa using written), String.toList_ofList]
    exact adds_write_chunks (by simpa using filled)

/-! ### Lines -/

/-- A blank outside quotes ends the word, and the next one can begin. -/
theorem Adds.ended {written text : List Char} (adds : Adds written text)
    (words : List (List Char)) :
    (written ++ [' ']).foldlM Reading.step ⟨.bare, none, words⟩ =
      some ⟨.bare, none, words ++ [text]⟩ := by
  rw [List.foldlM_append, adds]
  rfl

theorem reads_line {tokens : List String} (written : ∀ token ∈ tokens, '\x00' ∉ token.toList)
    (words : List (List Char)) :
    ((line tokens).toList.foldlM Reading.step ⟨.bare, none, words⟩).bind Reading.finish =
      some (words ++ tokens.map String.toList) := by
  unfold line
  induction tokens generalizing words with
  | nil => simp [Reading.finish, Reading.endWord]
  | cons token rest induction =>
      have first := adds_word (written token List.mem_cons_self)
      cases rest with
      | nil =>
          rw [List.map_singleton, String.intercalate_singleton, first]
          simp [Reading.finish, Reading.endWord]
      | cons next later =>
          have others := induction
            (fun other member => written other (List.mem_cons_of_mem _ member))
            (words ++ [token.toList])
          rw [List.map_cons, List.map_cons, String.intercalate_cons_cons, ← List.map_cons,
            String.toList_append, String.toList_append, List.foldlM_append,
            show " ".toList = [' '] from rfl, first.ended, Option.bind_eq_bind, Option.bind_some,
            others, List.append_assoc, List.singleton_append, List.map_cons, List.map_cons,
            List.map_cons]

theorem words_line {tokens : List String} (written : ∀ token ∈ tokens, '\x00' ∉ token.toList) :
    words? (line tokens) = some tokens := by
  have read := reads_line written []
  obtain ⟨reading, reached, finished⟩ := Option.bind_eq_some_iff.mp read
  simp [words?, Reading.start, reached, finished]

-- The reader is no inverse of the writer alone: it reads whatever else stands for the same words.
example : words? "docker\trun \\-e  \"GREETING=\"'hello world'" =
    some ["docker", "run", "-e", "GREETING=hello world"] := by decide

/-- A line that is complete by itself is not read any more where an operator follows it. -/
theorem words_forgiven {line : String} (complete : (words? line).isSome) :
    words? (line ++ " || true") = none := by
  obtain ⟨words, read⟩ := Option.isSome_iff_exists.mp complete
  obtain ⟨reading, reached, ended⟩ := Option.bind_eq_some_iff.mp read
  obtain ⟨last, finished, -⟩ := Option.bind_eq_some_iff.mp ended
  have bare : reading.quoting = .bare := by
    unfold Reading.finish at finished
    split at finished <;> simp_all
  have blank : reading.step ' ' = some reading.endWord := by simp [Reading.step, bare]
  have still : reading.endWord.quoting = .bare := by
    unfold Reading.endWord
    split <;> exact bare
  have operator : reading.endWord.step '|' = none := by
    simp [Reading.step, still, isLiteral, active]
  simp [words?, reached, blank, operator]

end ContainerApplets.Shell

namespace ContainerApplets.Command

/-- No token holds NUL, which no line of a shell can hold. -/
def Written (command : Command) : Prop := ∀ token ∈ command.tokens, '\x00' ∉ token.toList

instance (command : Command) : Decidable command.Written :=
  inferInstanceAs (Decidable (∀ token ∈ command.tokens, '\x00' ∉ token.toList))

namespace Written

theorem words_line {command : Command} (written : command.Written) :
    Shell.words? command.line = some command.tokens := Shell.words_line written

theorem words_forgiven {command : Command} (written : command.Written) :
    Shell.words? (command.line ++ " || true") = none :=
  Shell.words_forgiven (by simp [written.words_line])

/-- The suffix of a silent command is never taken for a part of a command that is not silent. -/
theorem silent_of_plan_line {command other : Command} (written : command.Written)
    (apart : other.Written) (alike : other.planLine = command.planLine) :
    other.silent = command.silent := by
  unfold planLine at alike
  by_cases first : other.silent <;> by_cases second : command.silent
  · rw [first, second]
  · rw [if_pos first, if_neg second] at alike
    simpa [alike, written.words_line] using apart.words_forgiven
  · rw [if_neg first, if_pos second] at alike
    simpa [← alike, apart.words_line] using written.words_forgiven
  · simp [first, second]

end Written

/-- A shell that is given the line of a command runs that command: it splits the line into the
tokens and has nothing to expand. So commands with different tokens are never written alike, and
different commands are never planned alike. -/
theorem line_read_back {command : Command} (written : command.Written) :
    Shell.words? command.line = some command.tokens ∧
      ∀ other : Command, other.Written →
        (other.line = command.line → other.tokens = command.tokens) ∧
          (other.planLine = command.planLine → other = command) := by
  refine ⟨written.words_line, fun other apart => ?_⟩
  have same (alike : other.line = command.line) : other.tokens = command.tokens := by
    have both := apart.words_line
    rw [alike, written.words_line] at both
    exact (Option.some.inj both).symm
  refine ⟨same, fun alike => ?_⟩
  have silent := written.silent_of_plan_line apart alike
  have lines : other.line = command.line := by
    unfold planLine at alike
    rw [silent] at alike
    split at alike
    · exact (String.append_left_inj _).mp alike
    · exact alike
  exact congrArg₂ Command.mk silent (same lines)

/-- An empty token, one for which no style of quoting is enough, and one that ends like the line of
a silent command. -/
def awkward : Command := .loud "echo" ["", "don\x27t ^say\\ \"$HOME\"!\nübrig", "a || true"]

theorem awkward_read_back :
    awkward.Written ∧ Shell.words? awkward.line = some awkward.tokens ∧
      ∀ other : Command, other.Written → other.planLine = awkward.planLine → other = awkward :=
  have written : awkward.Written := by decide
  ⟨written, (line_read_back written).1,
    fun other apart => ((line_read_back written).2 other apart).2⟩

end ContainerApplets.Command
