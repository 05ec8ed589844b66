import ContainerApplets.Text.Quoted

/-!
Words of a command line as a POSIX shell reads them back. A word is cut into chunks, each as long
as one way of writing allows, and each chunk is written bare, in single quotes or in double quotes,
in this order of preference.
-/

namespace ContainerApplets.Shell

inductive Style
  | bare
  | single
  | double
  deriving DecidableEq

def isBare (char : Char) : Bool := char.isAlphanum || "+-./:@]_".toList.contains char

/-- A caret is literal everywhere only right after an opening single quote, so no style admits one
inside a chunk. A backslash in single quotes and an exclamation mark in double quotes are literal
in some shells only. -/
def Style.admits : Style → Char → Bool
  | .bare, char => isBare char
  | .single, char => char ∉ ['\'', '^', '\\']
  | .double, char => char ∉ ['\x60', '$', '!', '^']

def narrow (styles : List Style) (char : Char) : List Style := styles.filter (·.admits char)

/-- The styles that a chunk may have that begins with this character. -/
def opening (char : Char) : List Style :=
  if char = '^' then [.single] else narrow [.bare, .single, .double] char

/-- Extends a chunk as far as one of its styles admits every character. -/
def chunk (styles : List Style) : List Char → List Char × List Style × List Char
  | [] => ([], styles, [])
  | char :: rest =>
      if (narrow styles char).isEmpty then ([], styles, char :: rest)
      else
        let (more, final, after) := chunk (narrow styles char) rest
        (char :: more, final, after)

theorem chunk_append (styles : List Style) (text : List Char) :
    (chunk styles text).1 ++ (chunk styles text).2.2 = text := by
  induction text generalizing styles with
  | nil => rfl
  | cons char rest induction =>
      simp only [chunk]
      split
      · rfl
      · simp [induction]

def escapeDouble (char : Char) : List Char :=
  if ['$', '\x60', '"', '\\'].contains char then ['\\', char] else [char]

def Style.write : Style → List Char → List Char
  | .bare, text => text
  | .single, text => '\'' :: text ++ ['\'']
  | .double, text => '"' :: text.flatMap escapeDouble ++ ['"']

def writeChunks : List Char → List Char
  | [] => []
  | char :: rest =>
      let found := chunk (opening char) rest
      (found.2.1.headD .single).write (char :: found.1) ++ writeChunks found.2.2
  termination_by text => text.length
  decreasing_by
    have whole := congrArg List.length (chunk_append (opening char) rest)
    simp only [List.length_append] at whole
    simp only [List.length_cons]
    omega

/-- A word that holds NUL has no written form in a shell; it is shown quoted instead. -/
def word (token : String) : String :=
  if token.isEmpty then "\x27\x27"
  else if token.toList.contains '\x00' then Text.quoted token
  else String.ofList (writeChunks token.toList)

def line (tokens : List String) : String := " ".intercalate (tokens.map word)

end ContainerApplets.Shell
