import ContainerApplets.Proofs.Template.Escaping

/-!
Defaults that are templates themselves. A default is expanded again, but what is read as the default
ends at the first closing brace, whichever variable that brace was written for. So a template is a
default as it stands exactly if none of its own variables is in braces.
-/

namespace ContainerApplets.Template

variable {lookup : Environment} {name text after : List Char}

/-! ### Names in braces -/

def IsName (name : List Char) : Prop :=
  ∃ first rest, name = first :: rest ∧ IsNameStart first ∧ ∀ char ∈ rest, IsNameChar char

theorem IsName.name_char (named : IsName name) {char : Char} (member : char ∈ name) :
    IsNameChar char := by
  obtain ⟨first, rest, rfl, starts, continues⟩ := named
  rcases List.mem_cons.mp member with rfl | later
  · exact .inl starts
  · exact continues char later

theorem IsName.not_mem (named : IsName name) {char : Char} (other : continuesName char = false) :
    char ∉ name := by
  intro member
  rw [continues_name_iff.mpr (named.name_char member)] at other
  cases other

theorem IsName.unopened (named : IsName name) : '\x7b' ∉ name := named.not_mem (by decide)

theorem IsName.unclosed (named : IsName name) : '\x7d' ∉ name := named.not_mem (by decide)

theorem IsName.has_no_default (named : IsName name) : HasNoDefault name :=
  fun inside => named.not_mem (by decide : continuesName ':' = false) (inside.subset (by simp))

theorem IsName.has_default (named : IsName name) (default : List Char) :
    HasDefault (name ++ ':' :: '-' :: default) name default where
  whole := rfl
  first := by
    intro inside
    have hyphen : '-' ∈ name ++ [':'] := inside.subset (by simp)
    simp only [List.mem_append, List.mem_singleton, Char.reduceEq, or_false] at hyphen
    exact named.not_mem (by decide) hyphen

theorem IsName.meaning_braced (named : IsName name) :
    (Piece.braced name).meaning lookup = valueOf lookup name := by
  have plain := split_default_eq_none_iff.mpr named.has_no_default
  simp only [Piece.meaning, Piece.default?, plain, Piece.value]

/-- The value counts, unless it is empty. -/
theorem IsName.meaning_default (named : IsName name) (default : List Char) :
    (Piece.braced (name ++ ':' :: '-' :: default)).meaning lookup =
      if valueOf lookup name = [] then expandChars lookup default else valueOf lookup name := by
  have split := split_default_eq_some_iff.mpr (named.has_default default)
  simp only [Piece.meaning, Piece.default?, split, setValue]
  cases valueOf lookup name <;> rfl

/-! ### Closing braces -/

/-- A piece takes one closing brace away at most, and only with an opening one. -/
theorem Piece.Fits.closing_le (lookup : Environment) {piece : Piece} (fits : piece.Fits after) :
    piece.source.count '\x7d' ≤
      (piece.meaning lookup).count '\x7d' + piece.source.count '\x7b' := by
  cases fits with
  | literal => exact Nat.le_add_right _ _
  | @named first rest _ starts continues =>
      have named : IsName (first :: rest) := ⟨first, rest, rfl, starts, continues⟩
      have none : '\x7d' ∉ (Piece.named (first :: rest)).source := by
        simpa [Piece.source] using named.unclosed
      rw [List.count_eq_zero.mpr none]
      exact Nat.zero_le _
  | @braced body _ closes =>
      have single : (Piece.braced body).source.count '\x7d' = 1 := by
        simp [Piece.source, List.count_append, List.count_eq_zero.mpr closes]
      have opening : 0 < (Piece.braced body).source.count '\x7b' :=
        List.count_pos_iff.mpr (by simp [Piece.source])
      omega
  | dollar => exact Nat.zero_le _
  | strayAtEnd => exact Nat.zero_le _
  | strayBefore => exact Nat.zero_le _
  | strayUnclosed => exact Nat.zero_le _

theorem Composes.closing_le (lookup : Environment) {parts : List Piece}
    (composes : Composes parts text) :
    text.count '\x7d' ≤
      (parts.flatMap (Piece.meaning lookup)).count '\x7d' + text.count '\x7b' := by
  induction composes with
  | nil => exact Nat.zero_le _
  | cons fits _ induction =>
      have first := fits.closing_le lookup
      rw [List.flatMap_cons, List.count_append, List.count_append, List.count_append]
      omega

/-- Where closing braces outnumber the opening ones, some closing brace is left. -/
theorem closing_left (more : text.count '\x7b' < text.count '\x7d') :
    '\x7d' ∈ expandChars lookup text := by
  have counted := (composes_pieces text).closing_le lookup
  rw [← expand_chars_eq] at counted
  apply List.count_pos_iff.mp
  omega

/-- The text is cut at its first closing brace, which stands behind an opening one. -/
structure CutAtBrace (text head tail : List Char) : Prop where
  whole : text = head ++ '\x7d' :: tail
  first : '\x7d' ∉ head
  opened : '\x7b' ∈ head

theorem CutAtBrace.behind {head tail part : List Char} (cut : CutAtBrace text head tail)
    (unclosed : '\x7d' ∉ part) : CutAtBrace (part ++ text) (part ++ head) tail where
  whole := by rw [cut.whole, List.append_assoc]
  first := by simpa [unclosed] using cut.first
  opened := List.mem_append_right part cut.opened

theorem CutAtBrace.closing_left {head tail : List Char} (cut : CutAtBrace text head tail)
    (balanced : text.count '\x7b' = text.count '\x7d') :
    '\x7d' ∈ expandChars lookup (tail ++ ['\x7d']) := by
  have opened := List.count_pos_iff.mpr cut.opened
  have first := List.count_eq_zero.mpr cut.first
  simp only [cut.whole, List.count_append, List.count_cons_self, first] at balanced
  rw [List.count_cons_of_ne (by decide)] at balanced
  apply Template.closing_left
  rw [List.count_append, List.count_append, List.count_singleton_self]
  have none : ['\x7d'].count '\x7b' = 0 := by decide
  omega

/-! ### Templates in templates -/

/-- A template by its parts, one after the other; a default is a template again. -/
inductive Nested
  | nothing
  | literal (text : List Char) (rest : Nested)
  | dollar (rest : Nested)
  | named (name : List Char) (rest : Nested)
  | braced (name : List Char) (rest : Nested)
  | withDefault (name : List Char) (default rest : Nested)

namespace Nested

def source : Nested → List Char
  | .nothing => []
  | .literal text rest => text ++ rest.source
  | .dollar rest => Piece.dollar.source ++ rest.source
  | .named name rest => (Piece.named name).source ++ rest.source
  | .braced name rest => (Piece.braced name).source ++ rest.source
  | .withDefault name default rest =>
      (Piece.braced (name ++ ':' :: '-' :: default.source)).source ++ rest.source

/-- What the parts stand for. A default counts where its variable is unset or empty. -/
def value (lookup : Environment) : Nested → List Char
  | .nothing => []
  | .literal text rest => text ++ rest.value lookup
  | .dollar rest => '$' :: rest.value lookup
  | .named name rest | .braced name rest => valueOf lookup name ++ rest.value lookup
  | .withDefault name default rest =>
      (if valueOf lookup name = [] then default.value lookup else valueOf lookup name) ++
        rest.value lookup

/-- Text has neither dollar signs nor braces, and a name goes as far as it can. -/
inductive WellFormed : Nested → Prop
  | nothing : WellFormed .nothing
  | literal {text : List Char} {rest : Nested}
      (plain : '$' ∉ text ∧ '\x7b' ∉ text ∧ '\x7d' ∉ text) (formed : rest.WellFormed) :
      WellFormed (.literal text rest)
  | dollar {rest : Nested} (formed : rest.WellFormed) : WellFormed (.dollar rest)
  | named {name : List Char} {rest : Nested} (named : IsName name)
      (ends : GoesOn (¬IsNameChar ·) rest.source) (formed : rest.WellFormed) :
      WellFormed (.named name rest)
  | braced {name : List Char} {rest : Nested} (named : IsName name) (formed : rest.WellFormed) :
      WellFormed (.braced name rest)
  | withDefault {name : List Char} {default rest : Nested} (named : IsName name)
      (inside : default.WellFormed) (formed : rest.WellFormed) :
      WellFormed (.withDefault name default rest)

/-- None of its variables is in braces. -/
def isFlat : Nested → Bool
  | .nothing => true
  | .literal _ rest | .dollar rest | .named _ rest => rest.isFlat
  | .braced .. | .withDefault .. => false

/-- Its defaults are flat. -/
def isShallow : Nested → Bool
  | .nothing => true
  | .literal _ rest | .dollar rest | .named _ rest | .braced _ rest => rest.isShallow
  | .withDefault _ default rest => default.isFlat && rest.isShallow

variable {template default : Nested}

/-! ### Shallow templates -/

theorem shallow_of_flat (flat : template.isFlat = true) : template.isShallow = true := by
  induction template with
  | nothing => rfl
  | literal _ _ induction => exact induction flat
  | dollar _ induction => exact induction flat
  | named _ _ induction => exact induction flat
  | braced => cases flat
  | withDefault => cases flat

theorem WellFormed.closing_not_mem (formed : template.WellFormed)
    (flat : template.isFlat = true) : '\x7d' ∉ template.source := by
  induction formed with
  | nothing => simp [source]
  | literal plain _ induction => simpa [source, plain.2.2] using induction flat
  | dollar _ induction => simpa [source, Piece.source] using induction flat
  | named named _ _ induction => simpa [source, Piece.source, named.unclosed] using induction flat
  | braced => cases flat
  | withDefault => cases flat

/-- Expanding a shallow template gives what its parts stand for. -/
theorem WellFormed.expand_shallow (formed : template.WellFormed)
    (shallow : template.isShallow = true) :
    expandChars lookup template.source = template.value lookup := by
  induction formed with
  | nothing => exact expand_nothing
  | literal plain _ induction => rw [source, value, expand_behind plain.1, induction shallow]
  | dollar _ induction =>
      rw [source, Piece.Fits.dollar.expand_source, induction shallow]
      rfl
  | named named ends _ induction =>
      obtain ⟨first, rest, rfl, starts, continues⟩ := named
      rw [source, (Piece.Fits.named starts continues ends).expand_source, induction shallow]
      rfl
  | braced named _ induction =>
      rw [source, value, (Piece.Fits.braced named.unclosed).expand_source, named.meaning_braced,
        induction shallow]
  | @withDefault name default rest named inside _ inner outer =>
      rw [isShallow, Bool.and_eq_true] at shallow
      have closes : '\x7d' ∉ name ++ ':' :: '-' :: default.source := by
        simpa using ⟨named.unclosed, inside.closing_not_mem shallow.1⟩
      rw [source, value, (Piece.Fits.braced closes).expand_source, named.meaning_default,
        inner (shallow_of_flat shallow.1), outer shallow.2]

/-! ### Braces in templates -/

/-- Every brace is opened and closed. -/
theorem WellFormed.balanced (formed : template.WellFormed) :
    template.source.count '\x7b' = template.source.count '\x7d' := by
  induction formed with
  | nothing => simp [source]
  | literal plain _ induction =>
      simpa [source, List.count_eq_zero.mpr plain.2.1, List.count_eq_zero.mpr plain.2.2]
  | dollar _ induction => simpa [source, Piece.source] using induction
  | named named _ _ induction =>
      simpa [source, Piece.source, List.count_eq_zero.mpr named.unopened,
        List.count_eq_zero.mpr named.unclosed]
  | braced named _ induction =>
      simpa [source, Piece.source, List.count_eq_zero.mpr named.unopened,
        List.count_eq_zero.mpr named.unclosed]
  | withDefault named _ _ inside induction =>
      simp [source, Piece.source, List.count_eq_zero.mpr named.unopened,
        List.count_eq_zero.mpr named.unclosed, inside, induction, Nat.add_assoc]

theorem WellFormed.cut (formed : template.WellFormed) (braced : template.isFlat = false) :
    ∃ head tail, CutAtBrace template.source head tail := by
  induction formed with
  | nothing => cases braced
  | literal plain _ induction =>
      obtain ⟨head, tail, cut⟩ := induction braced
      exact ⟨_, tail, cut.behind plain.2.2⟩
  | dollar _ induction =>
      obtain ⟨head, tail, cut⟩ := induction braced
      exact ⟨_, tail, cut.behind (by decide)⟩
  | named named _ _ induction =>
      obtain ⟨head, tail, cut⟩ := induction braced
      exact ⟨_, tail, cut.behind (by simpa [Piece.source] using named.unclosed)⟩
  | @braced name rest named _ _ =>
      refine ⟨'$' :: '\x7b' :: name, rest.source, ?_, ?_, ?_⟩
      · simp [source, Piece.source]
      · simpa using named.unclosed
      · simp
  | @withDefault name default rest named inside _ induction _ =>
      -- The first closing brace is that of the default, if it has one, or else its own.
      have opened : '\x7d' ∉ '$' :: '\x7b' :: name ++ [':', '-'] := by simpa using named.unclosed
      cases flat : default.isFlat with
      | true =>
          refine ⟨'$' :: '\x7b' :: name ++ [':', '-'] ++ default.source, rest.source, ?_, ?_, ?_⟩
          · simp [source, Piece.source]
          · simpa using ⟨named.unclosed, inside.closing_not_mem flat⟩
          · simp
      | false =>
          obtain ⟨head, tail, cut⟩ := induction flat
          have further := cut.behind opened
          refine ⟨_, tail ++ '\x7d' :: rest.source, ?_, further.first, further.opened⟩
          simp [source, Piece.source, cut.whole]

end Nested

/-! ### Defaults -/

/-- What is read as a default ends at the first closing brace. -/
theorem IsName.expand_cut (named : IsName name) {default head tail : List Char}
    (cut : CutAtBrace default head tail) :
    expandChars lookup (Piece.braced (name ++ ':' :: '-' :: default)).source =
      (if valueOf lookup name = [] then expandChars lookup head else valueOf lookup name) ++
        expandChars lookup (tail ++ ['\x7d']) := by
  have closes : '\x7d' ∉ name ++ ':' :: '-' :: head := by
    simpa using ⟨named.unclosed, cut.first⟩
  have fits : (Piece.braced (name ++ ':' :: '-' :: head)).Fits (tail ++ ['\x7d']) := .braced closes
  have whole : (Piece.braced (name ++ ':' :: '-' :: default)).source =
      (Piece.braced (name ++ ':' :: '-' :: head)).source ++ (tail ++ ['\x7d']) := by
    simp [Piece.source, cut.whole]
  rw [whole, fits.expand_source, named.meaning_default]

/-- A variable in braces with this default, and nothing else. -/
def Nested.alone (name : List Char) (default : Nested) : Nested :=
  .withDefault name default .nothing

theorem Nested.source_alone (name : List Char) (default : Nested) :
    (alone name default).source = (Piece.braced (name ++ ':' :: '-' :: default.source)).source := by
  simp [alone, source]

theorem Nested.value_alone (name : List Char) (default : Nested) :
    (alone name default).value lookup =
      if valueOf lookup name = [] then default.value lookup else valueOf lookup name := by
  simp [alone, value]

/-- The default is cut at its first closing brace, and behind what is put in for the variable a
closing brace is left as text. -/
def Nested.IsCutShort (name : List Char) (default : Nested) : Prop :=
  ∃ head tail, CutAtBrace default.source head tail ∧ ∀ lookup,
    expand lookup (String.ofList (alone name default).source) = String.ofList
      ((if valueOf lookup name = [] then expandChars lookup head else valueOf lookup name) ++
        expandChars lookup (tail ++ ['\x7d'])) ∧
    '\x7d' ∈ expandChars lookup (tail ++ ['\x7d'])

theorem Nested.WellFormed.cut_short {default : Nested} (formed : default.WellFormed)
    (named : IsName name) (braced : default.isFlat = false) : default.IsCutShort name := by
  obtain ⟨head, tail, cut⟩ := formed.cut braced
  refine ⟨head, tail, cut, fun lookup => ⟨?_, cut.closing_left formed.balanced⟩⟩
  rw [expand, String.toList_ofList, source_alone, named.expand_cut cut]

/-- A default is taken as it is written, whatever variables hold, exactly if none of its own
variables is in braces. Else it is cut short. -/
theorem default_taken_whole_iff {default : Nested} (named : IsName name)
    (formed : default.WellFormed) :
    (default.isFlat = true ↔ ∀ lookup,
      expand lookup (String.ofList (Nested.alone name default).source) =
        String.ofList ((Nested.alone name default).value lookup)) ∧
    (default.isFlat = false → default.IsCutShort name) := by
  refine ⟨⟨fun flat lookup => ?_, fun taken => ?_⟩, formed.cut_short named⟩
  · have alone : (Nested.alone name default).WellFormed := .withDefault named formed .nothing
    rw [expand, String.toList_ofList, alone.expand_shallow]
    simpa [Nested.alone, Nested.isShallow] using flat
  · -- Where every variable holds the same letter, the brace behind it tells the two apart.
    by_contra braced
    obtain ⟨head, tail, _, expands⟩ := formed.cut_short named (by simpa using braced)
    obtain ⟨expanded, left⟩ := expands fun _ => some "x"
    have same := String.ofList_injective ((taken _).symm.trans expanded)
    have held : valueOf (fun _ => some "x") name = "x".toList := rfl
    rw [Nested.value_alone, held, if_neg (by decide), if_neg (by decide)] at same
    rw [List.append_right_eq_self.mp same.symm] at left
    cases left

/-- Some text and a variable without braces. -/
def cacheDefault : Nested :=
  .literal "cache-".toList (.named "TAG".toList .nothing)

theorem is_name_of_chars {first : Char} {rest : List Char} (starts : startsName first = true)
    (continues : rest.all continuesName = true) : IsName (first :: rest) :=
  ⟨first, rest, rfl, starts_name_iff.mp starts,
    fun char member => continues_name_iff.mp (List.all_eq_true.mp continues char member)⟩

theorem cache_default_taken_whole :
    IsName "DIR".toList ∧ cacheDefault.WellFormed ∧ cacheDefault.isFlat = true ∧
    String.ofList (Nested.alone "DIR".toList cacheDefault).source =
      "$\x7bDIR:-cache-$TAG\x7d" ∧
    expand (fun name => if name = "TAG" then some "v1" else none) "$\x7bDIR:-cache-$TAG\x7d" =
      "cache-v1" := by
  have named : IsName "DIR".toList := is_name_of_chars (by decide) (by decide)
  have tag : IsName "TAG".toList := is_name_of_chars (by decide) (by decide)
  have formed : cacheDefault.WellFormed :=
    .literal (by decide) (.named tag (by simp [GoesOn, Nested.source]) .nothing)
  have written : String.ofList (Nested.alone "DIR".toList cacheDefault).source =
      "$\x7bDIR:-cache-$TAG\x7d" := by decide +kernel
  obtain ⟨whole, _⟩ := default_taken_whole_iff named formed
  refine ⟨named, formed, rfl, written, ?_⟩
  rw [← written, whole.mp rfl]
  decide +kernel

/-- A variable in braces as the default of another one. -/
def bracedDefault : Nested := .braced "B".toList .nothing

/-- Where the outer variable is set, a brace is left behind its value; where none is set, the
default is put in as it is written. -/
theorem braced_default_not_taken :
    IsName "A".toList ∧ bracedDefault.WellFormed ∧
    String.ofList (Nested.alone "A".toList bracedDefault).source = "$\x7bA:-$\x7bB\x7d\x7d" ∧
    expand (fun name => if name = "A" then some "x" else none) "$\x7bA:-$\x7bB\x7d\x7d" =
      "x\x7d" ∧
    (Nested.alone "A".toList bracedDefault).value
      (fun name => if name = "A" then some "x" else none) = "x".toList ∧
    expand (fun _ => none) "$\x7bA:-$\x7bB\x7d\x7d" = "$\x7bB\x7d" ∧
    (Nested.alone "A".toList bracedDefault).value (fun _ => none) = [] := by
  have outer : IsName "A".toList := is_name_of_chars (by decide) (by decide)
  have inner : IsName "B".toList := is_name_of_chars (by decide) (by decide)
  exact ⟨outer, .braced inner .nothing, by decide +kernel⟩

end ContainerApplets.Template
