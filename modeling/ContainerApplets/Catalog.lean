/-!
Finite maps from names to values whose entries stand in name order. Names are compared by
code points, which is also the order of their UTF-8 bytes. The order is part of the type, so
two catalogs with the same entries are equal and a fold over one meets the names in order.
-/

namespace ContainerApplets

/-- Puts an entry at its place in a name-ordered list, over an older entry of that name. -/
def insertEntry {Value : Type} (name : String) (value : Value) :
    List (String × Value) → List (String × Value)
  | [] => [(name, value)]
  | entry :: rest =>
      if name < entry.1 then (name, value) :: entry :: rest
      else if name = entry.1 then (name, value) :: rest
      else entry :: insertEntry name value rest

def NameOrdered {Value : Type} (entries : List (String × Value)) : Prop :=
  entries.Pairwise fun left right => left.1 < right.1

theorem mem_insert_entry_name {Value : Type} {name other : String} {value : Value}
    {entries : List (String × Value)}
    (member : other ∈ (insertEntry name value entries).map Prod.fst) :
    other = name ∨ other ∈ entries.map Prod.fst := by
  induction entries with
  | nil => simpa [insertEntry] using member
  | cons entry rest induction =>
      simp only [insertEntry] at member
      split at member
      · simpa using member
      · split at member
        · next same => subst same; simpa using member
        · rcases (by simpa using member : other = entry.1 ∨ _) with same | later
          · simp [same]
          · rcases induction (by simpa using later) with same | found
            · exact .inl same
            · exact .inr (by simp at found ⊢; exact .inr found)

theorem insert_entry_ordered {Value : Type} (name : String) (value : Value)
    {entries : List (String × Value)} (ordered : NameOrdered entries) :
    NameOrdered (insertEntry name value entries) := by
  induction entries with
  | nil => simp [insertEntry, NameOrdered]
  | cons entry rest induction =>
      have ⟨first, tail⟩ := List.pairwise_cons.mp ordered
      simp only [insertEntry]
      split
      · next less =>
        refine List.pairwise_cons.mpr ⟨fun other member => ?_, ordered⟩
        rcases List.mem_cons.mp member with same | later
        · exact same ▸ less
        · exact String.lt_trans less (first other later)
      · next notLess =>
        split
        · next same => exact List.pairwise_cons.mpr ⟨same ▸ first, tail⟩
        · next different =>
          refine List.pairwise_cons.mpr ⟨fun other member => ?_, induction tail⟩
          rcases mem_insert_entry_name (List.mem_map.mpr ⟨other, member, rfl⟩) with same | later
          · exact same ▸ Std.lt_of_le_of_ne (String.not_lt.1 notLess) (Ne.symm different)
          · obtain ⟨found, member, same⟩ := List.mem_map.mp later
            exact same ▸ first found member

def findEntry {Value : Type} (name : String) : List (String × Value) → Option Value
  | [] => none
  | entry :: rest => if name = entry.1 then some entry.2 else findEntry name rest

theorem find_entry_insert {Value : Type} (name other : String) (value : Value)
    (entries : List (String × Value)) :
    findEntry other (insertEntry name value entries) =
      if other = name then some value else findEntry other entries := by
  induction entries with
  | nil => simp [insertEntry, findEntry]
  | cons entry rest induction =>
      simp only [insertEntry]
      split
      · simp [findEntry]
      · split
        · next equal =>
          subst equal
          by_cases same : other = entry.1 <;> simp [findEntry, same]
        · next different =>
          simp only [findEntry, induction]
          by_cases same : other = entry.1
          · simp [same, Ne.symm different]
          · simp [same]

/-- In an ordered list a name has one entry, so looking it up finds every entry. -/
theorem find_entry_eq_some {Value : Type} {name : String} {value : Value}
    {entries : List (String × Value)} (ordered : NameOrdered entries) :
    findEntry name entries = some value ↔ (name, value) ∈ entries := by
  induction entries with
  | nil => simp [findEntry]
  | cons entry rest induction =>
      have ⟨first, tail⟩ := List.pairwise_cons.mp ordered
      simp only [findEntry]
      split
      · next same =>
        have absent : (name, value) ∉ rest :=
          fun member => String.lt_irrefl name (by simpa [← same] using first _ member)
        rw [List.mem_cons, or_iff_left absent]
        simp [Prod.ext_iff, same, eq_comm]
      · next different =>
        rw [induction tail, List.mem_cons]
        exact ⟨.inr, fun either => either.resolve_left fun same => different (same ▸ rfl)⟩

/-- The names of the rest are greater than the first. -/
theorem find_entry_rest {Value : Type} {entry : String × Value} {rest : List (String × Value)}
    (ordered : NameOrdered (entry :: rest)) : findEntry entry.1 rest = none := by
  have ⟨first, tail⟩ := List.pairwise_cons.mp ordered
  cases found : findEntry entry.1 rest with
  | none => rfl
  | some value =>
      have less := first _ ((find_entry_eq_some tail).mp found)
      exact absurd less (String.lt_irrefl _)

theorem find_entry_map {Value Other : Type} (transform : String → Value → Other) (name : String)
    (entries : List (String × Value)) :
    findEntry name (entries.map fun entry => (entry.1, transform entry.1 entry.2)) =
      (findEntry name entries).map (transform name) := by
  induction entries with
  | nil => rfl
  | cons entry rest induction =>
      simp only [List.map_cons, findEntry]
      split
      · next same => simp [same]
      · exact induction

/-- A finite map from names to values, kept in name order. -/
structure Catalog (Value : Type) where
  entries : List (String × Value)
  ordered : NameOrdered entries
  deriving DecidableEq

namespace Catalog

variable {Value Other : Type}

def empty : Catalog Value := ⟨[], List.Pairwise.nil⟩

instance : Inhabited (Catalog Value) := ⟨empty⟩

def get? (catalog : Catalog Value) (name : String) : Option Value := findEntry name catalog.entries

def contains (catalog : Catalog Value) (name : String) : Bool := (catalog.get? name).isSome

def insert (catalog : Catalog Value) (name : String) (value : Value) : Catalog Value :=
  ⟨insertEntry name value catalog.entries, insert_entry_ordered name value catalog.ordered⟩

def names (catalog : Catalog Value) : List String := catalog.entries.map Prod.fst

def values (catalog : Catalog Value) : List Value := catalog.entries.map Prod.snd

def size (catalog : Catalog Value) : Nat := catalog.entries.length

/-- Of two entries with one name the later stays. -/
def ofList (entries : List (String × Value)) : Catalog Value :=
  entries.foldl (fun catalog entry => catalog.insert entry.1 entry.2) empty

/-- The entries of both; under a common name stands the one of the first. -/
def union (first second : Catalog Value) : Catalog Value :=
  first.entries.foldl (fun catalog entry => catalog.insert entry.1 entry.2) second

/-- Keeps the names and computes each value from its entry. -/
def map (transform : String → Value → Other) (catalog : Catalog Value) : Catalog Other where
  entries := catalog.entries.map fun entry => (entry.1, transform entry.1 entry.2)
  ordered := by simpa only [NameOrdered, List.pairwise_map] using catalog.ordered

theorem get_insert (catalog : Catalog Value) (name other : String) (value : Value) :
    (catalog.insert name value).get? other =
      if other = name then some value else catalog.get? other :=
  find_entry_insert name other value catalog.entries

theorem get_foldl_insert {entries : List (String × Value)} (ordered : NameOrdered entries)
    (catalog : Catalog Value) (name : String) :
    (entries.foldl (fun catalog entry => catalog.insert entry.1 entry.2) catalog).get? name =
      (findEntry name entries).or (catalog.get? name) := by
  induction entries generalizing catalog with
  | nil => rfl
  | cons entry rest induction =>
      rw [List.foldl_cons, induction (List.pairwise_cons.mp ordered).2, get_insert, findEntry]
      by_cases same : name = entry.1
      · subst same
        simp [find_entry_rest ordered]
      · simp [same]

theorem get_union (first second : Catalog Value) (name : String) :
    (first.union second).get? name = (first.get? name).or (second.get? name) :=
  get_foldl_insert first.ordered second name

theorem get_map (transform : String → Value → Other) (catalog : Catalog Value) (name : String) :
    (catalog.map transform).get? name = (catalog.get? name).map (transform name) :=
  find_entry_map transform name catalog.entries

theorem mem_entries {catalog : Catalog Value} {name : String} {value : Value} :
    (name, value) ∈ catalog.entries ↔ catalog.get? name = some value :=
  (find_entry_eq_some catalog.ordered).symm

theorem mem_values {catalog : Catalog Value} {value : Value} :
    value ∈ catalog.values ↔ ∃ name, catalog.get? name = some value := by
  simp [values, ← mem_entries]

theorem mem_names {catalog : Catalog Value} {name : String} :
    name ∈ catalog.names ↔ ∃ value, catalog.get? name = some value := by
  simp [names, ← mem_entries]

theorem mem_union_names {first second : Catalog Value} {name : String} :
    name ∈ (first.union second).names ↔ name ∈ first.names ∨ name ∈ second.names := by
  simp only [mem_names, get_union]
  cases first.get? name <;> simp

/-- Ahead of an entry stand the entries of smaller names. -/
theorem mem_ahead_iff {catalog : Catalog Value} {before after : List (String × Value)}
    {entry other : String × Value} (split : catalog.entries = before ++ entry :: after) :
    other ∈ before ↔ other ∈ catalog.entries ∧ other.1 < entry.1 := by
  have ordered := catalog.ordered
  rw [split, NameOrdered, List.pairwise_append, List.pairwise_cons] at ordered
  obtain ⟨_, ⟨behind, _⟩, ahead⟩ := ordered
  rw [split, List.mem_append, List.mem_cons]
  constructor
  · intro member
    exact ⟨.inl member, ahead other member entry List.mem_cons_self⟩
  · intro both
    obtain ⟨early | rfl | late, less⟩ := both
    · exact early
    · exact absurd less (String.lt_irrefl _)
    · exact absurd (String.lt_trans less (behind other late)) (String.lt_irrefl _)

/-- Catalogs that answer every look-up alike are equal. -/
theorem ext_get {left right : Catalog Value} (same : ∀ name, left.get? name = right.get? name) :
    left = right := by
  have distinct (catalog : Catalog Value) : catalog.entries.Nodup := by
    refine List.Pairwise.imp ?_ catalog.ordered
    intro first second less equal
    subst equal
    exact String.lt_irrefl _ less
  have permuted : left.entries.Perm right.entries := by
    refine (List.perm_ext_iff_of_nodup (distinct left) (distinct right)).mpr fun entry => ?_
    rw [mem_entries, mem_entries, same]
  have equal : left.entries = right.entries :=
    permuted.eq_of_pairwise (fun _ _ _ _ less more =>
      absurd (String.lt_trans less more) (String.lt_irrefl _)) left.ordered right.ordered
  cases left
  cases right
  simpa using equal

theorem of_list_entries (catalog : Catalog Value) : ofList catalog.entries = catalog := by
  apply ext_get
  intro name
  rw [ofList, get_foldl_insert catalog.ordered]
  change (catalog.get? name).or none = catalog.get? name
  exact Option.or_none

end Catalog

/-- A finite set of names in name order. -/
abbrev NameSet := Catalog Unit

def NameSet.insertAll (names : NameSet) (more : List String) : NameSet :=
  more.foldl (fun set name => Catalog.insert set name ()) names

end ContainerApplets
