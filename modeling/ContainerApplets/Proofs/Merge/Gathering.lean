import ContainerApplets.Proofs.Merge.Agreement
import Mathlib.Data.List.Induction

/-!
How the entries of the fragments come together under their names. Applets, volumes and networks are
gathered alike: an entry goes into the draft of its name, which is begun by the first fragment that
mentions the name. What holds of one absorption holds, name by name, of the whole run.
-/

namespace ContainerApplets

/-- What the fragments say about a name, in their order. -/
def entriesOf {Entry : Type} (part : FragmentDocument → Catalog Entry)
    (fragments : List Fragment) (key : String) : List Entry :=
  fragments.filterMap fun fragment => (part fragment.document).get? key

/-- A way to take entries into drafts. `Compatible` says which entries can stand together under a
name, and `Holds` what a draft records of them. -/
structure Absorption (Draft Entry : Type) where
  start : String → Draft
  absorb : String → String → Draft → Entry → Except Failure Draft
  Compatible : String → List Entry → Prop
  Holds : List Entry → Draft → Prop
  compatible_nil : ∀ key, Compatible key []
  compatible_init : ∀ {key entries entry}, Compatible key (entries ++ [entry]) →
    Compatible key entries
  holds_start : ∀ origin, Holds [] (start origin)
  absorb_ok : ∀ {origin key entries draft entry}, Holds entries draft → Compatible key entries →
    ((∃ next, absorb origin key draft entry = .ok next) ↔ Compatible key (entries ++ [entry]))
  absorb_holds : ∀ {origin key entries draft entry next}, Holds entries draft →
    absorb origin key draft entry = .ok next → Holds (entries ++ [entry]) next

namespace Absorption

variable {Draft Entry : Type} (kind : Absorption Draft Entry)

def take (origin : String) (drafts : Catalog Draft) (entry : String × Entry) :
    Except Failure (Catalog Draft) := do
  let draft := (drafts.get? entry.1).getD (kind.start origin)
  return drafts.insert entry.1 (← kind.absorb origin entry.1 draft entry.2)

/-- The entries of a fragment, in name order. -/
def takeAll (origin : String) (drafts : Catalog Draft) (entries : List (String × Entry)) :
    Except Failure (Catalog Draft) := entries.foldlM (kind.take origin) drafts

/-- What stands under a name after some entries: nothing before the first one, and then a draft
that holds them all. -/
inductive Tracks (key : String) : List Entry → Option Draft → Prop
  | absent : Tracks key [] none
  | present {entries : List Entry} {draft : Draft} (mentioned : entries ≠ [])
      (compatible : kind.Compatible key entries) (holds : kind.Holds entries draft) :
      Tracks key entries (some draft)

variable {kind}

theorem Tracks.compatible {key : String} {entries : List Entry} {found : Option Draft}
    (tracks : kind.Tracks key entries found) : kind.Compatible key entries := by
  cases tracks with
  | absent => exact kind.compatible_nil key
  | present _ compatible _ => exact compatible

theorem Tracks.holds {key : String} {entries : List Entry} {found : Option Draft}
    (tracks : kind.Tracks key entries found) (origin : String) :
    kind.Holds entries (found.getD (kind.start origin)) := by
  cases tracks with
  | absent => exact kind.holds_start origin
  | present _ _ holds => exact holds

theorem Tracks.absorb {key origin : String} {entries : List Entry} {found : Option Draft}
    {entry : Entry} {next : Draft} (tracks : kind.Tracks key entries found)
    (absorbed : kind.absorb origin key (found.getD (kind.start origin)) entry = .ok next) :
    kind.Tracks key (entries ++ [entry]) (some next) := by
  have holds := tracks.holds origin
  have compatible := (kind.absorb_ok holds tracks.compatible).mp ⟨next, absorbed⟩
  exact .present (by simp) compatible (kind.absorb_holds holds absorbed)

theorem Tracks.mentioned_iff {key : String} {entries : List Entry} {found : Option Draft}
    (tracks : kind.Tracks key entries found) : (∃ draft, found = some draft) ↔ entries ≠ [] := by
  cases tracks with
  | absent => simp
  | present mentioned _ _ => simpa using mentioned

/-! ### One fragment -/

theorem find_entry_first {name : String} {entry : Entry} {rest : List (String × Entry)}
    (ordered : NameOrdered ((name, entry) :: rest)) (key : String) :
    (if key = name then [entry] else []) ++ (findEntry key rest).toList =
      (findEntry key ((name, entry) :: rest)).toList := by
  simp only [findEntry]
  split
  · next same =>
    subst same
    simp [find_entry_rest ordered]
  · simp

theorem take_eq_ok {origin : String} {drafts next : Catalog Draft} {entry : String × Entry} :
    kind.take origin drafts entry = .ok next ↔
      ∃ draft, kind.absorb origin entry.1 ((drafts.get? entry.1).getD (kind.start origin)) entry.2 =
        .ok draft ∧ drafts.insert entry.1 draft = next := by
  simp only [take, bind_eq_ok, pure_eq_ok, Except.ok.injEq]

theorem take_tracks {origin : String} {drafts next : Catalog Draft} {name : String}
    {entry : Entry} {mentions : String → List Entry}
    (tracks : ∀ key, kind.Tracks key (mentions key) (drafts.get? key))
    (taken : kind.take origin drafts (name, entry) = .ok next) (key : String) :
    kind.Tracks key (mentions key ++ if key = name then [entry] else []) (next.get? key) := by
  obtain ⟨draft, absorbed, rfl⟩ := take_eq_ok.mp taken
  rw [Catalog.get_insert]
  by_cases same : key = name
  · subst same
    rw [if_pos rfl, if_pos rfl]
    exact (tracks key).absorb absorbed
  · rw [if_neg same, if_neg same, List.append_nil]
    exact tracks key

theorem take_all_tracks {origin : String} {entries : List (String × Entry)}
    (ordered : NameOrdered entries) {drafts next : Catalog Draft} {mentions : String → List Entry}
    (tracks : ∀ key, kind.Tracks key (mentions key) (drafts.get? key))
    (taken : kind.takeAll origin drafts entries = .ok next) (key : String) :
    kind.Tracks key (mentions key ++ (findEntry key entries).toList) (next.get? key) := by
  induction entries generalizing drafts mentions with
  | nil =>
      cases taken
      simpa [findEntry] using tracks key
  | cons entry rest induction =>
      -- The rest is begun with one more mention, of the name of the first entry.
      obtain ⟨middle, first, later⟩ := bind_eq_ok.mp (List.foldlM_cons.symm.trans taken)
      have tail := (List.pairwise_cons.mp ordered).2
      rw [← find_entry_first ordered, ← List.append_assoc]
      exact induction tail (fun name => take_tracks tracks first name) later

theorem take_all_ok {origin : String} {entries : List (String × Entry)}
    (ordered : NameOrdered entries) {drafts : Catalog Draft} {mentions : String → List Entry}
    (tracks : ∀ key, kind.Tracks key (mentions key) (drafts.get? key))
    (compatible : ∀ key, kind.Compatible key (mentions key ++ (findEntry key entries).toList)) :
    ∃ next, kind.takeAll origin drafts entries = .ok next := by
  induction entries generalizing drafts mentions with
  | nil => exact ⟨drafts, rfl⟩
  | cons entry rest induction =>
      have holds := (tracks entry.1).holds origin
      have head : kind.Compatible entry.1 (mentions entry.1 ++ [entry.2]) := by
        simpa [findEntry] using compatible entry.1
      obtain ⟨draft, absorbed⟩ := (kind.absorb_ok holds (tracks entry.1).compatible).mpr head
      have first : kind.take origin drafts entry = .ok (drafts.insert entry.1 draft) :=
        take_eq_ok.mpr ⟨draft, absorbed, rfl⟩
      have tail := (List.pairwise_cons.mp ordered).2
      obtain ⟨next, later⟩ := induction tail (fun name => take_tracks tracks first name) (by
        intro key
        rw [List.append_assoc, find_entry_first ordered]
        exact compatible key)
      exact ⟨next, by rw [takeAll, List.foldlM_cons, first]; exact later⟩

/-! ### All fragments -/

variable {part : FragmentDocument → Catalog Entry}

theorem entries_of_append (fragments : List Fragment) (fragment : Fragment) (key : String) :
    entriesOf part (fragments ++ [fragment]) key =
      entriesOf part fragments key ++ (findEntry key (part fragment.document).entries).toList := by
  change _ = _ ++ ((part fragment.document).get? key).toList
  simp only [entriesOf, List.filterMap_append, List.filterMap_cons, List.filterMap_nil]
  cases (part fragment.document).get? key <;> rfl

variable (kind) (part) in
def gather (fragments : List Fragment) : Except Failure (Catalog Draft) :=
  fragments.foldlM (fun drafts fragment =>
    kind.takeAll fragment.origin drafts (part fragment.document).entries) .empty

theorem gather_append_eq_ok {fragments : List Fragment} {fragment : Fragment}
    {drafts : Catalog Draft} :
    kind.gather part (fragments ++ [fragment]) = .ok drafts ↔
      ∃ earlier, kind.gather part fragments = .ok earlier ∧
        kind.takeAll fragment.origin earlier (part fragment.document).entries = .ok drafts := by
  rw [gather, List.foldlM_append, bind_eq_ok]
  simp only [List.foldlM_cons, List.foldlM_nil, bind_pure, gather]

theorem gather_tracks {fragments : List Fragment} {drafts : Catalog Draft}
    (gathered : kind.gather part fragments = .ok drafts) (key : String) :
    kind.Tracks key (entriesOf part fragments key) (drafts.get? key) := by
  induction fragments using List.reverseRecOn generalizing drafts key with
  | nil =>
      cases gathered
      exact .absent
  | append_singleton fragments fragment induction =>
      obtain ⟨earlier, before, taken⟩ := gather_append_eq_ok.mp gathered
      rw [entries_of_append]
      exact take_all_tracks (part fragment.document).ordered (induction before) taken key

/-- The fragments can be gathered exactly if, under every name, their entries can stand
together. -/
theorem gather_ok_iff {fragments : List Fragment} :
    (∃ drafts, kind.gather part fragments = .ok drafts) ↔
      ∀ key, kind.Compatible key (entriesOf part fragments key) := by
  constructor
  · intro gathered key
    obtain ⟨drafts, gathered⟩ := gathered
    exact (gather_tracks gathered key).compatible
  · induction fragments using List.reverseRecOn with
    | nil =>
        intro _
        exact ⟨.empty, rfl⟩
    | append_singleton fragments fragment induction =>
        intro compatible
        have earlierCompatible (key : String) :
            kind.Compatible key (entriesOf part fragments key) := by
          have all := compatible key
          rw [entries_of_append] at all
          cases found : findEntry key (part fragment.document).entries with
          | none => simpa [found] using all
          | some entry =>
              rw [found] at all
              exact kind.compatible_init all
        obtain ⟨earlier, before⟩ := induction earlierCompatible
        have further (key : String) : kind.Compatible key (entriesOf part fragments key ++
            (findEntry key (part fragment.document).entries).toList) := by
          rw [← entries_of_append]
          exact compatible key
        obtain ⟨drafts, taken⟩ : ∃ drafts, kind.takeAll fragment.origin earlier
            (part fragment.document).entries = .ok drafts :=
          take_all_ok (part fragment.document).ordered (gather_tracks before) further
        exact ⟨drafts, gather_append_eq_ok.mpr ⟨earlier, before, taken⟩⟩

end Absorption

end ContainerApplets
