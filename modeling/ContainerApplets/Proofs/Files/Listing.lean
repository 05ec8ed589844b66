import ContainerApplets.Proofs.Files.Calls
import Mathlib.Data.List.Lex
import Mathlib.Data.List.Nodup
import Mathlib.Data.String.Basic
import Mathlib.Tactic.SplitIfs

/-!
The names in a directory, where each entry is listed once, and the order that sorting gives them:
names are compared by their characters, and UTF-8 keeps the order of these.
-/

namespace ContainerApplets

/-! ### The order of texts -/

def bytes (text : String) : List UInt8 := text.toUTF8.data.toList

theorem bytes_eq (text : String) : bytes text = text.toList.flatMap String.utf8EncodeChar := by
  have encoded : text.toUTF8 = text.toList.utf8Encode := by
    rw [← String.toByteArray_ofList, String.ofList_toList]
    rfl
  rw [bytes, encoded, List.utf8Encode, List.toList_data_toByteArray]

/-- Of two characters, the lesser one has the lesser byte where they first differ. Its bytes do not
begin those of the other one, so it does not matter what is behind them. -/
theorem encoded_before {left right : Char} (before : left < right) (behind further : List UInt8) :
    String.utf8EncodeChar left ++ behind < String.utf8EncodeChar right ++ further := by
  have lesser : left.val.toNat < right.val.toNat := before
  have bounded : right.val.toNat < 0x110000 := by
    rcases right.valid with low | high
    · exact Nat.lt_trans low (by decide)
    · exact high.2
  simp only [String.utf8EncodeChar]
  generalize left.val.toNat = code at *
  generalize right.val.toNat = other at *
  -- The last byte holds six bits, and so does each one ahead of it up to the first.
  have two : code / 64 < other / 64 ∨ code / 64 = other / 64 ∧ code % 64 < other % 64 := by omega
  have three : code / 4096 < other / 4096 ∨ code / 4096 = other / 4096 ∧
      (code / 64 % 64 < other / 64 % 64 ∨
        code / 64 % 64 = other / 64 % 64 ∧ code % 64 < other % 64) := by omega
  have four : code / 262144 < other / 262144 ∨ code / 262144 = other / 262144 ∧
      (code / 4096 % 64 < other / 4096 % 64 ∨ code / 4096 % 64 = other / 4096 % 64 ∧
        (code / 64 % 64 < other / 64 % 64 ∨
          code / 64 % 64 = other / 64 % 64 ∧ code % 64 < other % 64)) := by omega
  split_ifs <;>
    simp (disch := omega) only [List.cons_append, List.nil_append, List.cons_lt_cons_iff,
      UInt8.lt_iff_toNat_lt, ← UInt8.toNat_inj, UInt8.toNat_ofNat', Nat.reducePow,
      Nat.mod_eq_of_lt] <;>
    omega

theorem encoded_texts_before {left right : List Char} (before : left < right) :
    left.flatMap String.utf8EncodeChar < right.flatMap String.utf8EncodeChar := by
  induction left generalizing right with
  | nil =>
      cases right with
      | nil => exact absurd before (List.not_lt_nil [])
      | cons char rest =>
          obtain ⟨byte, more, encoded⟩ := List.exists_cons_of_ne_nil
            (String.utf8EncodeChar_ne_nil (c := char))
          rw [List.flatMap_nil, List.flatMap_cons, encoded]
          exact List.nil_lt_cons byte _
  | cons char rest induction =>
      cases right with
      | nil => exact absurd before (List.not_lt_nil _)
      | cons other further =>
          rw [List.flatMap_cons, List.flatMap_cons]
          rcases List.cons_lt_cons_iff.mp before with first | ⟨rfl, later⟩
          · exact encoded_before first _ _
          · exact List.Lex.append_left _ (induction later) _

theorem bytes_before {left right : String} (before : left < right) : bytes left < bytes right := by
  rw [bytes_eq, bytes_eq]
  exact encoded_texts_before (String.lt_iff_toList_lt.mp before)

theorem sorted_increases {names : List String} (distinct : names.Nodup) :
    (names.mergeSort fun name next => decide (name ≤ next)).Pairwise fun name next =>
      bytes name < bytes next := by
  have ordered : (names.mergeSort fun name next => decide (name ≤ next)).Pairwise
      fun name next => decide (name ≤ next) = true := by
    apply List.pairwise_mergeSort
    · intro first second third
      simpa using le_trans
    · intro first second
      simpa using le_total first second
  apply (ordered.and (List.nodup_mergeSort.mpr distinct)).imp
  intro name next both
  exact bytes_before (lt_of_le_of_ne (of_decide_eq_true both.1) both.2)

/-! ### The names in a directory -/

namespace FileTree

variable {tree : FileTree} {directory place : Place} {name : String}

theorem name_in_eq_some_iff :
    nameIn? directory place = some name ↔ place = directory ++ [name] := by
  rw [nameIn?]
  constructor
  · intro named
    split at named
    · next below =>
      obtain ⟨longer, ahead⟩ := below
      obtain ⟨rest, rfl⟩ := List.isPrefixOf_iff_prefix.mp ahead
      rw [List.length_append, Nat.add_right_inj, List.length_eq_one_iff] at longer
      obtain ⟨last, rfl⟩ := longer
      rw [List.getLast?_concat] at named
      rw [Option.some.inj named]
    · cases named
  · rintro rfl
    simp [isBelow]

theorem mem_names : name ∈ tree.names directory ↔ (tree.node? (directory ++ [name])).isSome := by
  rw [names, List.mem_filterMap, node?, if_neg (by simp),
    List.lookup_isSome_iff]
  refine exists_congr fun entry => and_congr_right fun _ => ?_
  rw [name_in_eq_some_iff, beq_iff_eq, eq_comm]

theorem names_nodup (tree : FileTree) (directory : Place) : (tree.names directory).Nodup := by
  have listed : tree.entries.filterMap (fun entry => nameIn? directory entry.1) =
      (tree.entries.map Prod.fst).filterMap (nameIn? directory) := by
    rw [List.filterMap_map]
    rfl
  rw [names, listed]
  refine List.Nodup.filterMap (fun place other name named again => ?_) tree.distinct
  exact (name_in_eq_some_iff.mp named).trans (name_in_eq_some_iff.mp again).symm

end FileTree

namespace Files

variable {files : Files} {path : String}

theorem read_names_eq_ok_iff {names : List String} :
    files.readNames path = .ok names ↔
      ∃ place, files.placeOf? path = some place ∧ files.tree.names place = names := by
  rw [readNames, placeOf?]
  rcases files.tree.find true files.here path with fault | ⟨place, _ | _ | _⟩ | _ <;>
    simp [throw, throwThe, MonadExceptOf.throw]

end Files

end ContainerApplets
