import ContainerApplets.Registry
import Mathlib.Data.List.Induction

/-!
The registry as an ordered map. A source takes the place of the one with its name or is put at the
end, and a source that is removed leaves the others in their order. So whatever has been added and
removed, no name is registered twice, and under each name the source that was added last is found.
-/

namespace ContainerApplets.Registry

variable {source : Source} {sources : List Source}

/-! ### One source -/

/-- Where a source is put. -/
inductive Puts (source : Source) : List Source → List Source → Prop
  | inPlace {before after : List Source} {old : Source} (same : old.name = source.name)
      (others : ∀ other ∈ before, other.name ≠ source.name) :
      Puts source (before ++ old :: after) (before ++ source :: after)
  | atEnd {sources : List Source} (others : ∀ other ∈ sources, other.name ≠ source.name) :
      Puts source sources (sources ++ [source])

/-- What is taken away, and whether anything is. -/
inductive Takes (name : String) : List Source → List Source → Bool → Prop
  | there {before after : List Source} {old : Source} (named : old.name = name)
      (others : ∀ other ∈ before ++ after, other.name ≠ name) :
      Takes name (before ++ old :: after) (before ++ after) true
  | absent {sources : List Source} (others : ∀ other ∈ sources, other.name ≠ name) :
      Takes name sources sources false

theorem replace_in_puts (source : Source) (sources : List Source) :
    Puts source sources (replaceIn source sources) := by
  induction sources with
  | nil => exact .atEnd (by simp)
  | cons first rest induction =>
      rw [replaceIn]
      split
      · next same => exact @Puts.inPlace source [] rest first same (by simp)
      · next different =>
        revert induction
        generalize replaceIn source rest = replaced
        intro puts
        cases puts with
        | @inPlace before _ _ same others =>
            exact @Puts.inPlace source (first :: before) _ _ same
              (List.forall_mem_cons.mpr ⟨different, others⟩)
        | atEnd others => exact .atEnd (List.forall_mem_cons.mpr ⟨different, others⟩)

theorem Puts.names_nodup {replaced : List Source} (puts : Puts source sources replaced)
    (distinct : (sources.map Source.name).Nodup) : (replaced.map Source.name).Nodup := by
  cases puts with
  | inPlace same _ =>
      rw [List.map_append, List.map_cons] at distinct ⊢
      rw [← same]
      exact distinct
  | atEnd others =>
      rw [List.map_append, List.map_singleton, List.nodup_append]
      exact ⟨distinct, by simp, by simpa using others⟩

theorem Takes.shorter {name : String} {left : List Source} {found : Bool}
    (takes : Takes name sources left found) : found = true ↔ left.length < sources.length := by
  cases takes with
  | there => simp
  | absent => simp

inductive Edit
  | added (source : Source)
  | removed (name : String)
  deriving DecidableEq

namespace Edit

def name : Edit → String
  | .added source => source.name
  | .removed name => name

end Edit

def edit (registry : Registry) : Edit → Registry
  | .added source => registry.add source
  | .removed name => registry.remove name

def ofEdits (edits : List Edit) : Registry := edits.foldl edit .empty

def names (registry : Registry) : List String := registry.sources.map Source.name

@[simp] theorem of_edits_concat (edits : List Edit) (last : Edit) :
    ofEdits (edits ++ [last]) = (ofEdits edits).edit last := by
  simp [ofEdits]

theorem add_puts (registry : Registry) (source : Source) :
    Puts source registry.sources (registry.add source).sources :=
  replace_in_puts source registry.sources

theorem names_of_edits_nodup (edits : List Edit) : (ofEdits edits).names.Nodup := by
  induction edits using List.reverseRecOn with
  | nil => exact List.nodup_nil
  | append_singleton edits last induction =>
      rw [of_edits_concat]
      cases last with
      | added source => exact ((ofEdits edits).add_puts source).names_nodup induction
      | removed name => exact induction.sublist (List.filter_sublist.map Source.name)

end ContainerApplets.Registry
