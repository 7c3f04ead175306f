import Mathlib.Data.List.Lex
import Mathlib.Data.Prod.Lex
import Mathlib.Data.String.Basic
import SourceOutline.Scanner

/-! The order of paths, and lists of paths in that order. -/

namespace SourceOutline

namespace FilePath

/-- The place of a step in the order of steps: its rank, and then its name. -/
def Component.key (step : Component) : Nat ×ₗ String :=
  toLex (Component.rank step, Component.name step)

/-- Steps are told apart by their places. -/
theorem Component.key_injective : Function.Injective Component.key := by
  intro a b same
  have parts : rank a = rank b ∧ name a = name b := by simpa [key] using same
  cases a <;> cases b <;> simp_all [rank, name]

/-- Steps come in the order of their places. -/
theorem Component.before_iff (a b : Component) : before a b = true ↔ key a < key b := by
  simp [before, key, Prod.Lex.toLex_lt_toLex]

/-- The place of a path in the order of paths. -/
def key (path : String) : List (Nat ×ₗ String) := (components path).map Component.key

/-- Lists of steps come in the order of their places. -/
theorem componentsBefore_iff (first second : List Component) :
    componentsBefore first second = true ↔
      first.map Component.key < second.map Component.key := by
  induction first generalizing second with
  | nil => cases second <;> simp [componentsBefore]
  | cons step rest ih =>
    cases second with
    | nil => simp [componentsBefore]
    | cons other more =>
      simp only [componentsBefore, Bool.or_eq_true, Bool.and_eq_true, beq_iff_eq, ih,
        Component.before_iff, List.map_cons, List.cons_lt_cons_iff, Component.key_injective.eq_iff]

/-- Paths come in the order of their places. -/
theorem before_iff (a b : String) : before a b = true ↔ key a < key b :=
  componentsBefore_iff _ _

/-- Paths of one place have the same steps. -/
theorem components_of_key {a b : String} (same : key a = key b) : components a = components b :=
  (Component.key_injective.list_map) same

/-- Paths of one place have the same extension. -/
theorem extension_of_key {a b : String} (same : key a = key b) : extension a = extension b := by
  rw [extension, extension, fileName, fileName, components_of_key same]

/-- Paths in strictly increasing order. -/
def Increasing (paths : List String) : Prop :=
  paths.Pairwise fun a b => key a < key b

/-- A path in front of all others is put in front of them. -/
theorem insertSorted_of_forall {path : String} {paths : List String}
    (first : ∀ other ∈ paths, key path < key other) :
    insertSorted path paths = path :: paths := by
  cases paths with
  | nil => rfl
  | cons other rest => rw [insertSorted, if_pos ((before_iff _ _).mpr (first other (by simp)))]

/-- A list with one more path holds nothing else. -/
theorem mem_insertSorted {path member : String} {paths : List String}
    (isMember : member ∈ insertSorted path paths) : member = path ∨ member ∈ paths := by
  induction paths with
  | nil => simpa [insertSorted] using isMember
  | cons other rest ih =>
    rw [insertSorted] at isMember
    split at isMember
    · simpa using isMember
    · split at isMember
      · rcases List.mem_cons.mp isMember with rfl | later
        · simp
        · exact (ih later).imp_right (List.mem_cons_of_mem _)
      · exact .inr isMember

/-- One more path does not disturb the order. -/
theorem Increasing.insertSorted {paths : List String} (increasing : Increasing paths) (path : String) :
    Increasing (insertSorted path paths) := by
  induction paths with
  | nil => simp [FilePath.insertSorted, Increasing]
  | cons other rest ih =>
    obtain ⟨behind, restIncreasing⟩ := List.pairwise_cons.mp increasing
    rw [FilePath.insertSorted]
    split
    · rename_i inFront
      rw [before_iff] at inFront
      refine List.pairwise_cons.mpr ⟨fun member isMember => ?_, increasing⟩
      rcases List.mem_cons.mp isMember with rfl | later
      · exact inFront
      · exact inFront.trans (behind member later)
    · split
      · rename_i later
        rw [before_iff] at later
        refine List.pairwise_cons.mpr ⟨fun member isMember => ?_, ih restIncreasing⟩
        rcases mem_insertSorted isMember with rfl | old
        · exact later
        · exact behind member old
      · exact increasing

/-- Sorted paths are in strictly increasing order. -/
theorem increasing_sorted (paths : List String) : Increasing (sorted paths) := by
  induction paths with
  | nil => exact List.Pairwise.nil
  | cons path rest ih => exact ih.insertSorted path

/-- Sorting adds no path. -/
theorem mem_of_mem_sorted {path : String} {paths : List String} (member : path ∈ sorted paths) :
    path ∈ paths := by
  induction paths with
  | nil => simp [sorted] at member
  | cons first rest ih =>
    rcases mem_insertSorted member with rfl | later
    · simp
    · exact List.mem_cons_of_mem _ (ih later)

section Filter

variable {keep : String → Bool} (respects : ∀ a b, key a = key b → keep a = keep b)

include respects

/-- Paths may be left out before or after one more path is put in its place. -/
theorem filter_insertSorted {paths : List String} (increasing : Increasing paths) (path : String) :
    (insertSorted path paths).filter keep =
      if keep path then insertSorted path (paths.filter keep) else paths.filter keep := by
  induction paths with
  | nil => simp [insertSorted, List.filter_cons]
  | cons other rest ih =>
    obtain ⟨behind, restIncreasing⟩ := List.pairwise_cons.mp increasing
    rw [insertSorted]
    split
    · rename_i inFront
      rw [before_iff] at inFront
      have first : ∀ member ∈ (other :: rest).filter keep, key path < key member := by
        intro member isMember
        rcases List.mem_cons.mp (List.mem_of_mem_filter isMember) with rfl | later
        · exact inFront
        · exact inFront.trans (behind member later)
      rw [List.filter_cons, insertSorted_of_forall first]
    · split
      · rename_i notInFront later
        rw [List.filter_cons, List.filter_cons, ih restIncreasing]
        cases keep path <;> cases keep other <;> simp [insertSorted, notInFront, later]
      · rename_i notInFront notLater
        rw [before_iff] at notInFront notLater
        have same : keep path = keep other :=
          respects _ _ (le_antisymm (not_lt.mp notLater) (not_lt.mp notInFront))
        rw [List.filter_cons, same]
        cases keep other <;> simp [insertSorted, before_iff, notInFront, notLater]

/-- Paths may be left out before or after they are sorted, when paths of one place go together. -/
theorem sorted_filter (paths : List String) :
    sorted (paths.filter keep) = (sorted paths).filter keep := by
  induction paths with
  | nil => rfl
  | cons path rest ih =>
    have step : sorted (path :: rest) = insertSorted path (sorted rest) := rfl
    rw [step, filter_insertSorted respects (increasing_sorted rest), ← ih, List.filter_cons]
    split <;> rfl

end Filter

end FilePath

end SourceOutline
