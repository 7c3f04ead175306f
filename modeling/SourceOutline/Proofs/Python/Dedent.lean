import SourceOutline.Proofs.Text.Lines
import SourceOutline.Proofs.Text.Shift
import SourceOutline.Python.Extract

/-! The text of a definition is shifted line by line to the first column. -/

namespace SourceOutline.Python

open Text

/-- A line loses no blanks without room for them. -/
@[simp] theorem unindent_zero (line : List Char) : unindent 0 line = line := by
  simp [unindent]

/-- A blank at the start of a line goes. -/
theorem unindent_blank {c : Char} (blank : c = ' ' ∨ c = '\t') (room : Nat) (line : List Char) :
    unindent (room + 1) (c :: line) = unindent room line := by
  have taken : (c == ' ' || c == '\t') = true := by simpa using blank
  simp only [unindent, List.takeWhile_cons, taken, if_true, List.length_cons, Nat.add_min_add_right,
    List.drop_succ_cons]

/-- Any other character stays, and so do all characters of a line without room. -/
theorem unindent_of_kept {c : Char} {room : Nat} (kept : ¬(room ≠ 0 ∧ (c = ' ' ∨ c = '\t')))
    (line : List Char) : unindent room (c :: line) = c :: line := by
  by_cases none_left : room = 0
  · rw [none_left, unindent_zero]
  · have stopped : (c == ' ' || c == '\t') = false := by simpa [none_left] using kept
    simp [unindent, stopped]

/-- Only the last character of a line can belong to its line break. -/
theorem dropReturn_cons {c : Char} {line : List Char} (inside : ¬(c = '\r' ∧ line = [])) :
    dropReturn (c :: line) = c :: dropReturn line := by
  cases line with
  | nil =>
    have other : c ≠ '\r' := fun same => inside ⟨same, rfl⟩
    simp [dropReturn, other]
  | cons d rest =>
    unfold dropReturn
    rw [List.getLast?_cons_cons, List.dropLast_cons_cons]
    split <;> rfl

/-- A line before a line feed loses its indentation and the carriage return of its line break. -/
theorem shifted_line {line : List Char} (single : '\n' ∉ line) (width room : Nat) (rest : List Char) :
    shifted some width room (line ++ '\n' :: rest) =
      unindent room (dropReturn line) ++ '\n' :: shifted some width width rest := by
  induction line generalizing room with
  | nil => simp [dropReturn, unindent]
  | cons c later ih =>
    have inner := ih fun member => single (List.mem_cons_of_mem c member)
    have noFeed : c ≠ '\n' := fun same => single (same ▸ List.mem_cons_self)
    by_cases ends : c = '\r' ∧ later = []
    · obtain ⟨rfl, rfl⟩ := ends
      simp [shifted_cons, dropReturn, unindent]
    · have unbroken : ¬(c = '\r' ∧ (later ++ '\n' :: rest).head? = some '\n') := by
        rintro ⟨isReturn, first⟩
        cases later with
        | nil => exact ends ⟨isReturn, rfl⟩
        | cons d more => exact single (List.mem_cons_of_mem c (List.mem_of_head? first))
      rw [dropReturn_cons ends, List.cons_append, shifted_cons, if_neg noFeed, if_neg unbroken]
      split
      · rename_i blank
        obtain ⟨less, rfl⟩ := Nat.exists_eq_succ_of_ne_zero blank.1
        rw [inner, unindent_blank blank.2, Nat.succ_sub_one]
      · rename_i kept
        rw [inner, unindent_zero, unindent_of_kept kept, List.cons_append]

/-- The last line of a text loses its indentation. -/
theorem shifted_last {line : List Char} (single : '\n' ∉ line) (width room : Nat) :
    shifted some width room line = unindent room line := by
  induction line generalizing room with
  | nil => simp [shifted, unindent]
  | cons c later ih =>
    have inner := ih fun member => single (List.mem_cons_of_mem c member)
    have noFeed : c ≠ '\n' := fun same => single (same ▸ List.mem_cons_self)
    have unbroken : ¬(c = '\r' ∧ later.head? = some '\n') := fun both =>
      single (List.mem_cons_of_mem c (List.mem_of_head? both.2))
    rw [shifted_cons, if_neg noFeed, if_neg unbroken]
    split
    · rename_i blank
      obtain ⟨less, rfl⟩ := Nat.exists_eq_succ_of_ne_zero blank.1
      rw [inner, unindent_blank blank.2, Nat.succ_sub_one]
    · rename_i kept
      rw [inner, unindent_zero, unindent_of_kept kept]

/-- Lines that follow on another are shifted one by one. -/
theorem shifted_lines {lines : List (List Char)} {last : List Char}
    (single : ∀ line ∈ lines ++ [last], '\n' ∉ line) (width : Nat) :
    shifted some width width (['\n'].intercalate (lines ++ [last])) =
      ['\n'].intercalate ((lines.map dropReturn ++ [last]).map (unindent width)) := by
  induction lines with
  | nil =>
    have here := single last (by simp)
    simpa [List.intercalate] using shifted_last here width width
  | cons line rest ih =>
    have here := single line List.mem_cons_self
    have inner := ih fun other member => single other (List.mem_cons_of_mem line member)
    rw [List.cons_append, intercalate_cons line (by simp), shifted_line here, inner, List.map_cons,
      List.cons_append, List.map_cons, intercalate_cons _ (by simp)]

/-- A text with an empty line at its end ends with a line feed. -/
theorem getLast?_intercalate (lines : List (List Char)) (some_line : lines ≠ []) :
    (['\n'].intercalate (lines ++ [[]])).getLast? = some '\n' := by
  induction lines with
  | nil => exact absurd rfl some_line
  | cons line rest ih =>
    rw [List.cons_append, intercalate_cons line (by simp)]
    cases rest with
    | nil => simp [List.intercalate]
    | cons next later =>
      rw [List.getLast?_append, List.getLast?_cons, ih (by simp)]
      rfl

/-- The text of a definition behind the first column is shifted as a whole. -/
theorem dedented_eq_shifted {source : List Char} {node : Node} (positive : node.start.column ≠ 0)
    (ends : (node.text source).getLast? ≠ some '\n') :
    dedented source node = shifted some node.start.column 0 (node.text source) := by
  simp only [dedented, if_neg positive]
  generalize node.text source = text at ends ⊢
  obtain ⟨lines, last, split⟩ : ∃ lines last, splitLines text = lines ++ [last] :=
    ⟨_, _, (List.dropLast_concat_getLast (splitLines_ne_nil text)).symm⟩
  have single : ∀ line ∈ lines ++ [last], '\n' ∉ line := fun line member =>
    not_mem_of_mem_splitLines (split ▸ member)
  have joined := intercalate_splitLines text
  rw [split] at joined
  simp only [textLines, split, List.dropLast_concat, List.getLast?_concat, Option.getD_some]
  cases lines with
  | nil =>
    have whole : last = text := by simpa [List.intercalate] using joined
    have same := shifted_last (single last (by simp)) node.start.column 0
    rw [unindent_zero] at same
    rw [← whole, same]
    cases last <;> simp [List.intercalate]
  | cons first rest =>
    -- Something stands behind the last line feed, or the text would end with it.
    have some_char : last ≠ [] := by
      rintro rfl
      rw [← joined] at ends
      exact ends (getLast?_intercalate _ (by simp))
    have later := shifted_lines (fun line member => single line (List.mem_cons_of_mem first member))
      node.start.column
    rw [← joined, List.cons_append, intercalate_cons first (by simp),
      shifted_line (single first List.mem_cons_self), later, unindent_zero]
    simp only [List.isEmpty_iff, some_char, if_false, List.map_cons, List.cons_append]
    rw [intercalate_cons _ (by simp)]

end SourceOutline.Python
