import Mathlib.Data.Nat.Find
import SourceOutline.Script.DocSearch

/-! The window of a search bounds what documents a line and has no other part in it. -/

namespace SourceOutline.Script

open Text

/-- The lines directly above a line, at most as many as a window holds, in the order of the source. -/
def linesBefore (lines : List (List Char)) (window line : Nat) : List (List Char) :=
  -- Above a line beyond the end stand the last lines of the source.
  let above := min (line - 1) lines.length
  (lines.take above).drop (above - window)

/-- A search goes upward through the lines directly above. -/
theorem linesAbove_eq_linesBefore (lines : List (List Char)) (window line : Nat) :
    linesAbove lines window line = (linesBefore lines window line).reverse := by
  rw [linesAbove, List.take_reverse, List.length_take, linesBefore, ← List.take_eq_take_min]

/-- An opening line that is found stays found when there are more lines above. -/
theorem findBlock_append {below lines : List (List Char)} {text : List Char}
    (found : findBlock below lines = some text) (further : List (List Char)) :
    findBlock below (lines ++ further) = some text := by
  induction lines generalizing below with
  | nil => cases found
  | cons line above ih =>
    rw [List.cons_append, findBlock]
    rw [findBlock] at found
    cases opens : fromFirst ['/', '*'] line with
    | none =>
      rw [opens] at found
      exact ih found
    | some opening =>
      rw [opens] at found
      exact found

/-- A block that is found stays found when there are more lines above. -/
theorem blockAbove_append {lines : List (List Char)} {text : List Char}
    (found : blockAbove lines = some text) (further : List (List Char)) :
    blockAbove (lines ++ further) = some text := by
  induction lines with
  | nil => cases found
  | cons line above ih =>
    rw [List.cons_append, blockAbove]
    rw [blockAbove] at found
    by_cases skipped : isSkipped line = true
    · rw [if_pos skipped] at found ⊢
      exact ih found
    · rw [if_neg skipped] at found ⊢
      by_cases closes : ['*', '/'].isSuffixOf (trim line) = true
      · rw [if_pos closes] at found ⊢
        exact findBlock_append found further
      · rw [if_neg closes] at found
        cases found

/-- What documents a line in a window documents it in every wider one. -/
theorem docAbove_mono {lines : List (List Char)} {window wider line : Nat} {doc : DocComment}
    (grows : window ≤ wider) (found : docAbove lines window line = some doc) :
    docAbove lines wider line = some doc := by
  obtain ⟨text, search, read⟩ := Option.map_eq_some_iff.mp found
  obtain ⟨further, longer⟩ : linesAbove lines window line <+: linesAbove lines wider line :=
    List.take_prefix_take_left grows
  rw [docAbove, ← longer, blockAbove_append search further]
  exact congrArg some read

/-- A window that holds all lines above shows no more when it is wider. -/
theorem docAbove_of_le {lines : List (List Char)} {window line : Nat}
    (all : min (line - 1) lines.length ≤ window) :
    docAbove lines window line = docAbove lines (min (line - 1) lines.length) line := by
  have count : ((lines.take (line - 1)).reverse).length = min (line - 1) lines.length := by
    rw [List.length_reverse, List.length_take]
  rw [docAbove, docAbove, linesAbove, linesAbove, List.take_of_length_le (count ▸ all),
    List.take_of_length_le (Nat.le_of_eq count)]

/-- For each line there are one answer and one reach, at most all lines above: windows of this reach
and wider ones give the answer, and narrower ones give none. -/
theorem exists_reach (lines : List (List Char)) (line : Nat) :
    ∃ answer reach, reach ≤ min (line - 1) lines.length ∧
      ∀ window, docAbove lines window line = if reach ≤ window then answer else none := by
  let all := min (line - 1) lines.length
  cases whole : docAbove lines all line with
  | none =>
    refine ⟨none, 0, Nat.zero_le _, fun window => ?_⟩
    rw [if_pos (Nat.zero_le _)]
    rcases Nat.le_total window all with narrow | wide
    · cases found : docAbove lines window line with
      | none => rfl
      | some doc => rw [docAbove_mono narrow found] at whole; cases whole
    · rw [docAbove_of_le wide, whole]
  | some doc =>
    have some_window : ∃ window, docAbove lines window line = some doc := ⟨all, whole⟩
    refine ⟨some doc, Nat.find some_window, Nat.find_min' some_window whole, fun window => ?_⟩
    split
    · rename_i wide
      exact docAbove_mono wide (Nat.find_spec some_window)
    · rename_i narrow
      cases found : docAbove lines window line with
      | none => rfl
      | some other =>
        -- What a narrow window found would be the answer of all wider ones.
        have below : window ≤ all := Nat.le_of_lt
          (Nat.lt_of_lt_of_le (Nat.lt_of_not_le narrow) (Nat.find_min' some_window whole))
        have same := (docAbove_mono below found).symm.trans whole
        exact absurd (Nat.find_min' some_window (found.trans same)) narrow

/-- A window bounds the search for what documents a line and changes nothing else: an answer stays in
every wider window, and it depends on nothing but the lines in the window directly above. For each line
there is a reach from which on windows give the one answer that narrower ones do not give. -/
theorem docAbove_within_window (source : List Char) (line : Nat) :
    (∀ window wider doc, window ≤ wider → docAbove (sourceLines source) window line = some doc →
      docAbove (sourceLines source) wider line = some doc) ∧
    (∀ window, (linesBefore (sourceLines source) window line).length ≤ window ∧ ∀ source' window' line',
      linesBefore (sourceLines source) window line = linesBefore (sourceLines source') window' line' →
      docAbove (sourceLines source) window line = docAbove (sourceLines source') window' line') ∧
    ∃ answer reach, reach ≤ min (line - 1) (sourceLines source).length ∧
      ∀ window, docAbove (sourceLines source) window line = if reach ≤ window then answer else none := by
  refine ⟨fun _ _ _ grows found => docAbove_mono grows found, fun window => ⟨?_, fun source' window' line' same => ?_⟩,
    exists_reach (sourceLines source) line⟩
  · rw [← List.length_reverse, ← linesAbove_eq_linesBefore, linesAbove]
    exact List.length_take_le window _
  · rw [docAbove, docAbove, linesAbove_eq_linesBefore, linesAbove_eq_linesBefore, same]

/-- A block of three lines above a decorator is found in windows of four lines and more, and also above
a line beyond the end of another source that ends in the same four lines. -/
theorem docAbove_within_window_four :
    docAbove (sourceLines "x\n/**\n * A\n */\n@d\nf".toList) 4 6 =
        some (DocComment.ofBlock "/**\n * A\n */".toList) ∧
      docAbove (sourceLines "x\n/**\n * A\n */\n@d\nf".toList) 9 6 =
        some (DocComment.ofBlock "/**\n * A\n */".toList) ∧
      docAbove (sourceLines "\n\n/**\n * A\n */\n@d".toList) 4 90 =
        some (DocComment.ofBlock "/**\n * A\n */".toList) := by
  have narrow : docAbove (sourceLines "x\n/**\n * A\n */\n@d\nf".toList) 4 6 =
      some (DocComment.ofBlock "/**\n * A\n */".toList) := by decide
  have window := docAbove_within_window "x\n/**\n * A\n */\n@d\nf".toList 6
  refine ⟨narrow, window.1 4 9 _ (by decide) narrow, ?_⟩
  rw [← (window.2.1 4).2 "\n\n/**\n * A\n */\n@d".toList 4 90 (by decide), narrow]

end SourceOutline.Script
