import Mathlib.Data.List.DropRight
import Mathlib.Data.List.Forall2
import Mathlib.Data.List.TakeWhile
import SourceOutline.DocComment.Docstring
import SourceOutline.Proofs.Text.Lines

/-! What the cleaning of a documentation text keeps: the lines that hold something, in order. -/

namespace SourceOutline.DocComment

open Text

/-- The lines that hold something, without their indentation. -/
def visible (lines : List (List Char)) : List (List Char) :=
  -- Blank lines are empty without their indentation.
  (lines.map trimStart).filter fun line => !line.isEmpty

/-- Lines with the first one trimmed in front and the others shifted left together. -/
def align : List (List Char) → List (List Char)
  | [] => []
  | first :: later => trimStart first :: later.map (shiftLine (margin later))

/-- The lines of a text are aligned once their tabs are gone. -/
theorem alignedLines_eq (text : List Char) : alignedLines text = align ((splitLines text).map expandTabs) := by
  unfold alignedLines
  cases (splitLines text).map expandTabs <;> rfl

/-- Nothing but blanks is trimmed to nothing. -/
theorem isAllBlank_iff {line : List Char} : isAllBlank line = true ↔ trimStart line = [] := by
  rw [trimStart, List.dropWhile_eq_nil_iff, isAllBlank, List.all_eq_true]

/-- A line trimmed in front has nothing to be trimmed there. -/
theorem trimStart_trimStart (line : List Char) : trimStart (trimStart line) = trimStart line :=
  List.dropWhile_idempotent isBlank line

/-- Blanks in front may be dropped before the others are trimmed. -/
theorem trimStart_drop {line : List Char} {count : Nat} (within : count ≤ indentWidth line) :
    trimStart (line.drop count) = trimStart line := by
  induction line generalizing count with
  | nil => simp
  | cons c rest ih =>
    cases count with
    | zero => rfl
    | succ less =>
      rw [indentWidth, List.takeWhile_cons] at within
      split at within
      · rename_i blank
        rw [List.drop_succ_cons, ih (Nat.le_of_succ_le_succ within), trimStart, trimStart, List.dropWhile_cons,
          if_pos blank]
      · cases within

/-- The margin is nowhere exceeded. -/
theorem margin_le {lines : List (List Char)} {line : List Char} (member : line ∈ lines)
    (loud : isAllBlank line = false) : margin lines ≤ indentWidth line := by
  have inside : indentWidth line ∈ (lines.filter fun line => !isAllBlank line).map indentWidth :=
    List.mem_map_of_mem (List.mem_filter.mpr ⟨member, by simp [loud]⟩)
  rw [margin]
  cases least : ((lines.filter fun line => !isAllBlank line).map indentWidth).min? with
  | none => simp
  | some width => exact (List.min?_eq_some_iff.mp least).2 _ inside

/-- A shift within the indentation takes only blanks away. -/
theorem trimStart_shiftLine {width : Nat} {line : List Char}
    (within : isAllBlank line = false → width ≤ indentWidth line) :
    trimStart (shiftLine width line) = trimStart line := by
  unfold shiftLine
  split
  · rename_i blank
    exact (isAllBlank_iff.mp blank).symm
  · rename_i loud
    exact trimStart_drop (within (by simpa using loud))

/-- A shift within the indentation leaves a line blank or not. -/
theorem isAllBlank_shiftLine {width : Nat} {line : List Char}
    (within : isAllBlank line = false → width ≤ indentWidth line) :
    isAllBlank (shiftLine width line) = isAllBlank line := by
  rw [Bool.eq_iff_iff, isAllBlank_iff, trimStart_shiftLine within, ← isAllBlank_iff]

/-- Aligned lines differ from the others only in front. -/
theorem map_trimStart_align (lines : List (List Char)) :
    (align lines).map trimStart = lines.map trimStart := by
  cases lines with
  | nil => rfl
  | cons first later =>
    rw [align, List.map_cons, List.map_cons, trimStart_trimStart, List.map_map]
    congr 1
    exact List.map_congr_left fun line member => trimStart_shiftLine (margin_le member)

/-- Blank lines at the ends of some lines are not visible. -/
theorem visible_trimLines (lines : List (List Char)) : visible (trimLines lines) = visible lines := by
  have front : ∀ lines : List (List Char), visible (lines.dropWhile isAllBlank) = visible lines := by
    intro lines
    induction lines with
    | nil => rfl
    | cons line rest ih =>
      rw [List.dropWhile_cons]
      split
      · rename_i blank
        rw [ih, visible, visible, List.map_cons, isAllBlank_iff.mp blank]
        rfl
      · rfl
  have back : ∀ lines : List (List Char), visible lines.reverse = (visible lines).reverse := by
    intro lines
    rw [visible, List.map_reverse, List.filter_reverse, visible]
  rw [trimLines, back, front, back, front, List.reverse_reverse]

/-- The lines of a text that hold something, without tabs and indentation. -/
def visibleLines (text : List Char) : List (List Char) :=
  visible ((splitLines text).map expandTabs)

section

variable {c : Char} {line : List Char}

/-- Spaces in place of tabs are the only characters that are added. -/
theorem mem_of_mem_expandFrom (other : c ≠ ' ') {column : Nat} (member : c ∈ expandFrom column line) :
    c ∈ line := by
  induction line generalizing column with
  | nil => exact member
  | cons d rest ih =>
    rw [expandFrom] at member
    split at member
    · rcases List.mem_append.mp member with space | later
      · exact absurd (List.eq_of_mem_replicate space) other
      · exact List.mem_cons_of_mem d (ih later)
    · rcases List.mem_cons.mp member with rfl | later
      · exact List.mem_cons_self
      · exact List.mem_cons_of_mem d (ih later)

/-- No characters are added when lines are aligned. -/
theorem exists_of_mem_align {lines : List (List Char)} (aligned : line ∈ align lines) (member : c ∈ line) :
    ∃ old ∈ lines, c ∈ old := by
  cases lines with
  | nil => cases aligned
  | cons first later =>
    rcases List.mem_cons.mp aligned with rfl | inside
    · exact ⟨first, List.mem_cons_self, (List.dropWhile_sublist isBlank).mem member⟩
    · obtain ⟨old, among, rfl⟩ := List.mem_map.mp inside
      refine ⟨old, List.mem_cons_of_mem first among, ?_⟩
      unfold shiftLine at member
      split at member
      · cases member
      · exact List.mem_of_mem_drop member

/-- The lines left are some of the lines. -/
theorem mem_of_mem_trimLines {lines : List (List Char)} (member : line ∈ trimLines lines) : line ∈ lines := by
  rw [trimLines, List.mem_reverse] at member
  exact (List.dropWhile_sublist _).mem (List.mem_reverse.mp ((List.dropWhile_sublist _).mem member))

end

/-- The lines of a cleaned text are single lines. -/
theorem single_of_mem_cleaned {text line : List Char} (member : line ∈ trimLines (alignedLines text)) :
    '\n' ∉ line := by
  intro feed
  have aligned := mem_of_mem_trimLines member
  rw [alignedLines_eq] at aligned
  obtain ⟨expanded, among, feed⟩ := exists_of_mem_align aligned feed
  obtain ⟨old, inside, rfl⟩ := List.mem_map.mp among
  exact not_mem_of_mem_splitLines inside (mem_of_mem_expandFrom (by decide) feed)

/-- Cleaning keeps the lines that hold something, apart from their indentation. -/
theorem visible_cleanText (text : List Char) :
    visible (splitLines ((cleanText text).getD [])) = visibleLines text := by
  have kept : visible (trimLines (alignedLines text)) = visibleLines text := by
    rw [visible_trimLines, alignedLines_eq, visible, map_trimStart_align]
    rfl
  have whole : (cleanText text).getD [] = ['\n'].intercalate (trimLines (alignedLines text)) := by
    rw [cleanText]
    cases cleaned : ['\n'].intercalate (trimLines (alignedLines text)) <;> rfl
  rw [whole, ← kept]
  by_cases some_line : trimLines (alignedLines text) = []
  · rw [some_line]
    rfl
  · rw [splitLines_intercalate some_line fun line member => single_of_mem_cleaned member]

/-- The characters that are no blanks. -/
def ink (text : List Char) : List Char := text.filter fun c => !isBlank c

section

/-- Texts one after the other keep their own characters. -/
theorem ink_append (front back : List Char) : ink (front ++ back) = ink front ++ ink back :=
  List.filter_append front back

/-- A character stands in front of what follows. -/
theorem ink_cons_eq {c : Char} {rest rest' : List Char} (same : ink rest = ink rest') :
    ink (c :: rest) = ink (c :: rest') := by
  rw [← List.singleton_append, ink_append, same, ← ink_append, List.singleton_append]

/-- Blanks are no ink. -/
theorem ink_cons_of_blank {c : Char} (blank : isBlank c = true) (rest : List Char) : ink (c :: rest) = ink rest :=
  List.filter_cons_of_neg (by simp [blank])

/-- Nothing but blanks is trimmed. -/
theorem ink_trimStart (line : List Char) : ink (trimStart line) = ink line := by
  induction line with
  | nil => rfl
  | cons c rest ih =>
    rw [trimStart, List.dropWhile_cons]
    split
    · rename_i blank
      rw [ink_cons_of_blank blank]
      exact ih
    · rfl

/-- Nothing but tabs is replaced, by spaces. -/
theorem ink_expandFrom (column : Nat) (line : List Char) : ink (expandFrom column line) = ink line := by
  induction line generalizing column with
  | nil => rfl
  | cons c rest ih =>
    rw [expandFrom]
    split
    · rename_i tab
      obtain rfl := beq_iff_eq.mp tab
      have spaces : ink (List.replicate (toTabStop column) ' ') = [] :=
        List.filter_eq_nil_iff.mpr fun d member => by simp [List.eq_of_mem_replicate member]; decide
      rw [ink_append, spaces, ih, ink_cons_of_blank (by decide)]
      rfl
    · exact ink_cons_eq (ih (column + 1))

/-- Only line feeds are lost between lines. -/
theorem ink_splitLines (text : List Char) : (splitLines text).flatMap ink = ink text := by
  induction text with
  | nil => rfl
  | cons c rest ih =>
    by_cases feed : c = '\n'
    · subst feed
      rw [splitLines_newline, List.flatMap_cons, ih, ink_cons_of_blank (by decide)]
      rfl
    · rw [splitLines_cons feed]
      obtain ⟨line, later, lines⟩ := List.exists_cons_of_ne_nil (splitLines_ne_nil rest)
      rw [lines, List.flatMap_cons] at ih
      rw [lines, consLine, List.flatMap_cons]
      show ink ([c] ++ line) ++ later.flatMap ink = ink ([c] ++ rest)
      rw [ink_append, ink_append, List.append_assoc, ih]

/-- A text is blank when it holds no other characters. -/
theorem isAllBlank_iff_ink {text : List Char} : isAllBlank text = true ↔ ink text = [] := by
  rw [isAllBlank, List.all_eq_true, ink, List.filter_eq_nil_iff]
  simp

/-- The characters that are no blanks stand on the lines that hold something. -/
theorem ink_visible (lines : List (List Char)) : (visible lines).flatMap ink = lines.flatMap ink := by
  induction lines with
  | nil => rfl
  | cons line rest ih =>
    rw [List.flatMap_cons, ← ih, ← ink_trimStart line, visible, List.map_cons, List.filter_cons]
    split
    · rfl
    · rename_i empty
      have nothing : trimStart line = [] := by simpa using empty
      rw [nothing]
      rfl

/-- The characters that are no blanks stand on the lines of a text that hold something. -/
theorem ink_visibleLines (text : List Char) : (visibleLines text).flatMap ink = ink text := by
  rw [visibleLines, ink_visible, List.flatMap_map, ← ink_splitLines]
  exact List.flatMap_congr fun line _ => ink_expandFrom 0 line

end

/-- Texts that are cleaned to the same text have the same visible lines. -/
theorem visibleLines_eq {text text' : List Char} (same : cleanText text' = cleanText text) :
    visibleLines text' = visibleLines text := by
  rw [← visible_cleanText, same, visible_cleanText]

/-- Two lines are the same or both blank. -/
def SameVisible (line line' : List Char) : Prop :=
  line' = line ∨ isAllBlank line = true ∧ isAllBlank line' = true

section

variable {line line' : List Char} {lines lines' : List (List Char)}

/-- Tabs are blanks, and so are the spaces in their place. -/
theorem isAllBlank_expandTabs (line : List Char) : isAllBlank (expandTabs line) = isAllBlank line := by
  rw [Bool.eq_iff_iff, isAllBlank_iff_ink, isAllBlank_iff_ink, expandTabs, ink_expandFrom]

/-- Lines stay the same or blank without their tabs. -/
theorem SameVisible.expandTabs (same : SameVisible line line') :
    SameVisible (DocComment.expandTabs line) (DocComment.expandTabs line') :=
  same.imp (congrArg _) fun both => by
    rw [isAllBlank_expandTabs, isAllBlank_expandTabs]
    exact both

/-- Lines that are the same or blank are the same when they are shifted. -/
theorem SameVisible.shiftLine (same : SameVisible line line') (width : Nat) :
    DocComment.shiftLine width line' = DocComment.shiftLine width line := by
  rcases same with rfl | ⟨blank, blank'⟩
  · rfl
  · rw [DocComment.shiftLine, DocComment.shiftLine, if_pos blank, if_pos blank']

/-- Lines that are the same or blank have the same margin. -/
theorem margin_sameVisible (same : List.Forall₂ SameVisible lines lines') : margin lines' = margin lines := by
  have loud : (lines'.filter fun line => !isAllBlank line) = lines.filter fun line => !isAllBlank line := by
    induction same with
    | nil => rfl
    | cons first rest ih =>
      rcases first with rfl | ⟨blank, blank'⟩
      · rw [List.filter_cons, List.filter_cons, ih]
      · rw [List.filter_cons_of_neg (by simp [blank']), List.filter_cons_of_neg (by simp [blank]), ih]
  rw [margin, margin, loud]

/-- Lines that are the same or blank are aligned to the same lines. -/
theorem align_sameVisible (same : List.Forall₂ SameVisible lines lines') : align lines' = align lines := by
  cases same with
  | nil => rfl
  | @cons first first' later later' starts rest =>
    have front : trimStart first' = trimStart first := by
      rcases starts with rfl | ⟨blank, blank'⟩
      · rfl
      · rw [isAllBlank_iff.mp blank, isAllBlank_iff.mp blank']
    rw [align, align, front, margin_sameVisible rest]
    congr 1
    generalize margin later = width
    induction rest with
    | nil => rfl
    | cons here below ih => rw [List.map_cons, List.map_cons, here.shiftLine, ih]

end

/-- Texts whose lines are the same or blank are cleaned to the same text. -/
theorem cleanText_sameVisible {text text' : List Char}
    (same : List.Forall₂ SameVisible (splitLines text) (splitLines text')) :
    cleanText text' = cleanText text := by
  have expanded : List.Forall₂ SameVisible ((splitLines text).map expandTabs)
      ((splitLines text').map expandTabs) := by
    rw [List.forall₂_map_left_iff, List.forall₂_map_right_iff]
    exact same.imp fun _ _ lines => lines.expandTabs
  rw [cleanText, cleanText, alignedLines_eq, alignedLines_eq, align_sameVisible expanded]

end SourceOutline.DocComment
