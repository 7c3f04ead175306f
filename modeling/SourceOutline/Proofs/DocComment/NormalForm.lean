import SourceOutline.Proofs.DocComment.Accessor

/-! Cleaned documentation is in a normal form, which does not show how deep the documented definition lies. -/

namespace SourceOutline.DocComment

open Text

/-- A text in normal form: its first and its last line hold something, there are no tabs, and lines that hold
nothing else hold no blanks either. -/
structure IsNeat (text : List Char) : Prop where
  /-- The first line holds something. -/
  opens : ∃ line, (splitLines text).head? = some line ∧ isAllBlank line = false
  /-- The last line holds something. -/
  closes : ∃ line, (splitLines text).getLast? = some line ∧ isAllBlank line = false
  /-- There are no tabs. -/
  tabless : '\t' ∉ text
  /-- Blank lines are empty. -/
  bare : ∀ line ∈ splitLines text, isAllBlank line = true → line = []

/-- A line and what it is in a definition that lies deeper: spaces are put in front of what it holds, and a
blank line may be any other. -/
def IsDeeper (width : Nat) (line line' : List Char) : Prop :=
  if isAllBlank line then isAllBlank line' = true else line' = List.replicate width ' ' ++ line

instance (width : Nat) (line line' : List Char) : Decidable (IsDeeper width line line') :=
  inferInstanceAs (Decidable (if isAllBlank line then isAllBlank line' = true else _ = _))

/-- A text and what it is in a definition that lies deeper: all lines but the first, which stands behind the
quotes, do so. -/
def LiesDeeper (width : Nat) (text text' : List Char) : Prop :=
  ∃ first later later', splitLines text = first :: later ∧ splitLines text' = first :: later' ∧
    List.Forall₂ (IsDeeper width) later later'

section

variable {line : List Char} {lines : List (List Char)}

/-- What is left of lines without the blank ones around them starts and ends with lines that hold something. -/
theorem loud_of_trimLines (some_line : trimLines lines ≠ []) :
    (∃ line, (trimLines lines).head? = some line ∧ isAllBlank line = false) ∧
      ∃ line, (trimLines lines).getLast? = some line ∧ isAllBlank line = false := by
  have trimmed : trimLines lines = (lines.dropWhile isAllBlank).rdropWhile isAllBlank := rfl
  rw [trimmed] at some_line ⊢
  constructor
  · -- The lines dropped at the end leave the first one in place.
    obtain ⟨back, whole⟩ := List.rdropWhile_prefix isAllBlank (lines.dropWhile isAllBlank)
    have some_front : lines.dropWhile isAllBlank ≠ [] := fun nothing => by
      rw [nothing] at some_line
      exact some_line rfl
    refine ⟨(lines.dropWhile isAllBlank).head some_front, ?_, by
      simpa using List.head_dropWhile_not isAllBlank some_front⟩
    rw [← List.head?_eq_some_head some_front, ← List.head?_append_of_ne_nil _ some_line, whole]
  · exact ⟨_, List.getLast?_eq_some_getLast some_line, by
      simpa using List.rdropWhile_last_not isAllBlank (lines.dropWhile isAllBlank) some_line⟩

/-- Lines that start and end with one that holds something lose none of them. -/
theorem trimLines_eq_self (opens : ∃ line, lines.head? = some line ∧ isAllBlank line = false)
    (closes : ∃ line, lines.getLast? = some line ∧ isAllBlank line = false) : trimLines lines = lines := by
  obtain ⟨first, begins, loud⟩ := opens
  obtain ⟨last, ends, loud'⟩ := closes
  obtain ⟨rest, rfl⟩ := List.head?_eq_some_iff.mp begins
  show ((first :: rest).dropWhile isAllBlank).rdropWhile isAllBlank = first :: rest
  rw [List.dropWhile_cons_of_neg (by simp [loud]), List.rdropWhile_eq_self_iff]
  intro some_line
  rw [List.getLast?_eq_some_getLast some_line, Option.some_inj] at ends
  simp [ends, loud']

/-- A first line that holds something is kept when blank lines are dropped. -/
theorem trimLines_cons (loud : isAllBlank line = false) :
    trimLines (line :: lines) = line :: lines.rdropWhile isAllBlank := by
  show ((line :: lines).dropWhile isAllBlank).rdropWhile isAllBlank = _
  rw [List.dropWhile_cons_of_neg (by simp [loud]), List.rdropWhile, List.reverse_cons, List.dropWhile_append]
  split
  · rename_i nothing
    rw [List.dropWhile_cons_of_neg (by simp [loud]), List.rdropWhile, List.isEmpty_iff.mp nothing]
    rfl
  · rw [List.reverse_append]
    rfl

/-- What is cleaned consists of the aligned lines without the blank ones around them. -/
theorem splitLines_cleanText {text cleaned : List Char} (found : cleanText text = some cleaned) :
    splitLines cleaned = trimLines (alignedLines text) ∧ trimLines (alignedLines text) ≠ [] := by
  rw [cleanText] at found
  split at found
  · cases found
  · rename_i some_char
    have some_line : trimLines (alignedLines text) ≠ [] := fun nothing => some_char (by rw [nothing]; rfl)
    cases found
    exact ⟨splitLines_intercalate some_line fun line member => single_of_mem_cleaned member, some_line⟩

/-- Spaces stand in place of tabs. -/
theorem tab_not_mem_expandFrom (column : Nat) (line : List Char) : '\t' ∉ expandFrom column line := by
  induction line generalizing column with
  | nil => exact List.not_mem_nil
  | cons c rest ih =>
    rw [expandFrom]
    split
    · rw [List.mem_append, not_or]
      exact ⟨fun member => absurd (List.eq_of_mem_replicate member) (by decide), ih _⟩
    · rename_i other
      rw [List.mem_cons, not_or]
      exact ⟨fun same => other (by rw [← same]; rfl), ih _⟩

/-- Aligned lines hold no tabs. -/
theorem tab_not_mem_of_mem_align (aligned : line ∈ align (lines.map expandTabs)) : '\t' ∉ line := by
  intro tab
  obtain ⟨expanded, among, inside⟩ := exists_of_mem_align aligned tab
  obtain ⟨old, _, rfl⟩ := List.mem_map.mp among
  exact tab_not_mem_expandFrom 0 old inside

/-- The lines of what is cleaned are among the aligned ones. -/
theorem mem_align_of_cleanText {text cleaned : List Char} (found : cleanText text = some cleaned)
    (member : line ∈ splitLines cleaned) : line ∈ align ((splitLines text).map expandTabs) := by
  rw [(splitLines_cleanText found).1] at member
  exact alignedLines_eq text ▸ mem_of_mem_trimLines member

/-- What is cleaned is in normal form. -/
theorem isNeat_of_cleanText {text cleaned : List Char} (found : cleanText text = some cleaned) : IsNeat cleaned := by
  obtain ⟨lines, some_line⟩ := splitLines_cleanText found
  obtain ⟨opens, closes⟩ := loud_of_trimLines some_line
  refine ⟨lines ▸ opens, lines ▸ closes, fun tab => ?_, fun line member blank => ?_⟩
  · obtain ⟨line, member, inside⟩ := exists_mem_splitLines tab (by decide)
    exact tab_not_mem_of_mem_align (mem_align_of_cleanText found member) inside
  · rw [isAllBlank_of_mem_align (mem_align_of_cleanText found member)] at blank
    exact List.isEmpty_iff.mp blank

/-- Nothing is left of a text exactly when it holds nothing but blanks. -/
theorem cleanText_eq_none_iff (text : List Char) : cleanText text = none ↔ isAllBlank text = true := by
  -- What is written in the text is still written in what is cleaned.
  have kept : ink ((cleanText text).getD []) = ink text := by
    rw [← ink_visibleLines text, ← visible_cleanText, ink_visible, ink_splitLines]
  rw [isAllBlank_iff_ink, ← kept]
  cases found : cleanText text with
  | none => simp [ink]
  | some cleaned =>
    obtain ⟨first, begins, loud⟩ := (isNeat_of_cleanText found).opens
    have blank : isAllBlank cleaned = false := by
      obtain ⟨later, lines⟩ := List.head?_eq_some_iff.mp begins
      have written := ink_splitLines cleaned
      rw [lines, List.flatMap_cons] at written
      rw [← Bool.not_eq_true, isAllBlank_iff_ink, ← written, List.append_eq_nil_iff, ← isAllBlank_iff_ink, loud]
      simp
    rw [Option.getD_some, ← isAllBlank_iff_ink, blank]
    simp

/-- The margin is the indentation of some line, if any line holds something. -/
theorem exists_margin (some_loud : ∃ line ∈ lines, isAllBlank line = false) :
    ∃ line ∈ lines, isAllBlank line = false ∧ indentWidth line = margin lines := by
  obtain ⟨line, member, loud⟩ := some_loud
  have among : line ∈ lines.filter fun line => !isAllBlank line := List.mem_filter.mpr ⟨member, by simp [loud]⟩
  rw [margin]
  cases least : ((lines.filter fun line => !isAllBlank line).map indentWidth).min? with
  | none =>
    rw [List.min?_eq_none_iff, List.map_eq_nil_iff] at least
    rw [least] at among
    cases among
  | some width =>
    obtain ⟨narrow, inside, rfl⟩ := List.mem_map.mp (List.min?_eq_some_iff.mp least).1
    obtain ⟨inside, quiet⟩ := List.mem_filter.mp inside
    exact ⟨narrow, inside, by simpa using quiet, rfl⟩

/-- Without a line that holds something there is no margin. -/
theorem margin_of_blank (blank : ∀ line ∈ lines, isAllBlank line = true) : margin lines = 0 := by
  rw [margin, List.filter_eq_nil_iff.mpr fun line member => by simp [blank line member]]
  rfl

/-- A shift within the indentation takes as much of it away. -/
theorem indentWidth_drop {count : Nat} (within : count ≤ indentWidth line) :
    indentWidth (line.drop count) = indentWidth line - count := by
  induction line generalizing count with
  | nil => simp [indentWidth]
  | cons c rest ih =>
    cases count with
    | zero => rfl
    | succ less =>
      have counted : indentWidth (c :: rest) = if isBlank c then indentWidth rest + 1 else 0 := by
        rw [indentWidth, List.takeWhile_cons]
        split <;> rfl
      rw [counted] at within ⊢
      split at within
      · rename_i blank
        rw [if_pos blank, List.drop_succ_cons, ih (Nat.le_of_succ_le_succ within), Nat.add_sub_add_right]
      · cases within

/-- Lines that have been shifted left together have no margin left, also without blank ones at the end. -/
theorem margin_shifted (lines : List (List Char)) :
    margin ((lines.map (shiftLine (margin lines))).rdropWhile isAllBlank) = 0 := by
  have same : ∀ line ∈ lines, isAllBlank (shiftLine (margin lines) line) = isAllBlank line :=
    fun line member => isAllBlank_shiftLine (margin_le member)
  by_cases some_loud : ∃ line ∈ lines, isAllBlank line = false
  · obtain ⟨least, member, loud, narrow⟩ := exists_margin some_loud
    have loud' : isAllBlank (shiftLine (margin lines) least) = false := (same least member).trans loud
    have kept : shiftLine (margin lines) least ∈ (lines.map (shiftLine (margin lines))).rdropWhile isAllBlank :=
      List.mem_reverse.mpr (mem_dropWhile (List.mem_reverse.mpr (List.mem_map_of_mem member)) loud')
    have flush : indentWidth (shiftLine (margin lines) least) = 0 := by
      rw [shiftLine, if_neg (by simp [loud]), indentWidth_drop (Nat.le_of_eq narrow.symm), narrow, Nat.sub_self]
    exact Nat.le_zero.mp (flush ▸ margin_le kept loud')
  · push Not at some_loud
    refine margin_of_blank fun line member => ?_
    obtain ⟨old, among, rfl⟩ := List.mem_map.mp ((List.rdropWhile_prefix _ _).mem member)
    rw [same old among]
    simpa using some_loud old among

/-- Lines without tabs stay the same when tabs are expanded. -/
theorem map_expandTabs (tabless : ∀ line ∈ lines, '\t' ∉ line) : lines.map expandTabs = lines := by
  have each : ∀ line ∈ lines, expandTabs line = line :=
    fun line member => (spacedFrom_of_not_mem 0 (tabless line member)).2
  rw [List.map_congr_left each, List.map_id']

/-- What is cleaned of a text whose first line holds something is cleaned already. -/
theorem cleanText_again {text cleaned first : List Char} {later : List (List Char)}
    (begins : splitLines text = first :: later) (loud : isAllBlank first = false)
    (found : cleanText text = some cleaned) : cleanText cleaned = some cleaned := by
  have neat := isNeat_of_cleanText found
  have tabless : (splitLines cleaned).map expandTabs = splitLines cleaned :=
    map_expandTabs fun line member => tab_not_mem_of_mem_align (mem_align_of_cleanText found member)
  -- The first line stays the first, and the others have no margin left.
  have aligned : align (splitLines cleaned) = splitLines cleaned := by
    have expanded := isAllBlank_expandTabs first
    have loud' : isAllBlank (trimStart (expandTabs first)) = false := by
      rw [← Bool.not_eq_true, isAllBlank_iff, trimStart_trimStart, ← isAllBlank_iff, expanded, loud]
      simp
    have lines := (splitLines_cleanText found).1
    rw [alignedLines_eq, begins, List.map_cons, align, trimLines_cons loud'] at lines
    have bare := neat.bare
    rw [lines] at bare ⊢
    rw [align, trimStart_trimStart, margin_shifted]
    congr 1
    refine (List.map_congr_left fun line member => ?_).trans (List.map_id' _)
    unfold shiftLine
    split
    · rename_i blank
      exact (bare line (List.mem_cons_of_mem _ member) blank).symm
    · exact List.drop_zero
  have some_char : cleaned ≠ [] := by
    rintro rfl
    obtain ⟨line, opens, loud⟩ := neat.opens
    cases opens
    cases loud
  rw [cleanText_eq_unlessEmpty, tabless, aligned, trimLines_eq_self neat.opens neat.closes, intercalate_splitLines,
    unlessEmpty, if_neg some_char]

end

section

variable {width : Nat} {line line' : List Char} {lines lines' : List (List Char)}

/-- Spaces in front of a line are part of its indentation. -/
theorem indentWidth_replicate_append (width : Nat) (line : List Char) :
    indentWidth (List.replicate width ' ' ++ line) = width + indentWidth line := by
  have spaces : ∀ c ∈ List.replicate width ' ', isBlank c = true :=
    fun c member => by rw [List.eq_of_mem_replicate member]; decide
  rw [indentWidth, List.takeWhile_append_of_pos spaces, List.length_append, List.length_replicate]
  rfl

/-- A deeper line is blank when the line is. -/
theorem IsDeeper.isAllBlank (deeper : IsDeeper width line line') : isAllBlank line' = isAllBlank line := by
  unfold IsDeeper at deeper
  split at deeper
  · rename_i blank
    rw [deeper, blank]
  · have spaces : Text.isAllBlank (List.replicate width ' ') = true :=
      List.all_eq_true.mpr fun c member => by rw [List.eq_of_mem_replicate member]; decide
    rw [deeper, Text.isAllBlank, List.all_append]
    show (Text.isAllBlank _ && Text.isAllBlank _) = _
    rw [spaces, Bool.true_and]

/-- A deeper line is the same when it is shifted further left. -/
theorem IsDeeper.shiftLine (deeper : IsDeeper width line line') (margin : Nat) :
    DocComment.shiftLine (width + margin) line' = DocComment.shiftLine margin line := by
  rw [DocComment.shiftLine, DocComment.shiftLine, deeper.isAllBlank]
  unfold IsDeeper at deeper
  split at deeper
  · rename_i blank
    rw [if_pos blank, if_pos blank]
  · rename_i loud
    rw [if_neg loud, if_neg loud, deeper, List.drop_append, List.length_replicate, Nat.add_sub_cancel_left,
      List.drop_eq_nil_of_le (by simp), List.nil_append]

/-- The indentations of the lines that hold something grow by the same width. -/
theorem map_indentWidth_deeper (deeper : List.Forall₂ (IsDeeper width) lines lines') :
    (lines'.filter fun line => !isAllBlank line).map indentWidth =
      ((lines.filter fun line => !isAllBlank line).map indentWidth).map (width + ·) := by
  induction deeper with
  | nil => rfl
  | @cons line line' rest rest' here below ih =>
    rw [List.filter_cons, List.filter_cons, here.isAllBlank]
    cases blank : isAllBlank line with
    | true => simpa using ih
    | false =>
      have same : line' = List.replicate width ' ' ++ line := by simpa [IsDeeper, blank] using here
      simpa [same, indentWidth_replicate_append] using ih

/-- The margin of lines that lie deeper grows by the same width, if any line holds something. -/
theorem margin_deeper (deeper : List.Forall₂ (IsDeeper width) lines lines')
    (some_loud : ∃ line ∈ lines, isAllBlank line = false) : margin lines' = width + margin lines := by
  obtain ⟨loud, member, holds⟩ := some_loud
  have among : indentWidth loud ∈ (lines.filter fun line => !isAllBlank line).map indentWidth :=
    List.mem_map_of_mem (List.mem_filter.mpr ⟨member, by simp [holds]⟩)
  rw [margin, margin, map_indentWidth_deeper deeper]
  generalize (lines.filter fun line => !isAllBlank line).map indentWidth = widths at among
  cases least : widths.min? with
  | none =>
    rw [List.min?_eq_none_iff.mp least] at among
    cases among
  | some narrow =>
    obtain ⟨inside, below⟩ := List.min?_eq_some_iff.mp least
    have grown : (widths.map (width + ·)).min? = some (width + narrow) := by
      refine List.min?_eq_some_iff.mpr ⟨List.mem_map_of_mem inside, fun other found => ?_⟩
      obtain ⟨old, old_inside, rfl⟩ := List.mem_map.mp found
      exact Nat.add_le_add_left (below old old_inside) width
    rw [grown]
    rfl

/-- Lines that lie deeper are the same once they have been shifted left together. -/
theorem map_shiftLine_deeper (deeper : List.Forall₂ (IsDeeper width) lines lines') :
    lines'.map (shiftLine (margin lines')) = lines.map (shiftLine (margin lines)) := by
  by_cases some_loud : ∃ line ∈ lines, isAllBlank line = false
  · rw [margin_deeper deeper some_loud]
    generalize margin lines = margin
    clear some_loud
    induction deeper with
    | nil => rfl
    | cons here below ih => rw [List.map_cons, List.map_cons, here.shiftLine, ih]
  · push Not at some_loud
    -- Blank lines are empty whatever they are shifted by.
    have empty : ∀ {margin : Nat} {line : List Char}, isAllBlank line = true → shiftLine margin line = [] :=
      fun blank => if_pos blank
    generalize margin lines = margin, margin lines' = margin'
    induction deeper with
    | nil => rfl
    | @cons line line' rest rest' here below ih =>
      have blank : isAllBlank line = true := by simpa using some_loud line List.mem_cons_self
      rw [List.map_cons, List.map_cons, empty blank, empty (here.isAllBlank.trans blank),
        ih fun other member => some_loud other (List.mem_cons_of_mem line member)]

/-- Lines without tabs lie as deep when tabs are expanded. -/
theorem IsDeeper.expandTabs (deeper : IsDeeper width line line') (tabless : '\t' ∉ line) :
    IsDeeper width (DocComment.expandTabs line) (DocComment.expandTabs line') := by
  unfold IsDeeper at deeper ⊢
  rw [isAllBlank_expandTabs]
  split at deeper
  · rename_i blank
    rw [if_pos blank, isAllBlank_expandTabs]
    exact deeper
  · rename_i loud
    have tabless' : '\t' ∉ line' := by
      rw [deeper, List.mem_append, not_or]
      exact ⟨fun member => absurd (List.eq_of_mem_replicate member) (by decide), tabless⟩
    have same : DocComment.expandTabs line = line := (spacedFrom_of_not_mem 0 tabless).2
    have same' : DocComment.expandTabs line' = line' := (spacedFrom_of_not_mem 0 tabless').2
    rw [if_neg loud, same, same']
    exact deeper

/-- A text without tabs is cleaned to the same text however deep it lies. -/
theorem cleanText_deeper {text text' : List Char} (tabless : '\t' ∉ text) (deeper : LiesDeeper width text text') :
    cleanText text' = cleanText text := by
  obtain ⟨first, later, later', lines, lines', each⟩ := deeper
  have single : ∀ line ∈ later, '\t' ∉ line := fun line member tab =>
    tabless (mem_of_mem_splitLines (lines ▸ List.mem_cons_of_mem first member) tab)
  have expanded : List.Forall₂ (IsDeeper width) (later.map expandTabs) (later'.map expandTabs) := by
    clear lines lines'
    induction each with
    | nil => exact .nil
    | cons here below ih =>
      exact .cons (here.expandTabs (single _ List.mem_cons_self))
        (ih fun line member => single line (List.mem_cons_of_mem _ member))
  rw [cleanText, cleanText, alignedLines_eq, alignedLines_eq, lines, lines', List.map_cons, List.map_cons, align,
    align, map_shiftLine_deeper expanded]

end

/-- Nothing is left of a text exactly when it is all blank. What else is left is in normal form; it is cleaned
already when the first line of the text holds something; and a text without tabs is cleaned to the same text
however deep the definition lies in which it stands. -/
theorem cleanText_normalizes (text : List Char) :
    (cleanText text = none ↔ isAllBlank text = true) ∧
    (∀ cleaned, cleanText text = some cleaned → IsNeat cleaned ∧
      ∀ first later, splitLines text = first :: later → isAllBlank first = false →
        cleanText cleaned = some cleaned) ∧
    ('\t' ∉ text → ∀ width text', LiesDeeper width text text' → cleanText text' = cleanText text) := by
  refine ⟨cleanText_eq_none_iff text, fun cleaned found => ⟨isNeat_of_cleanText found, ?_⟩, ?_⟩
  · exact fun first later begins loud => cleanText_again begins loud found
  · exact fun tabless width text' deeper => cleanText_deeper tabless deeper

/-- Three more spaces in front of what two lines hold, and none on the blank line between them, make no
difference, and what is cleaned is cleaned already. -/
theorem cleanText_normalizes_deeper :
    LiesDeeper 3 "A\n  b\n \n    c".toList "A\n     b\n\n       c".toList ∧
      cleanText "A\n     b\n\n       c".toList = some "A\nb\n\n  c".toList ∧
      cleanText "A\nb\n\n  c".toList = some "A\nb\n\n  c".toList := by
  have deeper : LiesDeeper 3 "A\n  b\n \n    c".toList "A\n     b\n\n       c".toList :=
    ⟨"A".toList, ["  b".toList, " ".toList, "    c".toList], ["     b".toList, [], "       c".toList], by decide,
      by decide, .cons (by decide) (.cons (by decide) (.cons (by decide) .nil))⟩
  have found : cleanText "A\n  b\n \n    c".toList = some "A\nb\n\n  c".toList := by decide
  obtain ⟨-, cleaned, free⟩ := cleanText_normalizes "A\n  b\n \n    c".toList
  exact ⟨deeper, (free (by decide) 3 _ deeper).trans found,
    (cleaned _ found).2 "A".toList ["  b".toList, " ".toList, "    c".toList] (by decide) (by decide)⟩

end SourceOutline.DocComment
