import SourceOutline.Proofs.DocComment.Cleaning

/-! Cleaned documentation compared with what the accessor of its own language shows of the same text. -/

namespace SourceOutline.DocComment

open Text

/-- A text that starts at a column, with spaces in place of its tabs up to the next multiple of eight. -/
def spacedFrom (column : Nat) : List Char → List Char
  | [] => []
  | c :: rest =>
    -- Columns start again behind a line feed and behind a carriage return.
    if c = '\t' then List.replicate (8 - column % 8) ' ' ++ spacedFrom (column + (8 - column % 8)) rest
    else if c = '\n' ∨ c = '\r' then c :: spacedFrom 0 rest
    else c :: spacedFrom (column + 1) rest

/-- The least number of blanks in front of the lines that hold something, if any line does. -/
def leastIndent (lines : List (List Char)) : Option Nat :=
  ((lines.filter fun line => line.any fun c => !isBlank c).map fun line =>
    (line.takeWhile isBlank).length).min?

/-- Lines without the blanks in front of the first one and without the indentation of the others. -/
def dedentLines : List (List Char) → List (List Char)
  | [] => []
  | first :: later =>
    -- Lines that are blank lose as many characters as the others, and keep what is beyond.
    first.dropWhile isBlank :: match leastIndent later with
      | some width => later.map (List.drop width)
      | none => later

/-- Lines without the empty ones at the end, and then without those at the start. -/
def dropEmpty (lines : List (List Char)) : List (List Char) :=
  ((lines.reverse.dropWhile List.isEmpty).reverse).dropWhile List.isEmpty

/-- What the accessor shows: tabs become spaces, the lines are freed of their indentation, and empty
lines around them are dropped. -/
def accessorText (text : List Char) : List Char :=
  ['\n'].intercalate (dropEmpty (dedentLines (splitLines (spacedFrom 0 text))))

/-- No blank line behind the first one is longer than the indentation that the lines lose. -/
def LeavesNoBlanks (lines : List (List Char)) : Prop :=
  ∀ line ∈ lines.tail, isAllBlank line = true → line.length ≤ (leastIndent lines.tail).getD 0

instance (lines : List (List Char)) : Decidable (LeavesNoBlanks lines) :=
  inferInstanceAs (Decidable (∀ line ∈ lines.tail, _ → _))

/-- Tabs behind carriage returns end in the same columns once the lines are aligned. -/
def TabsAgree (text : List Char) : Prop :=
  align ((splitLines text).map expandTabs) = align (splitLines (spacedFrom 0 text))

section

variable {line : List Char} {lines : List (List Char)}

/-- The margin is the least indentation, if there is one. -/
theorem margin_eq_leastIndent (lines : List (List Char)) : margin lines = (leastIndent lines).getD 0 := by
  have same : ∀ line : List Char, (!isAllBlank line) = line.any fun c => !isBlank c := fun line => by
    rw [isAllBlank, List.not_all_eq_any_not]
  simp only [margin, leastIndent, same]
  rfl

/-- All lines behind the first one lose the least indentation, which is nothing when there is none. -/
theorem dedentLines_cons (first : List Char) (later : List (List Char)) :
    dedentLines (first :: later) = trimStart first :: later.map (List.drop (margin later)) := by
  rw [dedentLines, margin_eq_leastIndent]
  cases leastIndent later with
  | some width => rfl
  | none => exact congrArg _ (List.map_id'' (fun line => List.drop_zero) later).symm

/-- Lines whose blank ones are short enough are aligned when they are freed of their indentation. -/
theorem dedentLines_eq_align (short : LeavesNoBlanks lines) : dedentLines lines = align lines := by
  cases lines with
  | nil => rfl
  | cons first later =>
    rw [dedentLines_cons, align]
    congr 1
    refine List.map_congr_left fun line member => ?_
    unfold shiftLine
    split
    · rename_i blank
      rw [List.drop_eq_nil_iff, margin_eq_leastIndent]
      exact short line member blank
    · rfl

/-- A line trimmed in front is blank only when nothing is left. -/
theorem isAllBlank_trimStart (line : List Char) : isAllBlank (trimStart line) = (trimStart line).isEmpty := by
  rw [Bool.eq_iff_iff, isAllBlank_iff, trimStart_trimStart, List.isEmpty_iff]

/-- An aligned line is blank only when it is empty. -/
theorem isAllBlank_of_mem_align (aligned : line ∈ align lines) : isAllBlank line = line.isEmpty := by
  cases lines with
  | nil => cases aligned
  | cons first later =>
    rcases List.mem_cons.mp aligned with rfl | inside
    · exact isAllBlank_trimStart first
    · obtain ⟨old, among, rfl⟩ := List.mem_map.mp inside
      cases blank : isAllBlank old with
      | true =>
        rw [shiftLine, if_pos blank]
        rfl
      | false =>
        -- A line that holds something holds it behind the margin.
        have loud : isAllBlank (shiftLine (margin later) old) = false :=
          (isAllBlank_shiftLine (margin_le among)).trans blank
        rw [loud]
        cases left : shiftLine (margin later) old with
        | nil => rw [left] at loud; cases loud
        | cons _ _ => rfl

/-- Aligned lines are blank where the lines were. -/
theorem map_isAllBlank_align (lines : List (List Char)) :
    (align lines).map isAllBlank = lines.map isAllBlank := by
  have same : isAllBlank = fun line => (trimStart line).isEmpty := funext fun line => by
    rw [Bool.eq_iff_iff, isAllBlank_iff, List.isEmpty_iff]
  have both := congrArg (List.map List.isEmpty) (map_trimStart_align lines)
  rw [List.map_map, List.map_map] at both
  rw [same]
  exact both

end

section

variable {α : Type} {property : α → Bool}

/-- It does not matter at which end of a list items are dropped first. -/
theorem dropWhile_rdropWhile (property : α → Bool) (items : List α) :
    (items.rdropWhile property).dropWhile property = (items.dropWhile property).rdropWhile property := by
  induction items using List.reverseRecOn with
  | nil => rfl
  | append_singleton front last ih =>
    rw [List.dropWhile_append]
    by_cases has : property last = true
    · rw [List.rdropWhile_concat_pos _ _ _ has, ih]
      split
      · rename_i nothing
        rw [List.isEmpty_iff.mp nothing, List.dropWhile_cons_of_pos has, List.dropWhile_nil]
      · rw [List.rdropWhile_concat_pos _ _ _ has]
    · rw [List.rdropWhile_concat_neg _ _ _ has, List.dropWhile_append]
      split
      · rw [List.dropWhile_cons_of_neg has, List.rdropWhile_singleton, if_neg has]
      · rw [List.rdropWhile_concat_neg _ _ _ has]

/-- Items that lack the property by which others are dropped stay. -/
theorem mem_dropWhile {item : α} {items : List α} (member : item ∈ items) (lacks : property item = false) :
    item ∈ items.dropWhile property := by
  induction items with
  | nil => cases member
  | cons first rest ih =>
    rw [List.dropWhile_cons]
    split
    · rename_i dropped
      rcases List.mem_cons.mp member with rfl | later
      · rw [lacks] at dropped; cases dropped
      · exact ih later
    · exact member

/-- Lists in which the same items have a property, always the same ones, are the same when they are so
without those in front. -/
theorem eq_of_dropWhile_eq {items others : List α} (same : items.map property = others.map property)
    (only : ∀ item ∈ items, ∀ other ∈ others, property item = true → property other = true → item = other)
    (rest : items.dropWhile property = others.dropWhile property) : items = others := by
  induction items generalizing others with
  | nil => exact (List.map_eq_nil_iff.mp same.symm).symm
  | cons item later ih =>
    cases others with
    | nil => cases same
    | cons other behind =>
      obtain ⟨here, below⟩ := List.cons.inj same
      cases has : property item with
      | true =>
        have has' : property other = true := here ▸ has
        rw [List.dropWhile_cons_of_pos has, List.dropWhile_cons_of_pos has'] at rest
        rw [only item List.mem_cons_self other List.mem_cons_self has has', ih below (fun _ inside _ inside' =>
          only _ (List.mem_cons_of_mem item inside) _ (List.mem_cons_of_mem other inside')) rest]
      | false =>
        have has' : property other = false := here ▸ has
        rwa [List.dropWhile_cons_of_neg (by simp [has]), List.dropWhile_cons_of_neg (by simp [has'])] at rest

end

section

variable {line text : List Char} {lines : List (List Char)}

/-- Empty lines are dropped as blank ones when all blank lines are empty. -/
theorem dropEmpty_eq_trimLines (empty : ∀ line ∈ lines, isAllBlank line = line.isEmpty) :
    dropEmpty lines = trimLines lines := by
  have front : ∀ {lines : List (List Char)}, (∀ line ∈ lines, isAllBlank line = line.isEmpty) →
      lines.dropWhile List.isEmpty = lines.dropWhile isAllBlank := by
    intro lines same
    induction lines with
    | nil => rfl
    | cons line rest ih =>
      have inner := ih fun other member => same other (List.mem_cons_of_mem line member)
      rw [List.dropWhile_cons, List.dropWhile_cons, same line List.mem_cons_self, inner]
  have turned : ∀ line ∈ lines.reverse, isAllBlank line = line.isEmpty :=
    fun line member => empty line (List.mem_reverse.mp member)
  have cut : ∀ line ∈ lines.rdropWhile isAllBlank, isAllBlank line = line.isEmpty :=
    fun line member => empty line ((List.rdropWhile_prefix _ _).mem member)
  calc dropEmpty lines
      = (lines.rdropWhile isAllBlank).dropWhile List.isEmpty := by rw [dropEmpty, front turned]; rfl
    _ = (lines.rdropWhile isAllBlank).dropWhile isAllBlank := front cut
    _ = trimLines lines := dropWhile_rdropWhile isAllBlank lines

/-- Lines that hold a character are not dropped. -/
theorem mem_dropEmpty (member : line ∈ lines) (some_char : line ≠ []) : line ∈ dropEmpty lines := by
  have shown : line.isEmpty = false := by simpa using some_char
  exact mem_dropWhile (List.mem_reverse.mpr (mem_dropWhile (List.mem_reverse.mpr member) shown)) shown

/-- Lines stay single lines without their indentation. -/
theorem single_of_mem_dropEmpty (single : ∀ line ∈ lines, '\n' ∉ line)
    (member : line ∈ dropEmpty (dedentLines lines)) : '\n' ∉ line := by
  have dedented : line ∈ dedentLines lines :=
    List.mem_reverse.mp ((List.dropWhile_sublist _).mem (List.mem_reverse.mp ((List.dropWhile_sublist _).mem member)))
  cases lines with
  | nil => cases dedented
  | cons first later =>
    rw [dedentLines_cons] at dedented
    rcases List.mem_cons.mp dedented with rfl | inside
    · exact fun feed => single first List.mem_cons_self ((List.dropWhile_sublist isBlank).mem feed)
    · obtain ⟨old, among, rfl⟩ := List.mem_map.mp inside
      exact fun feed => single old (List.mem_cons_of_mem first among) (List.mem_of_mem_drop feed)

/-- Aligned lines without the blank ones around them tell the aligned lines, when the blank lines are known. -/
theorem align_eq_of_trimLines_eq {others : List (List Char)}
    (same : lines.map isAllBlank = others.map isAllBlank)
    (trimmed : trimLines (align lines) = trimLines (align others)) : align lines = align others := by
  have blank : (align lines).map isAllBlank = (align others).map isAllBlank := by
    rw [map_isAllBlank_align, map_isAllBlank_align, same]
  have only : ∀ line ∈ align lines, ∀ other ∈ align others, isAllBlank line = true →
      isAllBlank other = true → line = other := by
    intro line member other member' blank blank'
    rw [isAllBlank_of_mem_align member, List.isEmpty_iff] at blank
    rw [isAllBlank_of_mem_align member', List.isEmpty_iff] at blank'
    rw [blank, blank']
  have inner : ((align lines).dropWhile isAllBlank).map isAllBlank =
      ((align others).dropWhile isAllBlank).map isAllBlank := by
    have front : ∀ lines : List (List Char), (lines.dropWhile isAllBlank).map isAllBlank =
        (lines.map isAllBlank).dropWhile id := fun _ => by rw [List.dropWhile_map, Function.id_comp]
    rw [front, front, blank]
  -- The lines in front of the trimmed ones, and those behind them, are empty and as many on both sides.
  refine eq_of_dropWhile_eq blank only (List.reverse_injective (eq_of_dropWhile_eq ?_ ?_
    (List.reverse_injective trimmed)))
  · rw [List.map_reverse, List.map_reverse, inner]
  · intro line member other member'
    exact only line ((List.dropWhile_sublist _).mem (List.mem_reverse.mp member)) other
      ((List.dropWhile_sublist _).mem (List.mem_reverse.mp member'))

end

section

variable {text : List Char}

/-- The lines of a text with spaces for tabs are its lines with spaces for tabs. -/
theorem splitLines_spacedFrom {first : List Char} {later : List (List Char)} (column : Nat)
    (lines : splitLines text = first :: later) :
    splitLines (spacedFrom column text) = spacedFrom column first :: later.map (spacedFrom 0) := by
  induction text generalizing column first later with
  | nil =>
    cases lines
    rfl
  | cons c rest ih =>
    obtain ⟨next, below, inner⟩ := List.exists_cons_of_ne_nil (splitLines_ne_nil rest)
    by_cases feed : c = '\n'
    · subst feed
      rw [splitLines_newline, inner] at lines
      cases lines
      have opened : spacedFrom column ('\n' :: rest) = '\n' :: spacedFrom 0 rest := rfl
      rw [opened, splitLines_newline, ih 0 inner]
      rfl
    · rw [splitLines_cons feed, inner] at lines
      cases lines
      rw [spacedFrom, spacedFrom]
      split
      · have whole : '\n' ∉ List.replicate (8 - column % 8) ' ' :=
          fun member => absurd (List.eq_of_mem_replicate member) (by decide)
        exact splitLines_append_of_not_mem whole (ih _ inner)
      · split
        · rw [splitLines_cons feed, ih 0 inner, consLine]
        · rw [splitLines_cons feed, ih _ inner, consLine]

/-- The lines of a whole text with spaces for tabs. -/
theorem splitLines_spaced (text : List Char) :
    splitLines (spacedFrom 0 text) = (splitLines text).map (spacedFrom 0) := by
  obtain ⟨first, later, lines⟩ := List.exists_cons_of_ne_nil (splitLines_ne_nil text)
  rw [splitLines_spacedFrom 0 lines, lines, List.map_cons]

/-- Spaces for tabs leave a line blank or not. -/
theorem isAllBlank_spacedFrom (column : Nat) (line : List Char) :
    isAllBlank (spacedFrom column line) = isAllBlank line := by
  induction line generalizing column with
  | nil => rfl
  | cons c rest ih =>
    have later : ∀ column, isAllBlank (c :: spacedFrom column rest) = isAllBlank (c :: rest) :=
      fun column => congrArg (isBlank c && ·) (ih column)
    rw [spacedFrom]
    split
    · rename_i tab
      have spaces : isAllBlank (List.replicate (8 - column % 8) ' ') = true :=
        List.all_eq_true.mpr fun d member => by rw [List.eq_of_mem_replicate member]; decide
      rw [isAllBlank, List.all_append]
      show (isAllBlank _ && isAllBlank _) = _
      rw [spaces, ih, tab]
      rfl
    · split <;> exact later _

/-- Without tabs there is nothing to expand. -/
theorem spacedFrom_of_not_mem {line : List Char} (column : Nat) (tabless : '\t' ∉ line) :
    spacedFrom column line = line ∧ expandFrom column line = line := by
  induction line generalizing column with
  | nil => exact ⟨rfl, rfl⟩
  | cons c rest ih =>
    have other : c ≠ '\t' := fun same => tabless (same ▸ List.mem_cons_self)
    have inner := fun column => ih column fun member => tabless (List.mem_cons_of_mem c member)
    constructor
    · rw [spacedFrom, if_neg other, (inner 0).1, (inner (column + 1)).1, ite_self]
    · rw [expandFrom, if_neg (show ¬(c == '\t') = true by simpa using other), (inner (column + 1)).2]

/-- Both ways to expand tabs agree on a line in which none stands behind a carriage return. -/
theorem spacedFrom_eq_expandFrom {line : List Char} (column : Nat) (single : '\n' ∉ line)
    (before : '\t' ∉ line.dropWhile (· ≠ '\r')) : spacedFrom column line = expandFrom column line := by
  induction line generalizing column with
  | nil => rfl
  | cons c rest ih =>
    rw [List.dropWhile_cons] at before
    have feed : c ≠ '\n' := fun same => single (same ▸ List.mem_cons_self)
    by_cases isReturn : c = '\r'
    · have tabless : '\t' ∉ c :: rest := by simpa [isReturn] using before
      rw [(spacedFrom_of_not_mem column tabless).1, (spacedFrom_of_not_mem column tabless).2]
    · have inner := fun column => ih column (fun member => single (List.mem_cons_of_mem c member))
        (by simpa [isReturn] using before)
      rw [spacedFrom, expandFrom]
      by_cases tab : c = '\t'
      · rw [if_pos tab, if_pos (beq_iff_eq.mpr tab), inner, toTabStop]
      · rw [if_neg tab, if_neg (show ¬(c == '\t') = true by simpa using tab),
          if_neg (not_or.mpr ⟨feed, isReturn⟩), inner]

/-- Tabs agree where none stands behind a carriage return on its line. -/
theorem tabsAgree_of_before
    (before : ∀ line ∈ splitLines text, '\t' ∉ line.dropWhile (· ≠ '\r')) : TabsAgree text := by
  rw [TabsAgree, splitLines_spaced]
  congr 1
  refine List.map_congr_left fun line member => ?_
  exact (spacedFrom_eq_expandFrom 0 (not_mem_of_mem_splitLines member) (before line member)).symm

end

/-- A text, absent when it is empty. -/
def unlessEmpty (text : List Char) : Option (List Char) :=
  if text = [] then none else some text

/-- Nothing but the empty text is absent. -/
theorem unlessEmpty_inj {text other : List Char} : unlessEmpty text = unlessEmpty other ↔ text = other := by
  refine ⟨fun same => ?_, congrArg unlessEmpty⟩
  unfold unlessEmpty at same
  split at same <;> split at same <;> simp_all

/-- What is cleaned is the text of the aligned lines without the blank ones around them. -/
theorem cleanText_eq_unlessEmpty (text : List Char) : cleanText text =
    unlessEmpty (['\n'].intercalate (trimLines (align ((splitLines text).map expandTabs)))) := by
  rw [cleanText, alignedLines_eq, unlessEmpty]
  simp only [List.isEmpty_iff]

/-- Single lines are told by their text, unless they are a lone empty line. -/
theorem eq_of_intercalate_eq {lines others : List (List Char)} (single : ∀ line ∈ lines, '\n' ∉ line)
    (single' : ∀ line ∈ others, '\n' ∉ line) (shown : lines ≠ [[]]) (shown' : others ≠ [[]])
    (same : ['\n'].intercalate lines = ['\n'].intercalate others) : lines = others := by
  by_cases empty : lines = []
  · by_cases empty' : others = []
    · rw [empty, empty']
    · have split := splitLines_intercalate empty' single'
      rw [← same, empty] at split
      exact absurd split.symm shown'
  · have split := splitLines_intercalate empty single
    by_cases empty' : others = []
    · rw [same, empty'] at split
      exact absurd split.symm shown
    · rw [← split, same, splitLines_intercalate empty' single']

/-- Lists without the items of a property at the front do not begin with one. -/
theorem dropWhile_ne_singleton {α : Type} {property : α → Bool} {item : α} (has : property item = true)
    (items : List α) : items.dropWhile property ≠ [item] := by
  intro same
  have lacks := List.head_dropWhile_not property (show items.dropWhile property ≠ [] by simp [same])
  simp only [same, List.head_cons] at lacks
  rw [has] at lacks
  cases lacks

/-- When what is left holds no blanks on blank lines, no such line was longer than the indentation. -/
theorem leavesNoBlanks_of_dropEmpty {lines : List (List Char)}
    (empty : ∀ line ∈ dropEmpty (dedentLines lines), isAllBlank line = line.isEmpty) : LeavesNoBlanks lines := by
  cases lines with
  | nil => exact fun line member => absurd member List.not_mem_nil
  | cons first later =>
    intro line member blank
    rw [← margin_eq_leastIndent]
    by_contra longer
    -- The blanks behind the margin would be left, since only empty lines are dropped.
    have some_blank : line.drop (margin later) ≠ [] := fun nothing => longer (List.drop_eq_nil_iff.mp nothing)
    have dedented : line.drop (margin later) ∈ dedentLines (first :: later) := by
      rw [dedentLines_cons]
      exact List.mem_cons_of_mem _ (List.mem_map_of_mem member)
    have left := empty _ (mem_dropEmpty dedented some_blank)
    have blanks : isAllBlank (line.drop (margin later)) = true :=
      List.all_eq_true.mpr fun c inside => List.all_eq_true.mp blank c (List.mem_of_mem_drop inside)
    rw [blanks] at left
    exact some_blank (List.isEmpty_iff.mp left.symm)

/-- A cleaned text is what the accessor shows exactly when no blank line behind the first one is longer
than the indentation that all lines lose, and carriage returns do not decide where tabs end. They do
not where no tab stands behind one on its line. -/
theorem cleanText_eq_accessorText_iff (text : List Char) :
    (cleanText text = unlessEmpty (accessorText text) ↔
      LeavesNoBlanks (splitLines (spacedFrom 0 text)) ∧ TabsAgree text) ∧
    ((∀ line ∈ splitLines text, '\t' ∉ line.dropWhile (· ≠ '\r')) → TabsAgree text) := by
  refine ⟨?_, tabsAgree_of_before⟩
  rw [cleanText_eq_unlessEmpty, unlessEmpty_inj, accessorText]
  constructor
  · intro same
    have single : ∀ line ∈ trimLines (align ((splitLines text).map expandTabs)), '\n' ∉ line := by
      intro line member
      rw [← alignedLines_eq] at member
      exact single_of_mem_cleaned member
    have shown : trimLines (align ((splitLines text).map expandTabs)) ≠ [[]] := fun same =>
      dropWhile_ne_singleton rfl _ (List.reverse_eq_iff.mp same)
    -- Neither list is a lone empty line, so the lists are the same.
    have lines := eq_of_intercalate_eq single
      (fun line => single_of_mem_dropEmpty fun line => not_mem_of_mem_splitLines) shown
      (dropWhile_ne_singleton rfl _) same
    have short : LeavesNoBlanks (splitLines (spacedFrom 0 text)) :=
      leavesNoBlanks_of_dropEmpty fun line member =>
        isAllBlank_of_mem_align (mem_of_mem_trimLines (lines ▸ member))
    refine ⟨short, align_eq_of_trimLines_eq ?_ ?_⟩
    · rw [splitLines_spaced, List.map_map, List.map_map]
      exact List.map_congr_left fun line _ => by
        rw [Function.comp, isAllBlank_expandTabs, Function.comp, isAllBlank_spacedFrom]
    · rw [lines, dedentLines_eq_align short, dropEmpty_eq_trimLines fun line => isAllBlank_of_mem_align]
  · rintro ⟨short, agree⟩
    rw [dedentLines_eq_align short, dropEmpty_eq_trimLines fun line => isAllBlank_of_mem_align, agree]

/-- A blank line as long as the indentation and a carriage return behind the last tab make no difference. -/
theorem cleanText_eq_accessorText_iff_short :
    (∀ line ∈ splitLines "A\n\tb\n        \n\tc\r".toList, '\t' ∉ line.dropWhile (· ≠ '\r')) ∧
      LeavesNoBlanks (splitLines (spacedFrom 0 "A\n\tb\n        \n\tc\r".toList)) ∧
      cleanText "A\n\tb\n        \n\tc\r".toList = some "A\nb\n\nc\r".toList := by
  have before : ∀ line ∈ splitLines "A\n\tb\n        \n\tc\r".toList, '\t' ∉ line.dropWhile (· ≠ '\r') := by
    decide
  have short : LeavesNoBlanks (splitLines (spacedFrom 0 "A\n\tb\n        \n\tc\r".toList)) := by decide
  have compared := cleanText_eq_accessorText_iff "A\n\tb\n        \n\tc\r".toList
  exact ⟨before, short, (compared.1.mpr ⟨short, compared.2 before⟩).trans (by decide)⟩

/-- Blanks beyond the indentation are shown by the accessor and lost by cleaning. -/
example : accessorText "a\n    \n  b".toList = "a\n  \nb".toList ∧
    cleanText "a\n    \n  b".toList = some "a\n\nb".toList := by decide

end SourceOutline.DocComment
