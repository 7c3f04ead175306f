import SourceOutline.Proofs.Python.Standing

/-! The tokens that lines start with, and where they are written in the source. -/

namespace SourceOutline.Python

open Text

/-- A text moves the row by the line feeds in it. -/
theorem row_pass_count (mark : Mark) (text : List Char) : (mark.pass text).row = mark.row + text.count '\n' := by
  induction text generalizing mark with
  | nil => rfl
  | cons c rest ih =>
    show ((mark.step c).pass rest).row = _
    rw [ih, List.count_cons, Mark.step]
    by_cases newline : c = '\n'
    · simp [newline]
      omega
    · simp [newline]

/-- The row behind a line feed is a later one. -/
theorem row_lt_feed (mark : Mark) (row : List Piece) :
    (mark.pass (textOf row)).row < (mark.pass (textOf (row ++ [feed]))).row := by
  rw [← Mark.step_behind, Mark.behind_eq_pass]
  exact Nat.lt_succ_self _

/-- A row with code starts with the first piece of code. -/
theorem Split.start_lineOf {row lead core trail : List Piece} (split : Split row lead core trail) (mark : Mark) :
    (lineOf mark lead core).start = mark.pass (textOf lead) := by
  obtain ⟨first, rest, rfl, code⟩ := split.starts
  obtain ⟨symbol, part⟩ := exists_symbol_of_isCode code
  simp [lineOf, Line.start, tokensFrom, part]

/-- More notes above a layout leave the starts of its lines as they are. -/
theorem starts_below (layout : Layout) (notes : List Note) :
    (layout.below notes).lines.map Line.start = layout.lines.map Line.start := by
  unfold Layout.below
  split
  · rfl
  · rename_i line rest lines
    rw [lines]
    rfl

/-- Lines start at or behind the place where their rows start, each of them below the one before. -/
theorem starts_layoutFrom (mark : Mark) (rows : List (List Piece)) :
    (∀ start ∈ (layoutFrom mark rows).lines.map Line.start, mark.row ≤ start.row) ∧
      ((layoutFrom mark rows).lines.map Line.start).Pairwise fun above below => above.row < below.row := by
  have further : ∀ (mark : Mark) (text : List Char), mark.row ≤ (mark.pass text).row := fun mark text => by
    rw [row_pass_count]
    exact Nat.le_add_right _ _
  induction rows generalizing mark with
  | nil => exact ⟨fun start member => absurd member List.not_mem_nil, .nil⟩
  | cons row below ih =>
    obtain ⟨behind, apart⟩ := ih (mark.pass (textOf (row ++ [feed])))
    rcases plain_or_split row with plain | ⟨lead, core, trail, split⟩
    · rw [layoutFrom_plain plain, starts_below]
      exact ⟨fun start member => Nat.le_trans (further mark _) (behind start member), apart⟩
    · rw [split.layoutFrom_eq, List.map_cons, split.start_lineOf]
      have first := further mark (textOf lead)
      have above : (mark.pass (textOf lead)).row ≤ (mark.pass (textOf row)).row := by
        rw [split.whole, textOf_append, Mark.pass_append]
        exact further _ _
      have next := row_lt_feed mark row
      have lower : ∀ start ∈ (layoutFrom (mark.pass (textOf (row ++ [feed]))) below).lines.map Line.start,
          (mark.pass (textOf lead)).row < start.row := fun start member => by
        have := behind start member
        omega
      exact ⟨List.forall_mem_cons.mpr ⟨first, fun start member => Nat.le_trans first (lower start member).le⟩,
        .cons lower apart⟩

/-- The lines of a source start on rows of their own, each of them below the one before. -/
theorem starts_apart {source : List Char} {layout : Layout} (laid : layoutOf source = some layout) :
    (layout.lines.map Line.start).Pairwise fun above below => above.row < below.row := by
  obtain ⟨found, _, rfl⟩ := Option.map_eq_some_iff.mp laid
  exact (starts_layoutFrom _ _).2

/-- Marks of replacement fields are neither words nor operators. -/
theorem fieldCut_silent {modes : List Mode} {c : Char} {rest : List Char} {cut : Cut} {symbol : Symbol}
    (next : fieldCut modes c rest = some cut) (part : cut.part = .token symbol) : symbol.text = "" := by
  unfold fieldCut at next
  split at next
  · split at next
    · cases next
      cases part
      rfl
    · split at next <;> cases next
      cases part
      rfl
  · cases next

/-- A closing bracket is written as it says. -/
theorem closeCut_text {modes : List Mode} {c : Char} {cut : Cut} {symbol : Symbol}
    (next : closeCut modes c = some cut) (part : cut.part = .token symbol) (said : symbol.text ≠ "") :
    symbol.text.toList = [c] := by
  unfold closeCut at next
  split at next
  · split at next <;> cases next
    cases part
    exact String.toList_singleton c
  · split at next <;> cases next
    cases part
    exact absurd rfl said
  · cases next

/-- A bracket or an operator is written as it says. -/
theorem operatorCut_text {modes : List Mode} {c : Char} {rest : List Char} {cut : Cut} {symbol : Symbol}
    (next : operatorCut modes c rest = some cut) (part : cut.part = .token symbol) (said : symbol.text ≠ "") :
    symbol.text.toList = c :: rest.take cut.further := by
  unfold operatorCut at next
  split at next
  · rename_i mark marked
    cases next
    exact absurd (fieldCut_silent marked part) said
  split at next
  · cases next
    cases part
    exact String.toList_singleton c
  split at next
  · rw [closeCut_text next part said, closeCut_further next, List.take_zero]
  · obtain ⟨operator, found, rfl⟩ := Option.map_eq_some_iff.mp next
    cases part
    have written : operator.toList.isPrefixOf (c :: rest) = true := by
      simpa using List.find?_some (id found : operators.find? _ = _)
    have front := List.prefix_iff_eq_take.mp (List.isPrefixOf_iff_prefix.mp written)
    cases chars : operator.toList with
    | nil => exact absurd (String.toList_eq_nil_iff.mp chars) said
    | cons first more =>
      rw [chars, List.length_cons, List.take_succ_cons] at front
      have length : operator.length - 1 = more.length := by
        rw [← String.length_toList, chars]
        rfl
      rw [Symbol.text, chars, front, length]

/-- Tokens of a literal are neither words nor operators. -/
theorem textCut_silent {style : StringStyle} {modes : List Mode} {c : Char} {rest : List Char} {cut : Cut}
    {symbol : Symbol} (next : textCut style modes c rest = some cut) (part : cut.part = .token symbol) :
    symbol.text = "" := by
  unfold textCut at next
  repeat' split at next
  all_goals
    cases next
    try cases part
    try rfl

/-- Tokens of a format are neither words nor operators. -/
theorem formatCut_silent {triple : Bool} {modes : List Mode} {c : Char} {cut : Cut} {symbol : Symbol}
    (next : formatCut triple modes c = some cut) (part : cut.part = .token symbol) : symbol.text = "" := by
  unfold formatCut at next
  repeat' split at next
  all_goals
    cases next
    try cases part
    try rfl

/-- A word or an operator is written as it says. -/
theorem nextCut_text {modes : List Mode} {c : Char} {rest : List Char} {cut : Cut} {symbol : Symbol}
    (next : nextCut modes c rest = some cut) (part : cut.part = .token symbol) (said : symbol.text ≠ "") :
    symbol.text.toList = c :: rest.take cut.further := by
  unfold nextCut at next
  split at next
  · exact absurd (textCut_silent next part) said
  · exact absurd (formatCut_silent next part) said
  · unfold codeCut at next
    split at next
    · cases next
      split at part <;> cases part
    split at next
    · cases next
      cases part
    split at next
    · cases next
      cases part
      exact absurd rfl said
    split at next
    · obtain ⟨_, _, rfl⟩ := Option.map_eq_some_iff.mp next
      cases part
      exact absurd rfl said
    unfold tokenCut at next
    split at next
    · cases next
      cases part
      exact absurd rfl said
    split at next
    · cases next
      cases part
      rw [Symbol.text, String.toList_ofList]
      exact congrArg _ (List.prefix_iff_eq_take.mp (List.takeWhile_prefix _))
    · simp only at next
      split at next
      · exact operatorCut_text next part said
      · cases next
        cases part
        exact absurd rfl said

/-- A text is written in a source at a place. -/
def IsWritten (source : List Char) (mark : Mark) (text : String) : Prop :=
  ∃ front, mark = Mark.pass {} front ∧ front ++ text.toList <+: source

/-- The place where something is written tells the characters before it and the line feeds among them. -/
theorem IsWritten.place {source : List Char} {mark : Mark} {text : String} (written : IsWritten source mark text) :
    ∃ front behind, source = front ++ text.toList ++ behind ∧ mark.offset = front.length ∧
      mark.row = front.count '\n' := by
  obtain ⟨front, rfl, behind, whole⟩ := written
  refine ⟨front, behind, whole.symm, ?_, ?_⟩
  · simpa using offset_pass {} front
  · simpa using row_pass_count {} front

/-- The word or the operator that a line starts with is written where it starts. -/
theorem isWritten_firstSymbol {source : List Char} {layout : Layout} (laid : layoutOf source = some layout)
    {line : Line} (among : line ∈ layout.lines) (said : line.firstSymbol.text ≠ "") :
    IsWritten source line.start line.firstSymbol.text := by
  obtain ⟨front, core, back, cut, ⟨first, rest, rfl, code⟩, tokens⟩ := exists_core laid among
  obtain ⟨symbol, part⟩ := exists_symbol_of_isCode code
  have written : symbol.isTrivia = false := by simpa [Piece.isCode, part] using code
  have kept : hushJoins (first :: rest) = first :: hushJoins rest := by
    rw [hushJoins, if_neg]
    rintro ⟨join, _⟩
    cases part.symm.trans join
    cases written
  rw [kept, tokensFrom, part] at tokens
  have start : line.start = Mark.pass {} (textOf front) := by simp [Line.start, tokens]
  have same : line.firstSymbol = symbol := by simp [Line.firstSymbol, tokens]
  rw [same] at said ⊢
  obtain ⟨rfl, cuts⟩ := ((cutBehind_eq_some_iff [] source _).mp cut).cutsTo
  obtain ⟨between, _, second⟩ := cuts.append
  cases second with
  | @piece _ _ c text cut _ next whole _ =>
    have exact_text := nextCut_text next part said
    rw [whole, List.take_left'  rfl] at exact_text
    refine ⟨textOf front, start, textOf (rest ++ back), ?_⟩
    rw [exact_text]
    simp

end SourceOutline.Python
