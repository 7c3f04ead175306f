import SourceOutline.Proofs.Python.Stretch
import SourceOutline.Python.Structure

/-! A stretch from the first column of a source has the rows, the columns and the margins of the source. -/

namespace SourceOutline.Python

open Text

/-- A place behind some characters and rows. -/
def Mark.lowered (mark : Mark) (start : Mark) : Mark :=
  -- The column counts from the start of the row.
  ⟨start.offset + mark.offset, start.row + mark.row, mark.column⟩

/-- Behind a place at the first column a text moves the rows and columns as it does alone. -/
theorem pass_lowered (start mark : Mark) (text : List Char) :
    (mark.lowered start).pass text = (mark.pass text).lowered start := by
  induction text generalizing mark with
  | nil => rfl
  | cons c rest ih =>
    have step : (mark.lowered start).step c = (mark.step c).lowered start := by
      unfold Mark.step
      split <;> rfl
    show ((mark.lowered start).step c).pass rest = ((mark.step c).pass rest).lowered start
    rw [step, ih]

/-- A text moves the place by its characters. -/
theorem offset_pass (mark : Mark) (text : List Char) :
    (mark.pass text).offset = mark.offset + text.length := by
  induction text generalizing mark with
  | nil => rfl
  | cons c rest ih =>
    have step : (mark.step c).offset = mark.offset + 1 := by
      unfold Mark.step
      split <;> rfl
    show ((mark.step c).pass rest).offset = _
    rw [ih, step, List.length_cons]
    omega

/-- A text moves the place by its line feeds. -/
theorem row_pass (mark : Mark) (text : List Char) :
    (mark.pass text).row + 1 = mark.row + (splitLines text).length := by
  induction text generalizing mark with
  | nil => rfl
  | cons c rest ih =>
    show ((mark.step c).pass rest).row + 1 = _
    rw [ih]
    by_cases newline : c = '\n'
    · subst newline
      rw [splitLines_newline, List.length_cons]
      show mark.row + 1 + _ = _
      omega
    · have step : (mark.step c).row = mark.row := by simp [Mark.step, newline]
      rw [step, splitLines_cons newline]
      cases lines : splitLines rest with
      | nil => exact absurd lines (splitLines_ne_nil rest)
      | cons first later => rfl

/-- The first column is the start of the text or stands behind a line feed. -/
theorem newline_of_column_zero {front : List Char} (first : (Mark.pass {} front).column = 0) :
    front = [] ∨ ∃ above, front = above ++ ['\n'] := by
  rcases List.eq_nil_or_concat front with rfl | ⟨above, c, rfl⟩
  · exact .inl rfl
  · right
    rw [List.concat_eq_append, Mark.pass_append] at first
    by_cases newline : c = '\n'
    · exact ⟨above, by rw [newline, List.concat_eq_append]⟩
    · have wide : 0 < c.utf8Size := c.utf8Size_pos
      have step : ((Mark.pass {} above).step c).column = (Mark.pass {} above).column + c.utf8Size := by
        simp [Mark.step, newline]
      rw [show (Mark.pass {} above).pass [c] = (Mark.pass {} above).step c from rfl, step] at first
      omega

/-- A blank that counts for the indentation separates tokens. -/
theorem mem_separators_of_isIndent {c : Char} (blank : isIndent c = true) : c ∈ separators := by
  simp only [isIndent, Bool.or_eq_true, beq_iff_eq] at blank
  rcases blank with (rfl | rfl) | rfl <;> decide

/-- What is no separating character is neither a blank nor a line feed. -/
theorem firm_of_not_mem_separators {c : Char} (other : c ∉ separators) :
    isIndent c = false ∧ c ≠ '\n' := by
  refine ⟨?_, fun newline => other (newline ▸ by decide)⟩
  cases blank : isIndent c with
  | false => rfl
  | true => exact absurd (mem_separators_of_isIndent blank) other

/-- A token of a literal starts with a quote or a brace. -/
theorem textCut_token {style : StringStyle} {modes : List Mode} {c : Char} {rest : List Char} {cut : Cut}
    {symbol : Symbol} (quoted : isQuote style.quote = true)
    (next : textCut style modes c rest = some cut) (token : cut.part = .token symbol) :
    c ∉ separators := by
  have quotes := forall_mem_of_all (show separators.all (fun c => !isQuote c) = true by decide)
  unfold textCut at next
  split at next
  · cases next
    cases token
  split at next
  · rename_i same
    intro separator
    rw [← beq_iff_eq.mp same, quotes c separator] at quoted
    cases quoted
  split at next
  · rename_i brace
    simp only [Bool.and_eq_true, beq_iff_eq] at brace
    rw [brace.2]
    decide
  split at next
  · split at next
    · cases next
      cases token
    · cases next
  · split at next
    · cases next
    · cases next
      cases token

/-- A token of a format starts with a brace and is nothing more. -/
theorem formatCut_token {triple : Bool} {modes : List Mode} {c : Char} {cut : Cut} {symbol : Symbol}
    (next : formatCut triple modes c = some cut) (token : cut.part = .token symbol) :
    c ∉ separators ∧ cut.further = 0 := by
  refine ⟨?_, formatCut_further next⟩
  unfold formatCut at next
  split at next
  · rename_i brace
    rw [beq_iff_eq.mp brace]
    decide
  split at next
  · rename_i brace
    rw [beq_iff_eq.mp brace]
    decide
  · split at next <;> cases next
    cases token

/-- Except for comments, which start with no blank and lie within their rows, and for joins, tokens hold
no separating characters. -/
theorem nextCut_of_token {modes : List Mode} {c : Char} {rest behind : List Char} {cut : Cut}
    {symbol : Symbol} (quoted : IsQuoted modes) (next : nextCut modes c (rest ++ behind) = some cut)
    (whole : cut.further = rest.length) (token : cut.part = .token symbol) (other : symbol ≠ .lineJoin) :
    (symbol = .comment ∧ isIndent c = false ∧ '\n' ∉ c :: rest) ∨ ∀ d ∈ c :: rest, d ∉ separators := by
  unfold nextCut at next
  split at next
  · right
    have first := textCut_token (quoted _ List.mem_cons_self) next token
    rcases textCut_cases next with ⟨escape, _⟩ | ⟨⟨tail, again⟩, _⟩
    · exact absurd (escape ▸ first) (by decide)
    · have same : rest = List.replicate cut.further c :=
        (List.append_inj again (by simp [whole])).1
      refine List.forall_mem_cons.mpr ⟨first, fun d member => ?_⟩
      rw [same] at member
      rw [(List.mem_replicate.mp member).2]
      exact first
  · right
    obtain ⟨first, single⟩ := formatCut_token next token
    rw [single] at whole
    rw [List.eq_nil_of_length_eq_zero whole.symm]
    exact List.forall_mem_cons.mpr ⟨first, by simp⟩
  · unfold codeCut at next
    split at next
    · cases next
      split at token <;> cases token
    split at next
    · cases next
      cases token
    split at next
    · -- A comment ends before the next line feed.
      rename_i comment
      cases next
      cases token
      left
      rw [beq_iff_eq.mp comment]
      have own := List.prefix_append rest behind
      have run := List.takeWhile_prefix (· != '\n') (l := rest ++ behind)
      have same := (List.prefix_of_prefix_length_le own run (Nat.le_of_eq whole.symm)).eq_of_length
        whole.symm
      refine ⟨rfl, by decide, fun member => ?_⟩
      rcases List.mem_cons.mp member with hash | inside
      · cases hash
      · rw [same] at inside
        simpa using List.all_eq_true.mp List.all_takeWhile _ inside
    split at next
    · obtain ⟨_, _, rfl⟩ := Option.map_eq_some_iff.mp next
      cases token
      exact absurd rfl other
    · rename_i feed space comment join
      right
      refine List.forall_mem_cons.mpr ⟨?_, ?_⟩
      · simp only [isSpace, Bool.or_eq_true, beq_iff_eq, not_or] at feed space comment join
        simp [separators, feed, space, comment, join]
      · obtain ⟨word, tail, split, plain, parted⟩ := exists_parted (rest ++ behind)
        rw [split, tokenCut_parted parted] at next
        have within := tokenCut_further_le next
        rw [whole] at within
        have own := List.prefix_of_prefix_length_le ⟨behind, split⟩ (List.prefix_append word tail) within
        exact fun d member => plain d (own.subset member)

/-- A solid token starts with no blank and lies within its row. -/
theorem nextCut_of_isSolid {modes : List Mode} {c : Char} {rest behind : List Char} {cut : Cut}
    (quoted : IsQuoted modes) (next : nextCut modes c (rest ++ behind) = some cut)
    (whole : cut.further = rest.length) {text : List Char}
    (solid : (Piece.mk cut.part text).isSolid = true) : isIndent c = false ∧ '\n' ∉ c :: rest := by
  cases token : cut.part with
  | token symbol =>
    have other : symbol ≠ .lineJoin := by
      rintro rfl
      simp [Piece.isSolid, token] at solid
    rcases nextCut_of_token quoted next whole token other with ⟨_, firm, single⟩ | plain
    · exact ⟨firm, single⟩
    · exact ⟨(firm_of_not_mem_separators (plain c List.mem_cons_self)).1,
        fun member => plain _ member (by decide)⟩
  | _ => simp [Piece.isSolid, token] at solid

/-- Open literals stay enclosed by quotes behind pieces. -/
theorem CutsTo.isQuoted {tail : List Char} {modes final : List Mode} {found : List Piece}
    (cuts : CutsTo tail modes found final) (quoted : IsQuoted modes) : IsQuoted final := by
  induction cuts with
  | done => exact quoted
  | piece next whole behind ih => exact ih (quoted.nextCut next)

/-- A text that ends with a token has something on its last row that is no blank. -/
theorem exists_firm {text : List Char} {found : List Piece} (cut : pieces text = some found)
    (some_piece : found ≠ []) (solid : EndsSolid found) :
    ∃ before c after, text = before ++ c :: after ∧ isIndent c = false ∧ '\n' ∉ c :: after := by
  obtain ⟨rfl, cuts⟩ := ((cutBehind_eq_some_iff [] text found).mp cut).cutsTo
  obtain ⟨front, last, rfl⟩ := (List.eq_nil_or_concat found).resolve_left some_piece
  rw [List.concat_eq_append] at cuts solid ⊢
  obtain ⟨between, first, second⟩ := cuts.append
  have quoted := first.isQuoted fun style member => absurd member List.not_mem_nil
  have isSolid := solid last (by simp)
  cases second with
  | piece next whole =>
    obtain ⟨firm, single⟩ := nextCut_of_isSolid quoted next whole isSolid
    exact ⟨textOf front, _, _, by simp, firm, single⟩

/-- The margin of every row is kept when a text is cut off behind something on its last row that is no
blank. -/
theorem margin_append {before after : List Char} {c : Char} (firm : isIndent c = false)
    (single : '\n' ∉ c :: after) (back : List Char) {row : Nat}
    (within : row < (splitLines (before ++ c :: after)).length) :
    ((splitLines (before ++ c :: after ++ back))[row]?.getD []).takeWhile isIndent =
      ((splitLines (before ++ c :: after))[row]?.getD []).takeWhile isIndent := by
  induction before generalizing row with
  | nil =>
    have last := splitLines_of_not_mem single
    obtain ⟨first, later, lines⟩ := List.exists_cons_of_ne_nil (splitLines_ne_nil back)
    rw [List.nil_append, last] at within ⊢
    rw [splitLines_append_of_not_mem single lines]
    obtain rfl : row = 0 := by simpa using within
    simp [firm]
  | cons d more ih =>
    rw [List.cons_append, List.cons_append] at *
    by_cases newline : d = '\n'
    · subst newline
      rw [splitLines_newline, splitLines_newline]
      rw [splitLines_newline] at within
      cases row with
      | zero => rfl
      | succ row =>
        rw [List.getElem?_cons_succ, List.getElem?_cons_succ]
        exact ih (Nat.lt_of_succ_lt_succ within)
    · rw [splitLines_cons newline, splitLines_cons newline]
      rw [splitLines_cons newline] at within
      obtain ⟨whole, below, lines⟩ := List.exists_cons_of_ne_nil
        (splitLines_ne_nil (more ++ c :: after ++ back))
      obtain ⟨line, rest, lines'⟩ := List.exists_cons_of_ne_nil (splitLines_ne_nil (more ++ c :: after))
      rw [lines'] at within
      have inner := @ih row (by rw [lines']; exact within)
      rw [lines, lines'] at inner ⊢
      cases row with
      | zero =>
        simp only [consLine, List.getElem?_cons_zero, Option.getD_some, List.takeWhile_cons] at inner ⊢
        rw [inner]
      | succ row => exact inner

/-- Places of a text correspond to places of a source whose rows are indented like those of the text. -/
structure AlikeRows (source text : List Char) (above : Nat) (same : Mark → Mark → Prop) : Prop where
  /-- Rows count from the first row of the text. -/
  row : ∀ mark mark', same mark mark' → mark.row = above + mark'.row
  /-- Rows are indented alike. -/
  margin : ∀ mark mark', same mark mark' →
    rowIndent (rowsOf source) mark.row = rowIndent (rowsOf text) mark'.row
  /-- What stands behind the indentation of its row of the text stands there in the source. -/
  opens : ∀ mark mark', same mark mark' → mark'.column = rowIndent (rowsOf text) mark'.row →
    mark.column = mark'.column

/-- A text has the rows of a source from a row on, and places of both correspond. -/
structure SameRows (source text : List Char) (above : Nat) (same : Mark → Mark → Prop) : Prop where
  /-- Rows count from the first row of the text. -/
  row : ∀ mark mark', same mark mark' → mark.row = above + mark'.row
  /-- Columns are the same. -/
  column : ∀ mark mark', same mark mark' → mark.column = mark'.column
  /-- Rows are indented alike. -/
  margin : ∀ mark mark', same mark mark' →
    rowIndent (rowsOf source) mark.row = rowIndent (rowsOf text) mark'.row
  /-- Between two places there is the same text. -/
  text : ∀ start start' stop stop', same start start' → same stop stop' →
    textBetween source start stop = textBetween text start' stop'

/-- Rows with the same columns are alike. -/
theorem SameRows.alikeRows {source text : List Char} {above : Nat} {same : Mark → Mark → Prop}
    (rows : SameRows source text above same) : AlikeRows source text above same :=
  ⟨rows.row, rows.margin, fun mark mark' both _ => rows.column mark mark' both⟩

section

variable {source front text back : List Char} {start : Mark}

/-- A place of a stretch that starts at the first column counts from there. -/
theorem Corresponds.eq_lowered (first : start.column = 0) {mark mark' : Mark}
    (same : Corresponds start text mark mark') : mark = mark'.lowered start := by
  obtain ⟨seen, _, rfl, rfl⟩ := same
  have origin : start = Mark.lowered {} start := by
    obtain ⟨offset, row, column⟩ := start
    cases first
    rfl
  exact (congrArg (Mark.pass · seen) origin).trans (pass_lowered start {} seen)

/-- Corresponding places of a stretch lie within it. -/
theorem Corresponds.offset_le {mark mark' : Mark} (same : Corresponds start text mark mark') :
    mark'.offset ≤ text.length := by
  obtain ⟨seen, within, rfl, rfl⟩ := same
  rw [offset_pass]
  exact (Nat.zero_add _).symm ▸ within.length_le

/-- Corresponding places of a stretch lie in its rows. -/
theorem Corresponds.row_lt {mark mark' : Mark} (same : Corresponds start text mark mark') :
    mark'.row < (splitLines text).length := by
  obtain ⟨seen, ⟨more, rfl⟩, rfl, rfl⟩ := same
  have whole := row_pass {} (seen ++ more)
  have behind := row_pass (Mark.pass {} seen) more
  have some_line := List.length_pos_of_ne_nil (splitLines_ne_nil more)
  have zero : ({} : Mark).row = 0 := rfl
  rw [Mark.pass_append] at whole
  omega

/-- A stretch that starts at the first column has the rows of the source from there on. -/
theorem rowIndent_stretch (whole : source = front ++ (text ++ back)) (place : start = Mark.pass {} front)
    (first : start.column = 0)
    (firm : ∃ before c after, text = before ++ c :: after ∧ isIndent c = false ∧ '\n' ∉ c :: after)
    {row : Nat} (within : row < (splitLines text).length) :
    rowIndent (rowsOf source) (start.row + row) = rowIndent (rowsOf text) row := by
  obtain ⟨before, c, after, rfl, blank, single⟩ := firm
  have margin := margin_append blank single back within
  have count := row_pass {} front
  rw [← place] at count
  simp only [rowIndent, rowText, rowsOf, List.getElem?_toArray]
  rw [← margin, whole]
  rcases newline_of_column_zero (place ▸ first) with rfl | ⟨above, rfl⟩
  · have top : start.row = 0 := by rw [place]; rfl
    rw [top, Nat.zero_add, List.nil_append]
  · rw [splitLines_append_newline, splitLines_nil, List.length_append, List.length_singleton] at count
    have top : start.row = (splitLines above).length := by
      have zero : ({} : Mark).row = 0 := rfl
      omega
    rw [List.append_assoc, List.singleton_append, splitLines_append_newline,
      List.getElem?_append_right (by omega), top, Nat.add_sub_cancel_left]

/-- A stretch that starts at the first column and ends with a token has the rows of the source. -/
theorem sameRows_of_flush (whole : source = front ++ (text ++ back)) (place : start = Mark.pass {} front)
    (first : start.column = 0)
    (firm : ∃ before c after, text = before ++ c :: after ∧ isIndent c = false ∧ '\n' ∉ c :: after) :
    SameRows source text start.row (Corresponds start text) where
  row mark mark' same := by rw [same.eq_lowered first]; rfl
  column mark mark' same := by rw [same.eq_lowered first]; rfl
  margin mark mark' same := by
    rw [same.eq_lowered first]
    exact rowIndent_stretch whole place first firm same.row_lt
  text left left' right right' starts stops := by
    have offset : start.offset = front.length := by
      rw [place, offset_pass]
      exact Nat.zero_add _
    have before := starts.offset_le
    have behind := stops.offset_le
    rw [starts.eq_lowered first, stops.eq_lowered first, whole]
    simp only [textBetween, Mark.lowered, offset, Nat.add_sub_add_left, List.drop_length_add_append]
    rw [List.drop_append_of_le_length before, List.take_append_of_le_length]
    rw [List.length_drop]
    omega

end

end SourceOutline.Python
