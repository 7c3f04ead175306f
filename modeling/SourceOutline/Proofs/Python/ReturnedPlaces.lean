import SourceOutline.Proofs.Python.Correspondence
import SourceOutline.Proofs.Python.ReturnedRows

/-! A source with carriage returns at its line ends has rows that are indented alike, and the same texts
between places that correspond. -/

namespace SourceOutline.Python

open Text

/-- Carriage returns in front of line feeds move neither rows nor columns. -/
theorem pass_withReturns {mark mark' : Mark} (row : mark'.row = mark.row) (column : mark'.column = mark.column)
    (cs : List Char) :
    (mark'.pass (withReturns cs)).row = (mark.pass cs).row ∧
      (mark'.pass (withReturns cs)).column = (mark.pass cs).column := by
  induction cs generalizing mark mark' with
  | nil => exact ⟨row, column⟩
  | cons c rest ih =>
    by_cases feed : c = '\n'
    · subst feed
      exact @ih (mark.step '\n') ((mark'.step '\r').step '\n') (by simp [Mark.step, row]) rfl
    · rw [withReturns_cons feed]
      exact @ih (mark.step c) (mark'.step c) (by simp [Mark.step, feed, row])
        (by simp [Mark.step, feed, column])

/-- A text on one line moves the place within its row, by at least its characters. -/
theorem pass_line {line : List Char} (single : '\n' ∉ line) (mark : Mark) :
    (mark.pass line).row = mark.row ∧ mark.column + line.length ≤ (mark.pass line).column := by
  induction line generalizing mark with
  | nil => exact ⟨rfl, Nat.le_refl _⟩
  | cons c rest ih =>
    obtain ⟨other, later⟩ := not_or.mp (mt List.mem_cons.mpr single)
    have feed : c ≠ '\n' := Ne.symm other
    have wide : 0 < c.utf8Size := c.utf8Size_pos
    obtain ⟨row, column⟩ := ih later (mark.step c)
    have step : mark.step c = ⟨mark.offset + 1, mark.row, mark.column + c.utf8Size⟩ := by
      simp [Mark.step, feed]
    have moved : (mark.step c).column = mark.column + c.utf8Size := by rw [step]
    refine ⟨row.trans (by rw [step]), ?_⟩
    show mark.column + (rest.length + 1) ≤ ((mark.step c).pass rest).column
    omega

/-- A text consists of whole rows and of a line behind them. -/
theorem exists_lastLine (cs : List Char) :
    ∃ above line, cs = above ++ line ∧ '\n' ∉ line ∧ (Mark.pass {} above).column = 0 := by
  induction cs using List.reverseRecOn with
  | nil => exact ⟨[], [], rfl, by simp, rfl⟩
  | append_singleton front c ih =>
    by_cases feed : c = '\n'
    · subst feed
      refine ⟨front ++ ['\n'], [], by simp, by simp, ?_⟩
      rw [Mark.pass_append]
      rfl
    · obtain ⟨above, line, rfl, single, first⟩ := ih
      refine ⟨above, line ++ [c], by simp, ?_, first⟩
      simpa [single] using Ne.symm feed

/-- Something on a row that is no blank stands behind the indentation of the row. -/
theorem rowIndent_le_column {source front word : List Char} {c : Char}
    (within : front ++ c :: word <+: source) (firm : isIndent c = false) (single : '\n' ∉ c :: word) :
    rowIndent (rowsOf source) (Mark.pass {} front).row ≤ (Mark.pass {} front).column := by
  obtain ⟨back, rfl⟩ := within
  obtain ⟨above, line, rfl, whole, first⟩ := exists_lastLine front
  obtain ⟨row, column⟩ := pass_line whole (Mark.pass {} above)
  have text : above ++ line ++ c :: word ++ back = above ++ ((line ++ c :: word) ++ back) := by simp
  have some_row : 0 < (splitLines (line ++ c :: word)).length :=
    List.length_pos_of_ne_nil (splitLines_ne_nil _)
  have stretch := rowIndent_stretch text rfl first ⟨line, c, word, rfl, firm, single⟩ some_row
  rw [Mark.pass_append, row]
  rw [Nat.add_zero] at stretch
  rw [stretch]
  refine Nat.le_trans ?_ (Nat.le_trans (Nat.le_add_left _ _) column)
  have apart : '\n' ∉ line ++ c :: word := fun member => (List.mem_append.mp member).elim whole single
  simp only [rowIndent, rowText, rowsOf, List.getElem?_toArray, splitLines_of_not_mem apart,
    List.getElem?_cons_zero, Option.getD_some]
  have short := (List.takeWhile_prefix isIndent (l := line)).length_le
  rw [List.takeWhile_append]
  split
  · simp [firm]
  · exact short

/-- Carriage returns in front of line feeds indent no row. -/
theorem rowIndent_withReturns (source : List Char) (row : Nat) :
    rowIndent (rowsOf (withReturns source)) row = rowIndent (rowsOf source) row := by
  simp only [rowIndent, rowText, rowsOf, List.getElem?_toArray]
  congr 1
  induction source generalizing row with
  | nil => rfl
  | cons c rest ih =>
    by_cases feed : c = '\n'
    · subst feed
      rw [withReturns_feed, splitLines_cons (by decide), splitLines_newline, splitLines_newline, consLine]
      cases row with
      | zero => rfl
      | succ row => simpa using ih row
    · rw [withReturns_cons feed, splitLines_cons feed, splitLines_cons feed]
      obtain ⟨line, later, lines⟩ := List.exists_cons_of_ne_nil (splitLines_ne_nil rest)
      obtain ⟨line', later', lines'⟩ := List.exists_cons_of_ne_nil (splitLines_ne_nil (withReturns rest))
      simp only [lines, lines'] at ih ⊢
      cases row with
      | zero =>
        have same : line'.takeWhile isIndent = line.takeWhile isIndent := ih 0
        simp [consLine, List.takeWhile_cons, same]
      | succ row => exact ih (row + 1)

/-- Places that correspond are on the same row. -/
theorem Copied.row {source : List Char} {mark mark' : Mark} (copied : Copied source mark mark') :
    mark'.row = mark.row := by
  cases copied with
  | @level seen within => exact (pass_withReturns rfl rfl seen).1
  | @ahead seen word within single =>
    rw [Mark.pass_append, ← (pass_withReturns rfl rfl (seen ++ '#' :: word)).1]
    rfl

/-- Places that correspond are at the same column, except behind a comment. -/
theorem Copied.column {source : List Char} {mark mark' : Mark} (copied : Copied source mark mark') :
    mark'.column = mark.column ∨
      rowIndent (rowsOf source) mark.row < mark.column ∧ mark.column < mark'.column := by
  cases copied with
  | @level seen within => exact .inl (pass_withReturns rfl rfl seen).2
  | @ahead seen word within single =>
    right
    have apart : '\n' ∉ '#' :: word := by simpa using single
    have past : seen ++ '#' :: word <+: source := by
      refine List.IsPrefix.trans ⟨['\n'], ?_⟩ within
      simp
    have indented := rowIndent_le_column past (by decide) apart
    have longer := pass_line apart (Mark.pass {} seen)
    rw [← Mark.pass_append, List.length_cons] at longer
    refine ⟨?_, ?_⟩
    · rw [longer.1]
      omega
    · have same := (@pass_withReturns {} {} rfl rfl (seen ++ '#' :: word)).2
      rw [← same, Mark.pass_append]
      exact Nat.lt_succ_self _

/-- The rows of the copy are indented like those of the source. -/
theorem alikeRows_withReturns (source : List Char) :
    AlikeRows source (withReturns source) 0 (Copied source) where
  row _ _ copied := by rw [copied.row, Nat.zero_add]
  margin _ _ copied := by rw [copied.row, rowIndent_withReturns]
  opens _ _ copied opens := by
    rw [copied.row, rowIndent_withReturns] at opens
    rcases copied.column with same | behind
    · exact same.symm
    · omega

/-- The copy of an accepted source is accepted. -/
theorem checkStructure_withReturns {source : List Char} {tree tree' : Node}
    (accepted : checkStructure source tree = .ok ()) (alike : Node.Alike (Copied source) tree tree') :
    checkStructure (withReturns source) tree' = .ok () :=
  (alikeRows_withReturns source).checkStructure_eq_ok accepted alike

/-- What has been passed of the copy when something has been passed of the source: its copy, and maybe
the carriage return of a comment. -/
structure Passed (source seen seen' : List Char) : Prop where
  /-- The source starts with the one text. -/
  within : seen <+: source
  /-- The copy starts with the other one. -/
  within' : seen' <+: withReturns source
  /-- The other text is the copy of the first one, up to a carriage return. -/
  copy : ∃ back, seen' = withReturns seen ++ back ∧ (back = [] ∨ back = ['\r'] ∧ seen.getLast? ≠ some '\n')

/-- The copy of the start of a text is the start of the copy. -/
theorem withReturns_isPrefix {front cs : List Char} (within : front <+: cs) :
    withReturns front <+: withReturns cs := by
  obtain ⟨back, rfl⟩ := within
  exact ⟨withReturns back, (withReturns_append front back).symm⟩

/-- Something has been passed up to places that correspond. -/
theorem Copied.exists_passed {source : List Char} {mark mark' : Mark} (copied : Copied source mark mark') :
    ∃ seen seen', Passed source seen seen' ∧ mark.offset = seen.length ∧ mark'.offset = seen'.length := by
  cases copied with
  | @level seen within =>
    refine ⟨seen, withReturns seen, ⟨within, withReturns_isPrefix within, [], by simp, .inl rfl⟩, ?_, ?_⟩
    · simp [offset_pass]
    · simp [offset_pass]
  | @ahead seen word within single =>
    have past : seen ++ '#' :: word ++ ['\n'] <+: source := by simpa using within
    have past' := withReturns_isPrefix past
    rw [withReturns_append, show withReturns ['\n'] = ['\r'] ++ ['\n'] from rfl, ← List.append_assoc] at past'
    refine ⟨seen ++ '#' :: word, withReturns (seen ++ '#' :: word) ++ ['\r'],
      ⟨(List.prefix_append _ _).trans past, (List.prefix_append _ _).trans past', ['\r'], rfl, ?_⟩, ?_, ?_⟩
    · refine .inr ⟨rfl, fun last => ?_⟩
      rw [List.getLast?_append_of_ne_nil _ (List.cons_ne_nil _ _)] at last
      have member := List.mem_of_getLast? last
      simp [single] at member
    · simp [offset_pass]
    · simp [offset_pass]

/-- The text between two places is what is passed from the one to the other. -/
theorem textBetween_eq {source front text : List Char} {start stop : Mark}
    (within : front ++ text <+: source) (starts : start.offset = front.length)
    (stops : stop.offset = (front ++ text).length) : textBetween source start stop = text := by
  obtain ⟨back, rfl⟩ := within
  rw [textBetween, starts, stops, List.length_append, Nat.add_sub_cancel_left, List.append_assoc,
    List.drop_left, List.take_left]

/-- There is no text between a place and one that is not behind it. -/
theorem textBetween_eq_nil {source : List Char} {start stop : Mark} (before : stop.offset ≤ start.offset) :
    textBetween source start stop = [] := by
  rw [textBetween, Nat.sub_eq_zero_of_le before, List.take_zero]

/-- The empty text stays. -/
theorem isReturned_nil : IsReturned [] [] := ⟨[], [], .inl rfl, .inl rfl, rfl⟩

/-- Between places that correspond the copy has the text of the source with carriage returns. -/
theorem Copied.textBetween {source : List Char} {start start' stop stop' : Mark}
    (starts : Copied source start start') (stops : Copied source stop stop') :
    IsReturned (textBetween source start stop) (Python.textBetween (withReturns source) start' stop') := by
  obtain ⟨front, front', passed, offset, offset'⟩ := starts.exists_passed
  obtain ⟨seen, seen', past, reached, reached'⟩ := stops.exists_passed
  obtain ⟨surplus, rfl, missing⟩ := passed.copy
  obtain ⟨back, rfl, added⟩ := past.copy
  have few : surplus.length ≤ 1 ∧ back.length ≤ 1 := by
    constructor
    · rcases missing with rfl | ⟨rfl, _⟩ <;> simp
    · rcases added with rfl | ⟨rfl, _⟩ <;> simp
  by_cases ordered : front <+: seen
  · obtain ⟨text, rfl⟩ := ordered
    rw [textBetween_eq past.within offset reached]
    by_cases ordered' : withReturns front ++ surplus <+: withReturns (front ++ text) ++ back
    · obtain ⟨copy, same⟩ := ordered'
      have within' := past.within'
      rw [← same] at within' reached'
      rw [textBetween_eq within' offset' reached']
      rw [withReturns_append, List.append_assoc, List.append_assoc, List.append_cancel_left_eq] at same
      refine ⟨surplus, back, missing.imp_right And.left, added.imp_right fun both => ⟨both.1, ?_⟩, same⟩
      intro last
      rw [List.getLast?_append, last] at both
      exact both.2 rfl
    · -- The start has passed the carriage return in front of which the end is.
      obtain ⟨more, same⟩ := (List.prefix_or_prefix_of_prefix passed.within' past.within').resolve_left ordered'
      have some_char : more ≠ [] := by
        rintro rfl
        rw [List.append_nil] at same
        exact ordered' (same ▸ List.prefix_rfl)
      have length := congrArg List.length same
      simp only [withReturns_append, List.length_append] at length offset' reached'
      have positive := List.length_pos_of_ne_nil some_char
      have nothing : withReturns text = [] := List.eq_nil_of_length_eq_zero (by omega)
      rw [withReturns_eq_nil] at nothing
      rw [nothing, textBetween_eq_nil (by omega)]
      exact isReturned_nil
  · -- Nothing lies between the places.
    obtain ⟨beyond, rfl⟩ := (List.prefix_or_prefix_of_prefix passed.within past.within).resolve_left ordered
    have some_char : beyond ≠ [] := by
      rintro rfl
      exact ordered (by simp)
    have positive := List.length_pos_of_ne_nil (mt withReturns_eq_nil.mp some_char)
    simp only [withReturns_append, List.length_append] at offset offset' reached reached'
    rw [textBetween_eq_nil (by omega), textBetween_eq_nil (by omega)]
    exact isReturned_nil

end SourceOutline.Python
