import SourceOutline.Proofs.Python.Dedent
import SourceOutline.Proofs.Python.Standing

/-! The texts of names, literals and definitions in the copy of a source with carriage returns. -/

namespace SourceOutline.Python

open Text

variable {source : List Char}

/-- Two texts of one length at the start of a text are the same. -/
theorem eq_of_isPrefix {front front' cs : List Char} (within : front <+: cs) (within' : front' <+: cs)
    (length : front.length = front'.length) : front = front' :=
  (List.prefix_of_prefix_length_le within within' (Nat.le_of_eq length)).eq_of_length length

/-- A place of a source and the place of its copy behind the same text. -/
def Level (source : List Char) (mark mark' : Mark) : Prop :=
  ∃ seen, seen <+: source ∧ mark = Mark.pass {} seen ∧ mark' = Mark.pass {} (withReturns seen)

/-- Written tokens start and end where no line break is parted. -/
theorem Copied.level_of_beside {given : List Token} (stands : ∀ token ∈ given, token.Stands (withReturns source))
    {mark mark' : Mark} (copied : Copied source mark mark') (beside : Beside given mark') :
    Level source mark mark' := by
  cases copied with
  | level within => exact ⟨_, within, rfl, rfl⟩
  | @ahead seen word within single =>
    exfalso
    obtain ⟨token, member, written, ends⟩ := beside
    obtain ⟨front, text, inside, starts, stops, plain⟩ := stands token member
    obtain ⟨some_char, plain⟩ := plain written
    have past : withReturns (seen ++ '#' :: word) ++ ['\r'] ++ ['\n'] <+: withReturns source := by
      have copy := withReturns_isPrefix within
      have split : seen ++ '#' :: (word ++ ['\n']) = (seen ++ '#' :: word) ++ ['\n'] := by simp
      rw [split, withReturns_append] at copy
      rw [List.append_assoc]
      exact copy
    rcases ends with same | same
    · -- The token would start with the line feed.
      obtain ⟨c, rest, rfl⟩ := List.exists_cons_of_ne_nil some_char
      have length := congrArg Mark.offset (same.trans starts)
      rw [offset_pass, offset_pass] at length
      have first : front ++ [c] <+: withReturns source :=
        List.IsPrefix.trans ⟨rest, List.append_assoc front [c] rest⟩ inside
      have again := eq_of_isPrefix past first (by
        simp only [List.length_append, List.length_singleton] at length ⊢
        omega)
      obtain rfl := List.singleton_inj.mp (List.append_inj' again rfl).2
      exact plain _ List.mem_cons_self (by decide)
    · -- The token would end with the carriage return.
      have length := congrArg Mark.offset (same.trans stops)
      rw [offset_pass, offset_pass] at length
      have again := eq_of_isPrefix ((List.prefix_append _ _).trans past) inside (by omega)
      have last := congrArg List.getLast? again
      rw [List.getLast?_concat, List.getLast?_append_of_ne_nil _ some_char] at last
      exact plain _ (List.mem_of_getLast? last.symm) (by decide)

/-- Between a place that parts no line break and any other place the copy has the text with carriage
returns, and maybe the first half of the line break behind it. -/
theorem Level.exists_textBetween {start start' stop stop' : Mark} (starts : Level source start start')
    (stops : Copied source stop stop') :
    ∃ rest, textBetween (withReturns source) start' stop' = withReturns (textBetween source start stop) ++ rest ∧
      (rest = [] ∨ rest = ['\r'] ∧ (textBetween source start stop).getLast? ≠ some '\n') ∧
      (Level source stop stop' → rest = []) := by
  obtain ⟨front, within, rfl, rfl⟩ := starts
  have origin := offset_pass {} front
  have origin' := offset_pass {} (withReturns front)
  -- Whatever has been passed of the copy up to the stop, the text starts where the front ends.
  have general : ∀ (seen surplus : List Char),
      seen <+: source → withReturns seen ++ surplus <+: withReturns source →
      surplus.length ≤ 1 → stop.offset = seen.length → stop'.offset = (withReturns seen ++ surplus).length →
      ∃ rest, textBetween (withReturns source) (Mark.pass {} (withReturns front)) stop' =
        withReturns (textBetween source (Mark.pass {} front) stop) ++ rest ∧
        (rest = [] ∨ rest = surplus ∧ textBetween source (Mark.pass {} front) stop <:+ seen) := by
    intro seen surplus past past' few reached reached'
    by_cases ordered : front <+: seen
    · obtain ⟨text, rfl⟩ := ordered
      rw [withReturns_append, List.append_assoc] at past' reached'
      have own : textBetween source (Mark.pass {} front) stop = text :=
        Python.textBetween_eq past (by simpa using origin) reached
      have copy : textBetween (withReturns source) (Mark.pass {} (withReturns front)) stop' =
          withReturns text ++ surplus :=
        Python.textBetween_eq past' (by simpa using origin') reached'
      exact ⟨surplus, by rw [own, copy], .inr ⟨rfl, own ▸ List.suffix_append front text⟩⟩
    · obtain ⟨beyond, rfl⟩ := (List.prefix_or_prefix_of_prefix within past).resolve_left ordered
      have some_char : beyond ≠ [] := by
        rintro rfl
        exact ordered (by simp)
      have positive := List.length_pos_of_ne_nil some_char
      have positive' := List.length_pos_of_ne_nil (mt withReturns_eq_nil.mp some_char)
      have whole : (withReturns (seen ++ beyond)).length =
          (withReturns seen).length + (withReturns beyond).length := by
        rw [withReturns_append, List.length_append]
      rw [List.length_append] at origin reached'
      refine ⟨[], ?_, .inl rfl⟩
      rw [textBetween_eq_nil (by omega), textBetween_eq_nil (by omega)]
      rfl
  cases stops with
  | @level seen past =>
    obtain ⟨rest, text, empty⟩ := general seen [] past (by simpa using withReturns_isPrefix past) (by simp)
      (by simpa using offset_pass {} seen) (by simpa using offset_pass {} (withReturns seen))
    have nothing : rest = [] := empty.elim id And.left
    exact ⟨rest, text, .inl nothing, fun _ => nothing⟩
  | @ahead seen word further single =>
    have past : seen ++ '#' :: word ++ ['\n'] <+: source := by simpa using further
    have past' := withReturns_isPrefix past
    rw [withReturns_append, show withReturns ['\n'] = ['\r'] ++ ['\n'] from rfl, ← List.append_assoc] at past'
    obtain ⟨rest, text, parted⟩ := general (seen ++ '#' :: word) ['\r'] ((List.prefix_append _ _).trans past)
      ((List.prefix_append _ _).trans past') (by simp) (by simpa using offset_pass {} (seen ++ '#' :: word))
      (by simpa using offset_pass {} (withReturns (seen ++ '#' :: word) ++ ['\r']))
    refine ⟨rest, text, ?_, fun level => ?_⟩
    · rcases parted with nothing | ⟨carriage, before, whole⟩
      · exact .inl nothing
      · refine .inr ⟨carriage, fun last => ?_⟩
        have feed := congrArg List.getLast? whole
        rw [List.getLast?_append, last, List.getLast?_append_of_ne_nil _ (List.cons_ne_nil _ _)] at feed
        have member := List.mem_of_getLast? feed.symm
        simp [single] at member
    · -- Places behind the same text are as far from the start as the text is long.
      obtain ⟨other, within', same, same'⟩ := level
      have length := congrArg Mark.offset same
      rw [offset_pass, offset_pass] at length
      obtain rfl := eq_of_isPrefix ((List.prefix_append _ _).trans past) within' (by omega)
      have length' := congrArg Mark.offset same'
      rw [offset_pass, offset_pass, List.length_append] at length'
      simp at length'

/-- Between places that part no line break the copy has the text with carriage returns. -/
theorem Level.textBetween_eq {start start' stop stop' : Mark} (starts : Level source start start')
    (stops : Level source stop stop') :
    textBetween (withReturns source) start' stop' = withReturns (textBetween source start stop) := by
  obtain ⟨seen, within, rfl, rfl⟩ := stops
  obtain ⟨rest, text, _, nothing⟩ := starts.exists_textBetween (.level within)
  rw [text, nothing ⟨seen, within, rfl, rfl⟩, List.append_nil]

/-- Rows and columns of places that part no line break are the same. -/
theorem Level.column_eq {mark mark' : Mark} (level : Level source mark mark') : mark'.column = mark.column := by
  obtain ⟨seen, _, rfl, rfl⟩ := level
  exact (pass_withReturns rfl rfl seen).2

/-- A token is the same in the copy. -/
theorem Encloses.textBetween_eq {given : List Token} (stands : ∀ token ∈ given, token.Stands (withReturns source))
    {start start' stop stop' : Mark} (starts : Copied source start start') (stops : Copied source stop stop')
    (encloses : Encloses given start' stop') :
    textBetween (withReturns source) start' stop' = textBetween source start stop := by
  obtain ⟨token, member, written, rfl, rfl⟩ := encloses
  have level := starts.level_of_beside stands ⟨token, member, written, .inl rfl⟩
  have level' := stops.level_of_beside stands ⟨token, member, written, .inr rfl⟩
  obtain ⟨front, word, inside, begins, ends, plain⟩ := stands token member
  have own : textBetween (withReturns source) token.start token.stop = word :=
    Python.textBetween_eq inside (by simpa using (congrArg Mark.offset begins).trans (offset_pass {} front))
      (by simpa using (congrArg Mark.offset ends).trans (offset_pass {} (front ++ word)))
  have copy := level.textBetween_eq level'
  rw [copy] at own ⊢
  refine withReturns_of_not_mem fun feed => (plain written).2 '\n' ?_ (by decide)
  rw [← own]
  exact List.mem_flatMap.mpr ⟨'\n', feed, by simp⟩

/-- Without carriage returns the text is left. -/
theorem filter_withReturns {cs : List Char} (plain : '\r' ∉ cs) :
    (withReturns cs).filter (· ≠ '\r') = cs := by
  induction cs with
  | nil => rfl
  | cons c rest ih =>
    obtain ⟨other, later⟩ := not_or.mp (mt List.mem_cons.mpr plain)
    by_cases feed : c = '\n'
    · subst feed
      rw [withReturns_feed, List.filter_cons_of_neg (by simp), List.filter_cons_of_pos (by simp), ih later]
    · rw [withReturns_cons feed, List.filter_cons_of_pos (by simpa using Ne.symm other), ih later]

/-- The last character is the same with carriage returns. -/
theorem getLast?_withReturns (cs : List Char) : (withReturns cs).getLast? = cs.getLast? := by
  induction cs using List.reverseRecOn with
  | nil => rfl
  | append_singleton front c ih =>
    rw [withReturns_append, List.getLast?_append, List.getLast?_append]
    by_cases feed : c = '\n'
    · subst feed
      rfl
    · rw [withReturns_cons feed]
      rfl

/-- A shift takes carriage returns away again. -/
theorem shifted_withReturns_eq {cs : List Char} (plain : '\r' ∉ cs) (width room : Nat) :
    shifted some width room (withReturns cs) = shifted some width room cs := by
  induction cs generalizing room with
  | nil => rfl
  | cons c rest ih =>
    obtain ⟨other, later⟩ := not_or.mp (mt List.mem_cons.mpr plain)
    by_cases feed : c = '\n'
    · subst feed
      rw [withReturns_feed, shifted_cons, if_neg (by decide), if_pos ⟨rfl, rfl⟩, shifted_feed, shifted_feed,
        ih later]
    · have kept : c ≠ '\r' := Ne.symm other
      simp only [withReturns_cons feed, shifted_cons, feed, kept, false_and, if_false, ih later]

/-- A carriage return at the end of a text stays in a shift. -/
theorem shifted_append_return (width room : Nat) (cs : List Char) :
    shifted some width room (cs ++ ['\r']) = shifted some width room cs ++ ['\r'] := by
  rw [shifted_append room (by simp)]
  simp [shifted]

/-- The text of a definition behind the first column that ends with a line feed is shifted without it. -/
theorem dedented_append_feed {node : Node} (positive : node.start.column ≠ 0)
    (ends : (node.text source).getLast? = some '\n') :
    dedented source node ++ ['\n'] = shifted some node.start.column 0 (node.text source) := by
  simp only [dedented, if_neg positive]
  generalize node.text source = text at ends ⊢
  obtain ⟨front, rfl⟩ := List.getLast?_eq_some_iff.mp ends
  have split : splitLines (front ++ ['\n']) = splitLines front ++ [[]] := splitLines_append_newline front []
  obtain ⟨first, rest, lines⟩ := List.exists_cons_of_ne_nil (splitLines_ne_nil front)
  have single : ∀ line ∈ first :: rest, '\n' ∉ line := fun line member =>
    not_mem_of_mem_splitLines (lines ▸ member)
  have joined := intercalate_splitLines (front ++ ['\n'])
  rw [split, lines] at joined
  have whole : textLines (front ++ ['\n']) = dropReturn first :: rest.map dropReturn := by
    simp only [textLines, split, lines, List.dropLast_concat, List.getLast?_concat, Option.getD_some,
      List.isEmpty_nil, if_true, List.append_nil, List.map_cons]
  have later := @shifted_lines rest [] (fun line member => by
    rcases List.mem_append.mp member with inside | last
    · exact single line (List.mem_cons_of_mem first inside)
    · rw [List.mem_singleton.mp last]
      simp) node.start.column
  rw [whole, ← joined, List.cons_append, intercalate_cons first (by simp),
    shifted_line (single first List.mem_cons_self), later, unindent_zero, List.map_append,
    show [[]].map (unindent node.start.column) = [[]] by simp [unindent]]
  simp only
  generalize (rest.map dropReturn).map (unindent node.start.column) = others, dropReturn first = line
  induction others generalizing line with
  | nil => simp [List.intercalate]
  | cons next more ih =>
    have some_line : more ++ [[]] ≠ [] := by simp
    rw [intercalate_cons line (List.cons_ne_nil next more), List.cons_append, intercalate_cons next some_line,
      ← ih next, List.append_assoc, List.cons_append]

/-- The text of a definition in the copy is the one in the source, apart from carriage returns. -/
theorem dedented_withReturns {node node' : Node} (plain : '\r' ∉ source)
    (starts : Level source node.start node'.start) (stops : Copied source node.stop node'.stop) :
    (dedented (withReturns source) node').filter (· ≠ '\r') = dedented source node := by
  obtain ⟨rest, text, carriage, _⟩ := starts.exists_textBetween stops
  have own : '\r' ∉ node.text source := fun member =>
    plain (List.mem_of_mem_drop (List.mem_of_mem_take member))
  have copy : node'.text (withReturns source) = withReturns (node.text source) ++ rest := text
  have gone : rest.filter (· ≠ '\r') = [] := by
    rcases carriage with rfl | ⟨rfl, _⟩ <;> rfl
  have column := starts.column_eq
  by_cases first : node.start.column = 0
  · rw [dedented, dedented, column, if_pos first, if_pos first, copy, List.filter_append, gone, List.append_nil,
      filter_withReturns own]
  · have first' : node'.start.column ≠ 0 := column ▸ first
    have kept : ∀ cs : List Char, cs.Sublist (node.text source) → cs.filter (· ≠ '\r') = cs := fun cs sublist =>
      List.filter_eq_self.mpr fun c member => by
        simpa using fun same : c = '\r' => own (same ▸ sublist.mem member)
    have moved := shifted_sublist some node.start.column 0 (node.text source)
    by_cases ends : (node.text source).getLast? = some '\n'
    · -- A text that ends with a line feed is not followed by another half of one.
      obtain rfl : rest = [] := carriage.resolve_right fun both => both.2 ends
      rw [List.append_nil] at copy
      have whole := dedented_append_feed first ends
      have whole' := @dedented_append_feed (withReturns source) node' first' (by
        rw [copy, getLast?_withReturns, ends])
      rw [copy, column, shifted_withReturns_eq own, ← whole, List.append_cancel_right_eq] at whole'
      rw [whole']
      rw [← whole] at moved
      exact kept _ ((List.sublist_append_left _ _).trans moved)
    · have whole := dedented_eq_shifted first ends
      have whole' := @dedented_eq_shifted (withReturns source) node' first' (by
        rw [copy]
        rcases carriage with rfl | ⟨rfl, _⟩
        · rw [List.append_nil, getLast?_withReturns]
          exact ends
        · simp)
      have behind : dedented (withReturns source) node' = dedented source node ++ rest := by
        rw [whole', whole, copy, column]
        rcases carriage with rfl | ⟨rfl, _⟩
        · rw [List.append_nil, List.append_nil, shifted_withReturns_eq own]
        · rw [shifted_append_return, shifted_withReturns_eq own]
      rw [behind, List.filter_append, gone, List.append_nil]
      rw [← whole] at moved
      exact kept _ moved

end SourceOutline.Python
