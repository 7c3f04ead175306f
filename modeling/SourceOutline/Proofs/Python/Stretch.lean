import SourceOutline.Proofs.Python.Layout

/-! The lines of a stretch of a source are found again when the stretch stands alone. -/

namespace SourceOutline.Python

open Text

/-- A place of a source that lies within a stretch of it, and the place in the stretch alone. -/
def Corresponds (start : Mark) (text : List Char) (mark mark' : Mark) : Prop :=
  ∃ front, front <+: text ∧ mark = start.pass front ∧ mark' = Mark.pass {} front

/-- Two places correspond wherever a text is passed from both of them. -/
def MovesAlike (same : Mark → Mark → Prop) (text : List Char) (mark mark' : Mark) : Prop :=
  ∀ seen, seen <+: text → same (mark.pass seen) (mark'.pass seen)

section

variable {same : Mark → Mark → Prop} {mark mark' : Mark}

/-- Places that correspond along a text do so along its first part. -/
theorem MovesAlike.front {front back : List Char} (moves : MovesAlike same (front ++ back) mark mark') :
    MovesAlike same front mark mark' :=
  fun seen within => moves seen (within.trans (List.prefix_append front back))

/-- Behind the first part of a text places correspond along what is left of it. -/
theorem MovesAlike.behind {front back : List Char} (moves : MovesAlike same (front ++ back) mark mark') :
    MovesAlike same back (mark.pass front) (mark'.pass front) := by
  intro seen within
  rw [← Mark.pass_append, ← Mark.pass_append]
  exact moves (front ++ seen) ((List.prefix_append_right_inj front).mpr within)

/-- Places that correspond along a text correspond at its start. -/
theorem MovesAlike.here {text : List Char} (moves : MovesAlike same text mark mark') : same mark mark' :=
  moves [] List.nil_prefix

/-- The tokens of a text are found at corresponding places. -/
theorem tokensFrom_alike {found : List Piece} (moves : MovesAlike same (textOf found) mark mark') :
    List.Forall₂ (Token.Alike same) (tokensFrom mark found) (tokensFrom mark' found) := by
  induction found generalizing mark mark' with
  | nil => exact .nil
  | cons piece rest ih =>
    rw [textOf_cons] at moves
    have later := ih moves.behind
    rw [tokensFrom, tokensFrom]
    split
    · exact .cons ⟨rfl, moves.here, moves.behind.here⟩ later
    · exact later

/-- The notes of a text are found at corresponding places. -/
theorem notesFrom_alike {lead : List Piece} (moves : MovesAlike same (textOf lead) mark mark') :
    List.Forall₂ (Note.Alike same) (notesFrom mark lead) (notesFrom mark' lead) := by
  rw [notesFrom, notesFrom, List.forall₂_map_left_iff, List.forall₂_map_right_iff]
  exact (tokensFrom_alike moves).imp fun _ _ alike => ⟨alike, fun _ => rfl⟩

/-- The line of a row is found at corresponding places. -/
theorem Split.lineOf_alike {row lead core trail : List Piece} (split : Split row lead core trail)
    (moves : MovesAlike same (textOf row) mark mark') :
    Line.Alike same (lineOf mark lead core) (lineOf mark' lead core) := by
  rw [split.whole, textOf_append, textOf_append] at moves
  exact ⟨⟨tokensFrom_alike moves.behind.front, split.tokensFrom_ne_nil _⟩, notesFrom_alike moves.front, rfl⟩

/-- Layouts whose lines and notes correspond. -/
structure Layout.Alike (same : Mark → Mark → Prop) (layout layout' : Layout) : Prop where
  /-- The lines correspond. -/
  lines : List.Forall₂ (Line.Alike same) layout.lines layout'.lines
  /-- The notes behind all lines correspond. -/
  notes : List.Forall₂ (Note.Alike same) layout.notes layout'.notes

/-- More notes that correspond do no harm. -/
theorem Layout.Alike.below {layout layout' : Layout} (alike : Layout.Alike same layout layout')
    {notes notes' : List Note} (more : List.Forall₂ (Note.Alike same) notes notes') :
    Layout.Alike same (layout.below notes) (layout'.below notes') := by
  obtain ⟨lines, behind⟩ := layout
  obtain ⟨lines', behind'⟩ := layout'
  obtain ⟨each, ends⟩ := alike
  cases each with
  | nil => exact ⟨.nil, List.rel_append more ends⟩
  | cons first rest =>
    have above := List.rel_append more first.notes
    exact ⟨.cons ⟨⟨first.tokens, first.some_token⟩, above, first.margin⟩ rest, ends⟩

/-- The layout of rows is found at corresponding places. -/
theorem layoutFrom_alike {rows : List (List Piece)} (moves : MovesAlike same (textOf (joinRows rows)) mark mark') :
    Layout.Alike same (layoutFrom mark rows) (layoutFrom mark' rows) := by
  induction rows generalizing mark mark' with
  | nil => exact ⟨.nil, .nil⟩
  | cons row rest ih =>
    have here : MovesAlike same (textOf row) mark mark' := by
      rw [joinRows, textOf_append] at moves
      exact moves.front
    have later : Layout.Alike same (layoutFrom (mark.pass (textOf (row ++ [feed]))) rest)
        (layoutFrom (mark'.pass (textOf (row ++ [feed]))) rest) := by
      cases rest with
      | nil => exact ⟨.nil, .nil⟩
      | cons next more =>
        have whole : joinRows (row :: next :: more) = row ++ [feed] ++ joinRows (next :: more) := by
          simp [joinRows]
        rw [whole, textOf_append] at moves
        exact ih moves.behind
    rcases plain_or_split row with plain | ⟨lead, core, trail, split⟩
    · rw [layoutFrom_plain plain, layoutFrom_plain plain]
      exact later.below (notesFrom_alike here)
    · rw [split.layoutFrom_eq, split.layoutFrom_eq]
      exact ⟨.cons (split.lineOf_alike here) later.lines, later.notes⟩

end

/-- Tokens are those of a row with code among some rows, and the rows below it have a layout. -/
def HasLine (mark : Mark) (rows : List (List Piece)) (tokens : List Token) (behind : Layout) : Prop :=
  ∃ above row below lead core trail, rows = above ++ row :: below ∧ Split row lead core trail ∧
    tokens = tokensFrom (mark.pass (textOf (above.flatMap (· ++ [feed]) ++ lead))) core ∧
    layoutFrom (mark.pass (textOf (above.flatMap (· ++ [feed]) ++ (row ++ [feed])))) below = behind

/-- A row in front does not matter. -/
theorem HasLine.cons {mark : Mark} {row : List Piece} {rows : List (List Piece)} {tokens : List Token}
    {behind : Layout} (found : HasLine (mark.pass (textOf (row ++ [feed]))) rows tokens behind) :
    HasLine mark (row :: rows) tokens behind := by
  obtain ⟨above, some_row, below, lead, core, trail, rfl, split, tokens, layout⟩ := found
  rw [← Mark.pass_append, ← textOf_append, ← List.append_assoc] at tokens layout
  exact ⟨row :: above, some_row, below, lead, core, trail, rfl, split, tokens, layout⟩

/-- Every line is a row with code. -/
theorem hasLine_of_lines {rows : List (List Piece)} {mark : Mark} {before rest : List Line} {line : Line}
    (lines : (layoutFrom mark rows).lines = before ++ line :: rest) :
    HasLine mark rows line.tokens ⟨rest, (layoutFrom mark rows).notes⟩ := by
  induction rows generalizing mark before line with
  | nil => simp [layoutFrom] at lines
  | cons row later ih =>
    rcases plain_or_split row with plain | ⟨lead, core, trail, split⟩
    · rw [layoutFrom_plain plain] at lines ⊢
      have inner := @ih (mark.pass (textOf (row ++ [feed])))
      generalize layoutFrom (mark.pass (textOf (row ++ [feed]))) later = below at *
      obtain ⟨some_lines, notes⟩ := below
      cases some_lines with
      | nil => simp [Layout.below] at lines
      | cons first others =>
        -- More notes above the first line leave its tokens alone.
        cases before with
        | nil =>
          obtain ⟨rfl, rfl⟩ := List.cons.inj lines
          exact (@inner [] _ rfl).cons
        | cons other before =>
          obtain ⟨rfl, behind⟩ := List.cons.inj lines
          rw [List.append_eq] at behind
          exact (@inner (first :: before) _ (by rw [behind]; rfl)).cons
    · rw [split.layoutFrom_eq] at lines ⊢
      cases before with
      | nil =>
        obtain ⟨rfl, rfl⟩ := List.cons.inj lines
        exact ⟨[], row, later, lead, core, trail, rfl, split, rfl, rfl⟩
      | cons other before => exact (ih (List.cons.inj lines).2).cons

/-- A line of rows in which joins have been passed over is the code of a row. -/
theorem HasLine.unhushed {rows : List (List Piece)} {mark : Mark} {tokens : List Token} {behind : Layout}
    (found : HasLine mark (rows.map hushJoins) tokens behind) :
    ∃ above row below lead core trail, rows = above ++ row :: below ∧ Split row lead core trail ∧
      tokens = tokensFrom (mark.pass (textOf (above.flatMap (· ++ [feed]) ++ lead))) (hushJoins core) ∧
      layoutFrom (mark.pass (textOf (above.flatMap (· ++ [feed]) ++ (row ++ [feed]))))
        (below.map hushJoins) = behind := by
  obtain ⟨above', row', below', lead', core', trail', whole, split', tokens, layout⟩ := found
  obtain ⟨above, later, rfl, rfl, hushed⟩ := List.map_eq_append_iff.mp whole
  obtain ⟨row, below, rfl, rfl, rfl⟩ := List.map_eq_cons_iff.mp hushed
  obtain ⟨lead, core, trail, split⟩ : ∃ lead core trail, Split row lead core trail := by
    rcases plain_or_split row with plain | split
    · -- Without code the hushed row would hold no code either.
      exfalso
      have plain' := (forall_isCode_hushed_iff (hushJoins_hushed row)).mpr plain
      exact split'.core_ne_nil (split'.coreOf_eq.symm.trans (coreOf_eq_nil plain'))
    · exact split
  obtain ⟨lead'', text, split''⟩ := split.hushed
  obtain rfl : lead' = lead'' := split'.leadOf_eq.symm.trans split''.leadOf_eq
  obtain rfl : core' = hushJoins core := split'.coreOf_eq.symm.trans split''.coreOf_eq
  have before := textOf_flatMap_hushJoins (f := (· ++ [feed])) (by simp) above
  refine ⟨above, row, below, lead, core, trail, rfl, split, ?_, ?_⟩
  · rw [tokens, textOf_append, before, text, textOf_append]
  · rw [← layout]
    simp [before]

/-- What ends with a solid token when joins have been passed over does so before that as well. -/
theorem exists_of_hushJoins_append {row kept' trail' : List Piece} (hushed : hushJoins row = kept' ++ trail')
    (solid : EndsSolid kept') (loose : ∀ piece ∈ trail', piece.isSolid = false) :
    ∃ kept trail, row = kept ++ trail ∧ hushJoins kept = kept' ∧ EndsSolid kept ∧
      ∀ piece ∈ trail, piece.isSolid = false := by
  have each := hushJoins_hushed row
  rw [hushed] at each
  have front := List.forall₂_take_append _ _ _ each
  have back := List.forall₂_drop_append _ _ _ each
  have ends := (endsSolid_hushed_iff front).mp solid
  have whole := List.take_append_drop kept'.length row
  refine ⟨_, _, whole.symm, ?_, ends, (forall_isSolid_hushed_iff back).mp loose⟩
  have same := (hushJoins_hushed (row.take kept'.length)).length_eq.symm.trans front.length_eq
  rw [← whole, hushJoins_append ends] at hushed
  exact (List.append_inj hushed same).1

/-- The first ones of some rows in which joins have been passed over are the first ones of the rows. -/
theorem StopsWithin.unhushed {mark : Mark} {rows : List (List Piece)} {layout : Layout}
    (stops : StopsWithin mark (rows.map hushJoins) layout) :
    ∃ front kept trail back, rows = front ++ (kept ++ trail) :: back ∧ kept ≠ [] ∧ EndsSolid kept ∧
      (∀ piece ∈ trail, piece.isSolid = false) ∧
      layoutFrom mark ((front ++ [kept]).map hushJoins) = layout := by
  obtain ⟨front', kept', trail', back', whole, some_piece, solid, loose, layout⟩ := stops
  obtain ⟨front, later, rfl, rfl, hushed⟩ := List.map_eq_append_iff.mp whole
  obtain ⟨row, back, rfl, ends, rfl⟩ := List.map_eq_cons_iff.mp hushed
  obtain ⟨kept, trail, rfl, rfl, solid, loose⟩ := exists_of_hushJoins_append ends solid loose
  refine ⟨front, kept, trail, back, rfl, ?_, solid, loose, ?_⟩
  · rintro rfl
    exact some_piece rfl
  · rw [List.map_append]
    exact layout

/-- The rows of a text end their comments and hold no line feed that ends a logical line. -/
theorem commentEnds_of_cutsTo {rows : List (List Piece)} (cuts : CutsTo [] [] (joinRows rows) [])
    (inside : ∀ row ∈ rows, ∀ piece ∈ row, piece.part ≠ .lineFeed) : ∀ row ∈ rows, CommentEnds row := by
  intro row member
  obtain ⟨above, below, rfl⟩ := List.append_of_mem member
  exact cuts.row.commentEnds (inside row member)

/-- The first ones of some rows stand in front of the others. -/
theorem joinRows_front (front : List (List Piece)) (kept trail : List Piece) (back : List (List Piece)) :
    joinRows (front ++ (kept ++ trail) :: back) =
      joinRows (front ++ [kept]) ++ (trail ++ back.flatMap (feed :: ·)) := by
  simp [joinRows_append]

/-- The first ones of some rows, up to a solid token, are what their text is cut into. -/
theorem pieces_front {front back : List (List Piece)} {kept trail : List Piece}
    (cuts : CutsTo [] [] (joinRows (front ++ (kept ++ trail) :: back)) [])
    (loose : ∀ piece ∈ trail, piece.isSolid = false) :
    pieces (textOf (joinRows (front ++ [kept]))) = some (joinRows (front ++ [kept])) := by
  rw [joinRows_front] at cuts
  obtain ⟨between, first, second⟩ := cuts.append
  -- What follows the last solid token opens nothing, so nothing is open there.
  obtain ⟨_, behind, last⟩ := second.append
  have plain : ∀ piece ∈ trail, piece.isCode = false := fun piece member =>
    isCode_of_isSolid (loose piece member)
  obtain rfl : between = [] := (behind.modes_eq plain).symm.trans last.of_open
  have parted : IsParted (textOf (trail ++ back.flatMap (feed :: ·)) ++ []) := by
    rw [List.append_nil]
    refine second.isParted_textOf fun piece isFirst => ?_
    cases trail with
    | cons next more =>
      cases isFirst
      exact plain _ List.mem_cons_self
    | nil =>
      cases back with
      | nil => cases isFirst
      | cons row more =>
        cases isFirst
        rfl
  have alone := first.alone parted fun style member => absurd member List.not_mem_nil
  exact (cutBehind_eq_some_iff [] _ _).mpr (alone.cuts rfl)

/-- A text holds a layout: its own layout corresponds, at places that count from a start, and it ends
with a token, where the layout ends. -/
structure Holds (start : Mark) (text : List Char) (layout : Layout) : Prop where
  /-- The lines and notes of the text are those of the layout. -/
  alike : ∃ again, layoutOf text = some again ∧ Layout.Alike (Corresponds start text) layout again
  /-- The layout ends where the text does. -/
  stop : layout.stop? = some (start.pass text)
  /-- The text ends with a token. -/
  solid : ∃ found, pieces text = some found ∧ found ≠ [] ∧ EndsSolid found

/-- Some lines of rows and the first comments behind them are held by a text that the rows start
with. -/
theorem exists_holds {rows : List (List Piece)} (cuts : CutsTo [] [] (joinRows rows) [])
    (inside : ∀ row ∈ rows, ∀ piece ∈ row, piece.part ≠ .lineFeed) {start : Mark} {layout : Layout}
    (laid : layoutFrom start (rows.map hushJoins) = layout) {taken count : Nat}
    (comments : ∀ note ∈ (layout.upTo taken count).notes, note.token.symbol = .comment)
    (some_item : layout.upTo taken count ≠ ⟨[], []⟩) :
    ∃ text, text <+: textOf (joinRows rows) ∧ Holds start text (layout.upTo taken count) := by
  have ends : ∀ row ∈ rows.map hushJoins, CommentEnds row := by
    intro hushed member
    obtain ⟨row, among, rfl⟩ := List.mem_map.mp member
    exact (commentEnds_of_cutsTo cuts inside row among).hushed (hushJoins_hushed row)
  have stops := stopsAnywhere_layoutFrom ends start taken count
  rw [laid] at stops
  obtain ⟨front, kept, trail, back, rfl, some_piece, solid, loose, again⟩ :=
    (stops comments some_item).unhushed
  have cut := pieces_front cuts loose
  have within : ∀ row ∈ front ++ [kept], ∀ piece ∈ row, piece.part ≠ .lineFeed := by
    intro row member piece among
    rcases List.mem_append.mp member with before | last
    · exact inside row (List.mem_append_left _ before) piece among
    · obtain rfl := List.mem_singleton.mp last
      exact inside (row ++ trail) (by simp) piece (List.mem_append_left trail among)
  have rows := rowsBetween_joinRows (by simp) within
  have text := textOf_joinRows_hushJoins (front ++ [kept])
  have alone : layoutOf (textOf (joinRows (front ++ [kept]))) =
      some (layoutFrom {} ((front ++ [kept]).map hushJoins)) := by
    rw [layoutOf, cut, Option.map_some, rowsBetween_hushJoins, rows]
  refine ⟨textOf (joinRows (front ++ [kept])), ?_, ⟨_, alone, ?_⟩, ?_, _, cut, ?_, ?_⟩
  · rw [joinRows_front, textOf_append]
    exact List.prefix_append _ _
  · rw [← again]
    exact layoutFrom_alike fun seen within => ⟨seen, text ▸ within, rfl, rfl⟩
  · rw [← again, ← text, List.map_append]
    refine stop?_layoutFrom ?_ ((endsSolid_hushed_iff (hushJoins_hushed kept)).mpr solid) start
    intro empty
    have length := (hushJoins_hushed kept).length_eq
    rw [empty] at length
    exact some_piece (List.eq_nil_of_length_eq_zero length)
  · simp [joinRows_append, some_piece]
  · rw [joinRows_append, List.flatMap_nil, List.append_nil]
    exact solid.append some_piece _

/-- A row without what stands before its code is the same line. -/
theorem Split.layoutFrom_withoutLead {row lead core trail : List Piece} (split : Split row lead core trail)
    (mark : Mark) (below : List (List Piece)) :
    let later := layoutFrom (mark.pass (textOf (core ++ trail ++ [feed]))) (below.map hushJoins)
    layoutFrom mark (((core ++ trail) :: below).map hushJoins) =
      ⟨⟨[], [], 0, tokensFrom mark (hushJoins core)⟩ :: later.lines, later.notes⟩ := by
  obtain ⟨lead', _, hushed⟩ := split.withoutLead.hushed
  have whole := hushed.whole
  rw [hushJoins_append split.ends, List.self_eq_append_left] at whole
  subst whole
  have text : textOf (hushJoins (core ++ trail) ++ [feed]) = textOf (core ++ trail ++ [feed]) := by simp
  rw [List.map_cons, hushed.layoutFrom_eq, text]
  rfl

/-- Pieces that start with code make up tokens that start where the pieces do. -/
theorem start_tokensFrom {first : Piece} (code : first.isCode = true) (mark : Mark) (rest : List Piece) :
    ((tokensFrom mark (first :: rest)).head?.map Token.start).getD {} = mark := by
  obtain ⟨symbol, part⟩ := exists_symbol_of_isCode code
  rw [tokensFrom, part]
  rfl

/-- The line of a row starts with its code. -/
theorem Split.start_eq {row lead core trail : List Piece} (split : Split row lead core trail)
    {line : Line} {mark : Mark} (tokens : line.tokens = tokensFrom mark (hushJoins core)) :
    line.start = mark := by
  obtain ⟨_, _, hushed⟩ := split.hushed
  obtain ⟨first, rest, starts, code⟩ := hushed.starts
  rw [Line.start, tokens, starts]
  exact start_tokensFrom code mark rest

/-- A line of a source, some lines below it and the first comments behind them are held by a stretch of
the source. -/
theorem exists_stretch {source : List Char} {layout : Layout} (laid : layoutOf source = some layout)
    {before rest : List Line} {line : Line} (lines : layout.lines = before ++ line :: rest)
    {taken count : Nat} (comments : ∀ note ∈ (notesBehind layout.notes (rest.drop taken)).take count,
      note.token.symbol = .comment) :
    ∃ front text back, source = front ++ (text ++ back) ∧ line.start = Mark.pass {} front ∧
      Holds line.start text ⟨⟨[], [], 0, line.tokens⟩ :: rest.take taken,
        (notesBehind layout.notes (rest.drop taken)).take count⟩ := by
  obtain ⟨found, cut, rfl⟩ := Option.map_eq_some_iff.mp laid
  obtain ⟨rfl, cuts⟩ := ((cutBehind_eq_some_iff [] source found).mp cut).cutsTo
  -- The source consists of rows, one of which is the line.
  have inside := fun row member => @not_lineFeed_of_mem_rowsBetween found row member
  have rows := joinRows_rowsBetween cuts.eq_feed
  rw [rowsBetween_hushJoins] at lines comments ⊢
  obtain ⟨above, row, below, lead, core, trail, whole, split, tokens, behind⟩ :=
    (hasLine_of_lines lines).unhushed
  have start := split.start_eq tokens
  rw [whole] at rows inside
  -- Without the rows above and what stands before the code the text still starts with nothing open.
  have apart : found = above.flatMap (· ++ [feed]) ++ lead ++ joinRows ((core ++ trail) :: below) := by
    rw [← rows, joinRows_append, joinRows, split.whole]
    simp
  rw [apart, List.append_assoc] at cuts
  obtain ⟨between, first, own⟩ := cuts.of_closed.append
  rw [first.modes_eq split.lead] at own
  have own_inside : ∀ other ∈ (core ++ trail) :: below, ∀ piece ∈ other, piece.part ≠ .lineFeed := by
    intro other member piece within
    rcases List.mem_cons.mp member with rfl | later
    · refine inside row (by simp) piece ?_
      rw [split.whole]
      exact List.mem_append_right lead within
    · exact inside other (by simp [later]) piece within
  have again := split.layoutFrom_withoutLead line.start below
  have passed : line.start.pass (textOf (core ++ trail ++ [feed])) =
      Mark.pass {} (textOf (above.flatMap (· ++ [feed]) ++ (row ++ [feed]))) := by
    rw [start, ← Mark.pass_append, ← textOf_append, split.whole]
    simp
  rw [passed, behind, start, ← tokens, ← start] at again
  obtain ⟨text, ⟨back, rest_text⟩, holds⟩ := @exists_holds _ own own_inside _ _ again (taken + 1) count
    comments (by simp [Layout.upTo])
  refine ⟨_, text, back, ?_, start, holds⟩
  rw [apart, textOf_append, rest_text]

end SourceOutline.Python
