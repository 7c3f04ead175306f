import SourceOutline.Proofs.Python.Detaching
import SourceOutline.Proofs.Python.Rows

/-! The lines of a stretch of a source are found again when the stretch stands alone. -/

namespace SourceOutline.Python

/-- Two texts are passed one after the other. -/
theorem Mark.pass_append (mark : Mark) (front back : List Char) :
    mark.pass (front ++ back) = (mark.pass front).pass back := List.foldl_append

/-- Pieces are passed when their text is. -/
theorem Mark.behind_eq_pass (mark : Mark) (found : List Piece) :
    mark.behind found = mark.pass (textOf found) := by
  induction found generalizing mark with
  | nil => rfl
  | cons piece rest ih =>
    rw [textOf_cons, Mark.pass_append, ← ih]
    rfl

/-- A row is passed together with the line feed behind it. -/
theorem Mark.step_behind (mark : Mark) (row : List Piece) :
    (mark.behind row).step '\n' = mark.pass (textOf (row ++ [feed])) := by
  rw [textOf_append, Mark.pass_append, Mark.behind_eq_pass]
  rfl

/-- The comments and joins among pieces that start at a place and hold no code. -/
def notesFrom (mark : Mark) (lead : List Piece) : List Note :=
  -- The pieces are what a row is indented by.
  (tokensFrom mark lead).map fun token => ⟨token, indentation lead⟩

/-- A row without code leaves notes to the rows below it. -/
theorem layoutFrom_plain {row : List Piece} (other : ∀ piece ∈ row, piece.isCode = false) (mark : Mark)
    (below : List (List Piece)) :
    layoutFrom mark (row :: below) =
      (layoutFrom (mark.pass (textOf (row ++ [feed]))) below).below (notesFrom mark row) := by
  have whole : leadOf row = row := by
    have all := @leadOf_append row [] other
    simpa [leadOf] using all
  rw [layoutFrom, coreOf_eq_nil other, whole, Mark.step_behind]
  rfl

/-- The line that the code of a row makes up. -/
def lineOf (mark : Mark) (lead core : List Piece) : Line :=
  ⟨notesFrom mark lead, textOf lead, indentation lead, tokensFrom (mark.pass (textOf lead)) core⟩

/-- A row with code is a line. -/
theorem Split.layoutFrom_eq {row lead core trail : List Piece} (split : Split row lead core trail)
    (mark : Mark) (below : List (List Piece)) :
    layoutFrom mark (row :: below) =
      ⟨lineOf mark lead core :: (layoutFrom (mark.pass (textOf (row ++ [feed]))) below).lines,
        (layoutFrom (mark.pass (textOf (row ++ [feed]))) below).notes⟩ := by
  rw [layoutFrom, split.coreOf_eq, split.leadOf_eq, Mark.step_behind, Mark.behind_eq_pass]
  cases core with
  | nil =>
    obtain ⟨first, rest, empty, _⟩ := split.starts
    cases empty
  | cons first rest => rfl

/-- A row holds code and is split, or it holds none. -/
theorem plain_or_split (row : List Piece) :
    (∀ piece ∈ row, piece.isCode = false) ∨ ∃ lead core trail, Split row lead core trail := by
  by_cases some_code : ∃ piece ∈ row, piece.isCode = true
  · exact .inr (exists_split some_code)
  · exact .inl fun piece member => by simpa using fun code => some_code ⟨piece, member, code⟩

/-- Code is a token. -/
theorem exists_symbol_of_isCode {piece : Piece} (code : piece.isCode = true) :
    ∃ symbol, piece.part = .token symbol := by
  obtain ⟨part, text⟩ := piece
  cases part with
  | token symbol => exact ⟨symbol, rfl⟩
  | _ => cases code

/-- A line has a token. -/
theorem Split.tokensFrom_ne_nil {row lead core trail : List Piece} (split : Split row lead core trail)
    (mark : Mark) : tokensFrom mark core ≠ [] := by
  obtain ⟨first, rest, rfl, code⟩ := split.starts
  obtain ⟨symbol, part⟩ := exists_symbol_of_isCode code
  rw [tokensFrom, part]
  exact List.cons_ne_nil _ _

/-- The first of the notes before some pieces is a comment only at the end of the row. -/
theorem tokensFrom_of_commentEnds {front back : List Piece} {mark : Mark} {token : Token}
    {more : List Token} (ends : CommentEnds (front ++ back))
    (other : ∀ piece ∈ front, piece.isCode = false) (tokens : tokensFrom mark front = token :: more)
    (comment : token.symbol = .comment) : more = [] ∧ back = [] ∧ EndsSolid front := by
  induction front generalizing mark with
  | nil => cases tokens
  | cons piece rest ih =>
    have behind : CommentEnds (rest ++ back) := by
      intro before last after whole plain isComment
      refine ends (piece :: before) last after (by rw [List.cons_append, whole]; rfl) ?_ isComment
      intro some_piece member
      rcases List.mem_cons.mp member with rfl | inside
      · exact other _ List.mem_cons_self
      · exact plain some_piece inside
    by_cases here : piece.part = .token .comment
    · -- A comment is the last piece.
      have nothing := ends [] piece (rest ++ back) rfl (by simp) here
      obtain ⟨rfl, rfl⟩ := List.append_eq_nil_iff.mp nothing
      rw [tokensFrom, here] at tokens
      refine ⟨(List.cons.inj tokens).2.symm, rfl, fun last isLast => ?_⟩
      have same : last = piece := by simpa using isLast.symm
      rw [same, Piece.isSolid, here]
      rfl
    · have later : tokensFrom (mark.pass piece.text) rest = token :: more := by
        rw [tokensFrom] at tokens
        split at tokens
        · rename_i symbol part
          obtain ⟨rfl, _⟩ := List.cons.inj tokens
          rw [part, show symbol = .comment from comment] at here
          exact absurd rfl here
        · exact tokens
      obtain ⟨single, last, solid⟩ := ih behind (fun some_piece inside =>
        other some_piece (List.mem_cons_of_mem piece inside)) later
      refine ⟨single, last, fun some_piece isLast => ?_⟩
      cases rest with
      | nil => cases later
      | cons next rest =>
        rw [List.getLast?_cons_cons] at isLast
        exact solid some_piece isLast

namespace Layout

/-- The lines of a layout up to a number, and the notes behind them up to a number. -/
def upTo (layout : Layout) (taken count : Nat) : Layout :=
  ⟨layout.lines.take taken, (notesBehind layout.notes (layout.lines.drop taken)).take count⟩

/-- Without more notes nothing changes. -/
@[simp] theorem below_nil (layout : Layout) : layout.below [] = layout := by
  obtain ⟨lines, notes⟩ := layout
  cases lines <;> rfl

/-- More notes stand above the first line when there is one. -/
theorem upTo_below_succ {layout : Layout} (some_line : layout.lines ≠ []) (notes : List Note)
    (taken count : Nat) :
    (layout.below notes).upTo (taken + 1) count = (layout.upTo (taken + 1) count).below notes := by
  obtain ⟨lines, behind⟩ := layout
  cases lines with
  | nil => exact absurd rfl some_line
  | cons line rest => rfl

/-- Before any line more notes come first. -/
theorem upTo_below {layout : Layout} {taken : Nat} (no_line : taken = 0 ∨ layout.lines = [])
    (notes : List Note) (count : Nat) :
    (layout.below notes).upTo taken count =
      ⟨[], (notes ++ notesBehind layout.notes layout.lines).take count⟩ := by
  obtain ⟨lines, behind⟩ := layout
  cases lines with
  | nil => simp [upTo, below, notesBehind]
  | cons line rest =>
    rcases no_line with rfl | empty
    · rfl
    · cases empty

/-- Where a layout ends: with a note, or with a line when there are no notes behind all lines. -/
def stop? (layout : Layout) : Option Mark :=
  match layout.notes.getLast? with
  | some note => some note.token.stop
  | none => layout.lines.getLast?.map Line.stop

/-- Notes in front do not move the end. -/
theorem stop?_below {layout : Layout} {stop : Mark} (ends : layout.stop? = some stop)
    (notes : List Note) : (layout.below notes).stop? = some stop := by
  obtain ⟨lines, behind⟩ := layout
  cases lines with
  | nil =>
    cases last : behind.getLast? with
    | none => simp [stop?, last] at ends
    | some note =>
      simp only [stop?, last] at ends
      simp only [stop?, below, List.getLast?_append, last]
      exact ends
  | cons line rest =>
    rw [← ends]
    cases rest <;> rfl

/-- Neither do lines in front. -/
theorem stop?_cons {layout : Layout} {stop : Mark} (ends : layout.stop? = some stop) (line : Line) :
    stop? ⟨line :: layout.lines, layout.notes⟩ = some stop := by
  obtain ⟨lines, behind⟩ := layout
  cases lines with
  | nil =>
    cases last : behind.getLast? with
    | none => simp [stop?, last] at ends
    | some note =>
      simp only [stop?, last] at ends ⊢
      exact ends
  | cons next rest => exact ends

end Layout

/-- A layout is that of the first ones of some rows, up to a solid token. -/
def StopsWithin (mark : Mark) (rows : List (List Piece)) (layout : Layout) : Prop :=
  ∃ front kept trail back, rows = front ++ (kept ++ trail) :: back ∧ kept ≠ [] ∧ EndsSolid kept ∧
    (∀ piece ∈ trail, piece.isSolid = false) ∧ layoutFrom mark (front ++ [kept]) = layout

/-- A row in front of the first ones of some rows is the first one of all rows. -/
theorem StopsWithin.cons {mark next : Mark} {row : List Piece} {rows : List (List Piece)}
    {layout : Layout} {f : Layout → Layout} (stops : StopsWithin next rows layout)
    (adds : ∀ below, layoutFrom mark (row :: below) = f (layoutFrom next below)) :
    StopsWithin mark (row :: rows) (f layout) := by
  obtain ⟨front, kept, trail, back, rfl, some_piece, solid, loose, rfl⟩ := stops
  exact ⟨row :: front, kept, trail, back, rfl, some_piece, solid, loose, adds _⟩

/-- Some lines of a layout and the first comments behind them are the layout of the first ones of some
rows, up to the last of these lines and comments. -/
def StopsAnywhere (mark : Mark) (rows : List (List Piece)) (layout : Layout) : Prop :=
  ∀ taken count, (∀ note ∈ (layout.upTo taken count).notes, note.token.symbol = .comment) →
    layout.upTo taken count ≠ ⟨[], []⟩ → StopsWithin mark rows (layout.upTo taken count)

section

variable {mark : Mark} {row : List Piece} {rest : List (List Piece)} {later : Layout}

/-- Rows with a row without code above them stop anywhere when they do by themselves. -/
theorem StopsAnywhere.plain (inner : StopsAnywhere (mark.pass (textOf (row ++ [feed]))) rest later)
    (plain : ∀ piece ∈ row, piece.isCode = false) (ends : CommentEnds row) :
    StopsAnywhere mark (row :: rest) (later.below (notesFrom mark row)) := by
  intro taken count comments some_item
  have adds := layoutFrom_plain plain mark
  cases tokens : tokensFrom mark row with
  | nil =>
    have nothing : notesFrom mark row = [] := by rw [notesFrom, tokens]; rfl
    rw [nothing, Layout.below_nil] at comments some_item ⊢
    refine (inner taken count comments some_item).cons (f := id) fun below => ?_
    rw [adds, nothing, Layout.below_nil]
    rfl
  | cons token more =>
    by_cases no_line : taken = 0 ∨ later.lines = []
    · -- The notes of the row come first, and the first of them is a comment and the only one.
      have alone := fun count => Layout.upTo_below no_line [] count
      simp only [Layout.below_nil, List.nil_append] at alone
      rw [Layout.upTo_below no_line] at comments some_item ⊢
      cases count with
      | zero => exact absurd rfl some_item
      | succ count =>
        rw [notesFrom, tokens] at comments some_item ⊢
        have comment := comments _ List.mem_cons_self
        rw [← List.append_nil row] at ends
        obtain ⟨rfl, _, solid⟩ := tokensFrom_of_commentEnds ends plain tokens comment
        by_cases last : later.upTo taken count = ⟨[], []⟩
        · -- Nothing follows, so the row itself is the last one.
          rw [alone, Layout.mk.injEq] at last
          refine ⟨[], row, [], rest, by simp, ?_, solid, by simp, ?_⟩
          · rintro rfl
            cases tokens
          · rw [List.nil_append, adds, notesFrom, tokens]
            simp [layoutFrom, Layout.below, last.2]
        · have stops := inner taken count ?_ last
          · rw [alone] at stops
            exact stops.cons (f := (Layout.below · [⟨token, indentation row⟩])) fun below => by
              rw [adds, notesFrom, tokens]
              rfl
          · rw [alone]
            exact fun note member => comments note (List.mem_cons_of_mem _ member)
    · obtain ⟨positive, some_line⟩ := not_or.mp no_line
      obtain ⟨taken, rfl⟩ := Nat.exists_eq_succ_of_ne_zero positive
      rw [Layout.upTo_below_succ some_line] at comments some_item ⊢
      refine (inner _ count ?_ ?_).cons (f := (Layout.below · _)) fun below => adds below
      · obtain ⟨lines, behind⟩ := later
        cases lines with
        | nil => exact absurd rfl some_line
        | cons line lines => exact comments
      · intro empty
        exact some_line ((List.take_eq_nil_iff.mp (congrArg Layout.lines empty)).resolve_left
          (Nat.succ_ne_zero taken))

/-- Rows with a row with code above them stop anywhere when they do by themselves. -/
theorem StopsAnywhere.split {lead core trail : List Piece}
    (inner : StopsAnywhere (mark.pass (textOf (row ++ [feed]))) rest later)
    (split : Split row lead core trail) (ends : CommentEnds row) :
    StopsAnywhere mark (row :: rest) ⟨lineOf mark lead core :: later.lines, later.notes⟩ := by
  intro taken count comments some_item
  have adds := split.layoutFrom_eq mark
  cases taken with
  | zero =>
    -- Only joins may stand in front of the code, and no line at all is taken.
    exfalso
    cases tokens : tokensFrom mark lead with
    | nil =>
      refine some_item ?_
      simp [Layout.upTo, notesBehind, lineOf, notesFrom, tokens]
    | cons token more =>
      cases count with
      | zero => exact some_item rfl
      | succ count =>
        have comment := comments ⟨token, indentation lead⟩ (by
          simp [Layout.upTo, notesBehind, lineOf, notesFrom, tokens])
        rw [split.whole] at ends
        obtain ⟨_, nothing, _⟩ := tokensFrom_of_commentEnds ends split.lead tokens comment
        obtain ⟨first, others, rfl, _⟩ := split.starts
        cases nothing
  | succ taken =>
    by_cases last : later.upTo taken count = ⟨[], []⟩
    · -- Nothing follows, so the row itself is the last one.
      refine ⟨[], lead ++ core, trail, rest, by simp [split.whole], ?_, ?_, split.trail, ?_⟩
      · simp [split.core_ne_nil]
      · exact split.ends.append split.core_ne_nil lead
      · rw [Layout.upTo, Layout.mk.injEq] at last
        rw [List.nil_append, split.withoutTrail.layoutFrom_eq, Layout.upTo, List.take_succ_cons,
          List.drop_succ_cons, last.1, last.2]
        rfl
    · exact (inner taken count comments last).cons
        (f := fun below => ⟨lineOf mark lead core :: below.lines, below.notes⟩) adds

end

/-- Rows stop anywhere. -/
theorem stopsAnywhere_layoutFrom {rows : List (List Piece)} (ends : ∀ row ∈ rows, CommentEnds row)
    (mark : Mark) : StopsAnywhere mark rows (layoutFrom mark rows) := by
  induction rows generalizing mark with
  | nil =>
    intro taken count _ some_item
    refine absurd ?_ some_item
    simp [layoutFrom, Layout.upTo, notesBehind]
  | cons row rest ih =>
    have here := ends row List.mem_cons_self
    have inner := fun mark => ih (fun other member => ends other (List.mem_cons_of_mem row member)) mark
    rcases plain_or_split row with plain | ⟨lead, core, trail, split⟩
    · rw [layoutFrom_plain plain]
      exact (inner _).plain plain here
    · rw [split.layoutFrom_eq]
      exact (inner _).split split here

/-- The last of some pieces ends where all of them end. -/
theorem getLast?_tokensFrom {found : List Piece} (some_piece : found ≠ []) (solid : EndsSolid found)
    (mark : Mark) :
    (tokensFrom mark found).getLast?.map Token.stop = some (mark.pass (textOf found)) := by
  induction found generalizing mark with
  | nil => exact absurd rfl some_piece
  | cons piece rest ih =>
    rw [textOf_cons, Mark.pass_append]
    cases rest with
    | nil =>
      have last := solid piece rfl
      obtain ⟨part, text⟩ := piece
      cases part with
      | token symbol => rfl
      | _ => cases last
    | cons next later =>
      have inner := ih (List.cons_ne_nil next later) solid.of_cons (mark.pass piece.text)
      rw [tokensFrom]
      split
      · rw [List.getLast?_cons]
        cases last : (tokensFrom (mark.pass piece.text) (next :: later)).getLast? with
        | none =>
          rw [last] at inner
          cases inner
        | some token =>
          rw [last] at inner
          exact inner
      · exact inner

/-- The layout of rows that end with a solid token ends where the rows end. -/
theorem stop?_layoutFrom {front : List (List Piece)} {kept : List Piece} (some_piece : kept ≠ [])
    (solid : EndsSolid kept) (mark : Mark) :
    (layoutFrom mark (front ++ [kept])).stop? =
      some (mark.pass (textOf (joinRows (front ++ [kept])))) := by
  induction front generalizing mark with
  | nil =>
    rw [List.nil_append, joinRows, List.flatMap_nil, List.append_nil]
    rcases plain_or_split kept with plain | ⟨lead, core, trail, split⟩
    · have last := getLast?_tokensFrom some_piece solid mark
      obtain ⟨token, isLast, stop⟩ := Option.map_eq_some_iff.mp last
      rw [layoutFrom_plain plain, ← stop]
      simp [Layout.stop?, Layout.below, layoutFrom, notesFrom, isLast]
    · obtain rfl := split.trail_eq_nil solid
      have last := getLast?_tokensFrom split.core_ne_nil split.ends (mark.pass (textOf lead))
      rw [← Mark.pass_append, ← textOf_append] at last
      rw [split.layoutFrom_eq, split.whole, List.append_nil, ← last]
      obtain ⟨token, isLast, stop⟩ := Option.map_eq_some_iff.mp last
      simp [Layout.stop?, layoutFrom, lineOf, Line.stop, isLast]
  | cons row rest ih =>
    have text : joinRows (row :: rest ++ [kept]) = row ++ [feed] ++ joinRows (rest ++ [kept]) := by
      cases rest <;> simp [joinRows]
    have inner := ih (mark.pass (textOf (row ++ [feed])))
    rw [text, textOf_append, Mark.pass_append, ← inner, List.cons_append]
    rcases plain_or_split row with plain | ⟨lead, core, trail, split⟩
    · rw [layoutFrom_plain plain, inner]
      exact Layout.stop?_below inner _
    · rw [split.layoutFrom_eq, inner]
      exact Layout.stop?_cons inner _

end SourceOutline.Python
