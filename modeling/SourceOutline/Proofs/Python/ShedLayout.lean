import SourceOutline.Proofs.Python.Shallower
import SourceOutline.Proofs.Python.ShedRows

/-! A text whose rows stand behind blanks has the same lines, less far indented, when it loses the blanks. -/

namespace SourceOutline.Python

open Text

/-- Spaces and tabs alone. -/
def AllBlank (cs : List Char) : Prop := ∀ c ∈ cs, c = ' ' ∨ c = '\t'

/-- How far blanks at its start indent a line. -/
def widthOf (cs : List Char) : Nat := cs.foldl indentBehind 0

/-- Blanks as pieces. -/
def blanksOf (cs : List Char) : List Piece := cs.map fun c => ⟨.blank, [c]⟩

/-- A row that loses all blanks of an edge at once: it is blank, or it starts with the edge, more blanks and a
token, or it is a comment behind fewer blanks. -/
inductive StandsBehind (edge : List Char) : List Piece → Prop where
  /-- There is nothing on the row. -/
  | blank {row : List Piece} (blanks : ∀ piece ∈ row, piece.part = .blank) : StandsBehind edge row
  /-- The first token stands behind the edge. -/
  | deep {more : List Char} {first : Piece} {rest : List Piece} (further : AllBlank more)
    (solid : first.isSolid = true) : StandsBehind edge (blanksOf (edge ++ more) ++ first :: rest)
  /-- A comment stands behind a part of the edge. -/
  | aside {less more : List Char} {note : Piece} (whole : edge = less ++ more)
    (comment : note.part = .token .comment) : StandsBehind edge (blanksOf less ++ [note])

instance (cs : List Char) : Decidable (AllBlank cs) := List.decidableBAll _ cs

/-- Blanks indent a line one after the other. -/
theorem foldl_indentBehind {cs : List Char} (blank : AllBlank cs) (indent : Nat) :
    cs.foldl indentBehind indent = indent + widthOf cs := by
  induction cs generalizing indent with
  | nil => rfl
  | cons c rest ih =>
    obtain ⟨first, later⟩ := List.forall_mem_cons.mp blank
    have step : ∀ indent, indentBehind indent c = indent + indentBehind 0 c := by
      intro indent
      rcases first with rfl | rfl <;> simp [indentBehind]
    rw [widthOf, List.foldl_cons, List.foldl_cons, ih later, ih later, step indent]
    omega

/-- Blanks behind blanks indent a line further. -/
theorem widthOf_append {front back : List Char} (blank : AllBlank back) :
    widthOf (front ++ back) = widthOf front + widthOf back := by
  rw [widthOf, List.foldl_append, foldl_indentBehind blank]
  rfl

/-- Blanks indent a row, whatever stands behind them that is no blank. -/
theorem indentation_blanksOf (cs : List Char) {back : List Piece} (other : ∀ piece ∈ back, piece.part ≠ .blank) :
    indentation (blanksOf cs ++ back) = widthOf cs := by
  have silent : ∀ indent, back.foldl Piece.indentBehind indent = indent := by
    intro indent
    induction back with
    | nil => rfl
    | cons piece rest ih =>
      obtain ⟨first, later⟩ := List.forall_mem_cons.mp other
      have same : piece.indentBehind indent = indent := by
        unfold Piece.indentBehind
        split
        · rename_i blank
          exact absurd blank first
        · rfl
      rw [List.foldl_cons, same, ih later]
  rw [indentation, List.foldl_append, silent, blanksOf, List.foldl_map]
  rfl

/-- Blanks make up their text. -/
@[simp] theorem textOf_blanksOf (cs : List Char) : textOf (blanksOf cs) = cs := by
  induction cs with
  | nil => rfl
  | cons c rest ih => exact congrArg (c :: ·) ih

/-- Blanks are lost up to the room that is left. -/
theorem shed_blanksOf (width room : Nat) {cs : List Char} (blank : AllBlank cs) (back : List Piece) :
    shed width room (blanksOf cs ++ back) = blanksOf (cs.drop room) ++ shed width (room - cs.length) back := by
  induction cs generalizing room with
  | nil => simp [blanksOf]
  | cons c rest ih =>
    obtain ⟨first, later⟩ := List.forall_mem_cons.mp blank
    have noFeed : c ≠ '\n' := by rcases first with rfl | rfl <;> decide
    have noReturn : c ≠ '\r' := by rcases first with rfl | rfl <;> decide
    have lost : ∀ back, blanksOf (c :: rest) ++ back = ⟨.blank, [c]⟩ :: (blanksOf rest ++ back) := fun _ => rfl
    rw [lost, shed_cons, Piece.shed, roomBehind_cons, if_neg noFeed, shifted_cons]
    cases room with
    | zero =>
      have inner := ih 0 later
      simp only [List.drop_zero, Nat.zero_sub] at inner
      simp [noFeed, noReturn, shifted, roomBehind, inner, lost]
    | succ room => simp [noFeed, noReturn, shifted, roomBehind, ih room later, first]

/-- Without joins nothing is passed over. -/
theorem hushJoins_append_plain {front : List Piece} (plain : ∀ piece ∈ front, piece.part ≠ .token .lineJoin)
    (back : List Piece) : hushJoins (front ++ back) = front ++ hushJoins back := by
  induction front with
  | nil => rfl
  | cons piece rest ih =>
    obtain ⟨first, later⟩ := List.forall_mem_cons.mp plain
    rw [List.cons_append, hushJoins, if_neg fun both => first both.1, ih later, List.cons_append]

/-- Rows stand behind an edge when joins are passed over. -/
theorem StandsBehind.hushed {edge : List Char} {row : List Piece} (stands : StandsBehind edge row) :
    StandsBehind edge (hushJoins row) := by
  have blanks : ∀ cs, ∀ piece ∈ blanksOf cs, piece.part ≠ .token .lineJoin := by
    intro cs piece member
    obtain ⟨c, _, rfl⟩ := List.mem_map.mp member
    simp
  cases stands with
  | blank each =>
    have same := @hushJoins_append_plain row (fun piece member => by simp [each piece member]) []
    simp only [List.append_nil, hushJoins] at same
    exact same.symm ▸ .blank each
  | @deep more first rest further solid =>
    rw [hushJoins_append_plain (blanks _), hushJoins, if_neg]
    · exact .deep further solid
    · rintro ⟨join, _⟩
      simp [Piece.isSolid, join] at solid
  | @aside less more note whole comment =>
    rw [hushJoins_append_plain (blanks _), hushJoins, if_neg (by simp [comment])]
    exact .aside whole comment

/-- Two places correspond wherever a text is passed from the one and the shifted text from the other. -/
def ShiftsAlike (same : Mark → Mark → Prop) (width room : Nat) (text : List Char) (mark mark' : Mark) : Prop :=
  ∀ seen, seen <+: text → same (mark.pass seen) (mark'.pass (shifted some width room seen))

section

variable {same : Mark → Mark → Prop} {width room : Nat} {mark mark' : Mark}

/-- Places that correspond along a text do so along its first part. -/
theorem ShiftsAlike.front {front back : List Char} (moves : ShiftsAlike same width room (front ++ back) mark mark') :
    ShiftsAlike same width room front mark mark' :=
  fun seen within => moves seen (within.trans (List.prefix_append front back))

/-- Behind the first part of a text places correspond along what is left of it. -/
theorem ShiftsAlike.behind {front back : List Char} (plain : '\r' ∉ front)
    (moves : ShiftsAlike same width room (front ++ back) mark mark') :
    ShiftsAlike same width (roomBehind some width room front) back (mark.pass front)
      (mark'.pass (shifted some width room front)) := by
  intro seen within
  rw [← Mark.pass_append, ← Mark.pass_append, ← shifted_append_plain plain]
  exact moves (front ++ seen) ((List.prefix_append_right_inj front).mpr within)

/-- Places that correspond along a text correspond at its start. -/
theorem ShiftsAlike.here {text : List Char} (moves : ShiftsAlike same width room text mark mark') :
    same mark mark' := moves [] List.nil_prefix

/-- Behind a row and its line feed places correspond along the rows below, which lose blanks up to the width. -/
theorem ShiftsAlike.below {row next : List Piece} {more : List (List Piece)}
    (plain : '\r' ∉ textOf (joinRows (row :: next :: more)))
    (moves : ShiftsAlike same width room (textOf (joinRows (row :: next :: more))) mark mark') :
    '\r' ∉ textOf (joinRows (next :: more)) ∧ ShiftsAlike same width width (textOf (joinRows (next :: more)))
      (mark.pass (textOf (row ++ [feed]))) (mark'.pass (textOf (shed width room row ++ [feed]))) := by
  have whole : joinRows (row :: next :: more) = row ++ [feed] ++ joinRows (next :: more) := by simp [joinRows]
  rw [whole, textOf_append] at plain moves
  rw [List.mem_append, not_or] at plain
  have own : '\r' ∉ textOf row := fun member => plain.1 (by simp [member])
  have past : textOf (shed width room row ++ [feed]) = shifted some width room (textOf (row ++ [feed])) := by
    rw [textOf_append, textOf_shed own, textOf_append, shifted_append_plain own]
    simp [feed, textOf, shifted]
  have behind := moves.behind plain.1
  rw [textOf_append, roomBehind_append] at behind
  rw [past]
  exact ⟨plain.2, by simpa [feed, textOf, roomBehind] using behind⟩

/-- Pieces that are no tokens are passed with what is left of them. -/
theorem tokensFrom_pieceShed {piece : Piece} (other : ∀ symbol, piece.part ≠ .token symbol) (back : List Piece) :
    tokensFrom mark' (piece.shed width room ++ back) =
      tokensFrom (mark'.pass (shifted some width room piece.text)) back := by
  unfold Piece.shed
  split
  · rename_i empty
    rw [empty]
    rfl
  · rw [List.singleton_append, tokensFrom]
    split
    · rename_i symbol token
      exact absurd token (other symbol)
    · rfl

/-- The tokens of a shifted text are found at corresponding places. -/
theorem tokensFrom_shed {found : List Piece} (sturdy : ∀ piece ∈ found, piece.Sturdy) (plain : '\r' ∉ textOf found)
    (moves : ShiftsAlike same width room (textOf found) mark mark') :
    List.Forall₂ (Token.Alike same) (tokensFrom mark found) (tokensFrom mark' (shed width room found)) := by
  induction found generalizing mark mark' room with
  | nil => exact .nil
  | cons piece rest ih =>
    obtain ⟨first, others⟩ := List.forall_mem_cons.mp sturdy
    rw [textOf_cons] at plain moves
    rw [List.mem_append, not_or] at plain
    have behind := moves.behind plain.1
    have later := ih others plain.2 behind
    rw [shed_cons, tokensFrom]
    split
    · rename_i symbol token
      have kept : piece.shed width room = [piece] := first.shed_eq room (by simp [token])
      have text : shifted some width room piece.text = piece.text := by
        unfold Piece.shed at kept
        split at kept
        · cases kept
        · exact congrArg Piece.text (List.singleton_inj.mp kept)
      rw [text] at behind later
      rw [kept, List.singleton_append, tokensFrom, token]
      exact .cons ⟨rfl, moves.here, behind.here⟩ later
    · rename_i other
      rw [tokensFrom_pieceShed fun symbol token => other symbol token]
      exact later

end

section

variable {edge : List Char} {row : List Piece}

/-- Blanks that are lost indent a row less far, down to nothing. -/
theorem widthOf_drop {cs more : List Char} (blank : AllBlank edge) (further : AllBlank more)
    (whole : cs = edge ++ more ∨ edge = cs ++ more) : widthOf (cs.drop edge.length) = widthOf cs - widthOf edge := by
  rcases whole with rfl | rfl
  · rw [List.drop_left, widthOf_append further]
    omega
  · rw [List.drop_of_length_le (by simp), widthOf_append further]
    simp [widthOf]

/-- A solid piece that is no code is a comment. -/
theorem comment_of_isSolid {piece : Piece} (solid : piece.isSolid = true) (other : piece.isCode = false) :
    piece.part = .token .comment := by
  unfold Piece.isSolid at solid
  unfold Piece.isCode at other
  split at solid
  · rename_i symbol token
    rw [token] at other ⊢
    cases symbol <;> simp_all [Symbol.isTrivia]
  · cases solid

/-- A row without code is blank or holds a comment alone. -/
theorem StandsBehind.of_plain (stands : StandsBehind edge row) (blank : AllBlank edge) (ends : CommentEnds row)
    (plain : ∀ piece ∈ row, piece.isCode = false) :
    (∀ piece ∈ row, piece.part = .blank) ∨ ∃ cs note, row = blanksOf cs ++ [note] ∧ note.part = .token .comment ∧
      AllBlank cs ∧ widthOf (cs.drop edge.length) = widthOf cs - widthOf edge := by
  cases stands with
  | blank each => exact .inl each
  | @deep more first rest further solid =>
    have comment := comment_of_isSolid solid (plain first (by simp))
    have nothing := ends _ first rest rfl (fun piece member => plain piece (List.mem_append_left _ member)) comment
    subst nothing
    refine .inr ⟨edge ++ more, first, rfl, comment, fun c member => ?_, widthOf_drop blank further (.inl rfl)⟩
    exact (List.mem_append.mp member).elim (blank c) (further c)
  | @aside less more note whole comment =>
    have further : AllBlank more := fun c member => blank c (whole ▸ List.mem_append_right less member)
    refine .inr ⟨less, note, rfl, comment, fun c member => ?_, widthOf_drop blank further (.inr whole)⟩
    exact blank c (whole ▸ List.mem_append_left more member)

/-- The code of a row stands behind the edge and more blanks. -/
theorem StandsBehind.of_split (stands : StandsBehind edge row) {lead core trail : List Piece}
    (split : Split row lead core trail) (ends : CommentEnds row) :
    ∃ more, AllBlank more ∧ lead = blanksOf (edge ++ more) := by
  have blanks : ∀ cs, ∀ piece ∈ blanksOf cs, piece.isCode = false := by
    intro cs piece member
    obtain ⟨c, _, rfl⟩ := List.mem_map.mp member
    rfl
  obtain ⟨code, rest', rfl, isCode⟩ := split.starts
  have member : code ∈ row := by simp [split.whole]
  have impossible : (∀ piece ∈ row, piece.isCode = false) → False := fun plain => by
    rw [plain code member] at isCode
    cases isCode
  cases stands with
  | blank each => exact (impossible fun piece member => by simp [Piece.isCode, each piece member]).elim
  | @deep more first rest further solid =>
    cases starts : first.isCode with
    | true =>
      refine ⟨more, further, ?_⟩
      rw [← split.leadOf_eq, leadOf_append (blanks _), leadOf, List.takeWhile_cons, starts]
      simp
    | false =>
      have nothing := ends _ first rest rfl (blanks _) (comment_of_isSolid solid starts)
      subst nothing
      refine (impossible fun piece inside => ?_).elim
      rcases List.mem_append.mp inside with inside | last
      · exact blanks _ piece inside
      · rw [List.mem_singleton.mp last]
        exact starts
  | @aside less more note whole comment =>
    refine (impossible fun piece inside => ?_).elim
    rcases List.mem_append.mp inside with inside | last
    · exact blanks _ piece inside
    · rw [List.mem_singleton.mp last, Piece.isCode, comment]
      rfl

end

/-- A row with code is split when it is shifted. -/
theorem Split.shed {row lead core trail : List Piece} (split : Split row lead core trail)
    (sturdy : ∀ piece ∈ row, piece.Sturdy) (width room : Nat) :
    Split (Python.shed width room row) (Python.shed width room lead)
      (Python.shed width (roomBehind some width room (textOf lead)) core)
      (Python.shed width (roomBehind some width room (textOf (lead ++ core))) trail) := by
  have solid : ∀ {piece : Piece}, piece ∈ row → piece.isSolid = true →
      ∀ room, piece.shed width room = [piece] := by
    intro piece member isSolid room
    refine (sturdy piece member).shed_eq room ⟨fun part => ?_, fun part => ?_⟩ <;>
      simp [Piece.isSolid, part] at isSolid
  obtain ⟨first, rest, starts, code⟩ := split.starts
  have inside : ∀ piece ∈ core, piece ∈ row := fun piece member => by
    rw [split.whole]
    exact List.mem_append_right lead (List.mem_append_left trail member)
  refine ⟨?_, ?_, ?_, ?_, ?_⟩
  · rw [split.whole, ← List.append_assoc, shed_append, shed_append, List.append_assoc]
  · intro copy member
    obtain ⟨piece, among, same⟩ := exists_of_mem_shed member
    rw [Piece.isCode, same]
    exact split.lead piece among
  · have isSolid : first.isSolid = true := by
      cases loose : first.isSolid with
      | true => rfl
      | false => exact (isCode_of_isSolid loose).symm.trans code
    refine ⟨first, Python.shed width (roomBehind some width (roomBehind some width room (textOf lead)) first.text) rest,
      ?_, code⟩
    rw [starts, shed_cons, solid (inside first (by simp [starts])) isSolid, List.singleton_append]
  · obtain ⟨front, last, rfl⟩ := (List.eq_nil_or_concat core).resolve_left split.core_ne_nil
    rw [List.concat_eq_append] at split inside ⊢
    have isSolid := split.ends last (by simp)
    intro piece isLast
    rw [shed_append, Python.shed, solid (inside last (by simp)) isSolid] at isLast
    simp only [Python.shed, List.append_nil, List.getLast?_concat, Option.some.injEq] at isLast
    rw [← isLast]
    exact isSolid
  · intro copy member
    obtain ⟨piece, among, same⟩ := exists_of_mem_shed member
    rw [Piece.isSolid, same]
    exact split.trail piece among

/-- Rows that stand behind an edge, each of them with sturdy pieces and a comment at its end at most. -/
structure StandBehind (edge : List Char) (rows : List (List Piece)) : Prop where
  /-- Each row stands behind the edge. -/
  each : ∀ row ∈ rows, StandsBehind edge row
  /-- Comments end their rows. -/
  ends : ∀ row ∈ rows, CommentEnds row
  /-- The pieces are sturdy. -/
  sturdy : ∀ row ∈ rows, ∀ piece ∈ row, piece.Sturdy

section

variable {same : Mark → Mark → Prop} {edge : List Char} (blank : AllBlank edge)

include blank

/-- The notes of a row without code are less far indented in the shifted text. -/
theorem notesFrom_shed {row : List Piece} {mark mark' : Mark} (stands : StandsBehind edge row)
    (ends : CommentEnds row) (sturdy : ∀ piece ∈ row, piece.Sturdy) (others : ∀ piece ∈ row, piece.isCode = false)
    (plain : '\r' ∉ textOf row) (moves : ShiftsAlike same edge.length edge.length (textOf row) mark mark') :
    List.Forall₂ (Note.Alike same) ((notesFrom mark row).map (Note.shallower (widthOf edge)))
      (notesFrom mark' (shed edge.length edge.length row)) := by
  have tokens := tokensFrom_shed sturdy plain moves
  rw [notesFrom, notesFrom, List.map_map, List.forall₂_map_left_iff, List.forall₂_map_right_iff]
  rcases stands.of_plain blank ends others with each | ⟨cs, note, rfl, comment, blanks, indents⟩
  · have nothing : tokensFrom mark row = [] := by
      clear moves plain stands ends sturdy others tokens
      induction row generalizing mark with
      | nil => rfl
      | cons piece rest ih =>
        obtain ⟨first, later⟩ := List.forall_mem_cons.mp each
        rw [tokensFrom, first]
        exact ih later
    rw [nothing] at tokens ⊢
    rw [List.forall₂_nil_left_iff.mp tokens]
    exact .nil
  · have other : ∀ piece ∈ [note], piece.part ≠ .blank := by simp [comment]
    refine tokens.imp fun token token' alike => ⟨alike, fun _ => ?_⟩
    have kept : note.shed edge.length (edge.length - cs.length) = [note] :=
      (sturdy note (by simp)).shed_eq _ (by simp [comment])
    rw [shed_blanksOf _ _ blanks, shed, kept, shed, List.append_nil]
    simp only [Function.comp_apply, Note.shallower, indentation_blanksOf _ other, indents]

/-- The line of a row is less far indented in the shifted text. -/
theorem lineOf_shed {row lead core trail : List Piece} {mark mark' : Mark} (stands : StandsBehind edge row)
    (split : Split row lead core trail) (ends : CommentEnds row) (sturdy : ∀ piece ∈ row, piece.Sturdy)
    (plain : '\r' ∉ textOf row) (moves : ShiftsAlike same edge.length edge.length (textOf row) mark mark') :
    Line.Alike same ((lineOf mark lead core).shallower (widthOf edge))
      (lineOf mark' (shed edge.length edge.length lead)
        (shed edge.length (roomBehind some edge.length edge.length (textOf lead)) core)) := by
  obtain ⟨more, further, rfl⟩ := stands.of_split split ends
  have inside : ∀ piece ∈ core, piece.Sturdy := fun piece member => sturdy piece (by
    rw [split.whole]
    exact List.mem_append_right _ (List.mem_append_left trail member))
  rw [split.whole, textOf_append, textOf_append] at plain moves
  simp only [List.mem_append, not_or] at plain
  have tokens := tokensFrom_shed inside plain.2.1 (moves.behind plain.1).front
  have text := @textOf_shed edge.length _ plain.1 edge.length
  have silent : ∀ (cs : List Char) (mark : Mark), tokensFrom mark (blanksOf cs) = [] := by
    intro cs
    induction cs with
    | nil => exact fun _ => rfl
    | cons c rest ih => exact fun mark => ih (mark.pass [c])
  have blanks : AllBlank (edge ++ more) := fun c member => (List.mem_append.mp member).elim (blank c) (further c)
  have lost := shed_blanksOf edge.length edge.length blanks []
  rw [List.append_nil, List.drop_left, shed, List.append_nil] at lost
  have margin := widthOf_drop blank further (.inl (rfl : edge ++ more = edge ++ more))
  rw [List.drop_left] at margin
  have indents : ∀ cs, indentation (blanksOf cs) = widthOf cs := fun cs => by
    simpa using @indentation_blanksOf cs [] (by simp)
  rw [← text] at tokens
  refine ⟨⟨tokens, split.tokensFrom_ne_nil _⟩, ?_, ?_⟩
  · simp only [lineOf, Line.shallower, notesFrom, lost, silent]
    exact .nil
  · simp only [lineOf, Line.shallower, lost, indents, margin]

/-- The lines of rows that stand behind an edge are less far indented in the shifted text. -/
theorem layoutFrom_shed {rows : List (List Piece)} {mark mark' : Mark} (stand : StandBehind edge rows)
    (plain : '\r' ∉ textOf (joinRows rows))
    (moves : ShiftsAlike same edge.length edge.length (textOf (joinRows rows)) mark mark') :
    Layout.Alike same ((layoutFrom mark rows).shallower (widthOf edge))
      (layoutFrom mark' (rows.map (shed edge.length edge.length))) := by
  induction rows generalizing mark mark' with
  | nil => exact ⟨.nil, .nil⟩
  | cons row rest ih =>
    obtain ⟨first, each⟩ := List.forall_mem_cons.mp stand.each
    obtain ⟨ends, later_ends⟩ := List.forall_mem_cons.mp stand.ends
    obtain ⟨sturdy, later_sturdy⟩ := List.forall_mem_cons.mp stand.sturdy
    have own : '\r' ∉ textOf row := by
      rw [joinRows, textOf_append, List.mem_append, not_or] at plain
      exact plain.1
    have here : ShiftsAlike same edge.length edge.length (textOf row) mark mark' := by
      rw [joinRows, textOf_append] at moves
      exact moves.front
    have later : Layout.Alike same ((layoutFrom (mark.pass (textOf (row ++ [feed]))) rest).shallower (widthOf edge))
        (layoutFrom (mark'.pass (textOf (shed edge.length edge.length row ++ [feed])))
          (rest.map (shed edge.length edge.length))) := by
      cases rest with
      | nil => exact ⟨.nil, .nil⟩
      | cons next more =>
        obtain ⟨plain, moves⟩ := moves.below plain
        exact ih ⟨each, later_ends, later_sturdy⟩ plain moves
    rw [List.map_cons]
    rcases plain_or_split row with others | ⟨lead, core, trail, split⟩
    · have others' : ∀ piece ∈ shed edge.length edge.length row, piece.isCode = false := by
        intro copy member
        obtain ⟨piece, among, same⟩ := exists_of_mem_shed member
        rw [Piece.isCode, same]
        exact others piece among
      rw [layoutFrom_plain others, layoutFrom_plain others', Layout.shallower_below]
      exact later.below (notesFrom_shed blank first ends sturdy others own here)
    · rw [split.layoutFrom_eq, (split.shed sturdy _ _).layoutFrom_eq]
      exact ⟨.cons (lineOf_shed blank first split ends sturdy own here) later.lines, later.notes⟩

end

end SourceOutline.Python
