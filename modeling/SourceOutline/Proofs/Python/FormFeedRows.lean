import SourceOutline.Proofs.Python.Stretch

/-! A source with a form feed in front of a row has the same lines, at places that correspond. -/

namespace SourceOutline.Python

open Text

/-- What a backslash takes along in front of a line feed does not depend on what stands behind that. -/
theorem escapeLength_feed {style : StringStyle} {word tail : List Char}
    (within : escapeLength style (word ++ '\n' :: tail) ≤ word.length) (tail' : List Char) :
    escapeLength style (word ++ '\n' :: tail') = escapeLength style (word ++ '\n' :: tail) := by
  match word with
  | [] => rfl
  | [c] =>
    by_cases broken : c = '\r'
    · subst broken
      rfl
    · have plain : ∀ text : List Char, ¬(c = '\r' ∧ ('\n' :: text).head? = some '\n') := fun _ both => broken both.1
      have unnamed : ∀ text : List Char, ¬(c = 'N' ∧ ('\n' :: text).head? = some '\x7b') := by simp
      exact (escapeLength_cons style (plain tail') (unnamed tail')).trans
        (escapeLength_cons style (plain tail) (unnamed tail)).symm
  | c :: d :: rest =>
    by_cases broken : c = '\r' ∧ d = '\n'
    · obtain ⟨rfl, rfl⟩ := broken
      rfl
    by_cases opened : c = 'N' ∧ d = '\x7b'
    · obtain ⟨rfl, rfl⟩ := opened
      cases named : style.format && !style.raw with
      | false => simp [escapeLength, named]
      | true =>
        -- The name ends in front of the line feed, since its closing brace does.
        simp only [List.cons_append, escapeLength, named, if_true, List.length_cons] at within ⊢
        have own := @length_takeWhile_within (· != '\x7d') rest ('\n' :: tail) (by omega)
        have short : (rest.takeWhile (· != '\x7d')).length ≠ rest.length := by omega
        rw [own, List.takeWhile_append, if_neg short]
    · have plain : ∀ text : List Char, ¬(c = '\r' ∧ (d :: text).head? = some '\n') := fun _ both =>
        broken ⟨both.1, Option.some.inj both.2⟩
      have unnamed : ∀ text : List Char, ¬(c = 'N' ∧ (d :: text).head? = some '\x7b') := fun _ both =>
        opened ⟨both.1, Option.some.inj both.2⟩
      exact (escapeLength_cons style (plain _) (unnamed _)).trans (escapeLength_cons style (plain _) (unnamed _)).symm

/-- A backslash joins the line in front of a line feed to the next one whatever stands there. -/
theorem joinLength_feed (word tail tail' : List Char) :
    joinLength (word ++ '\n' :: tail') = joinLength (word ++ '\n' :: tail) := by
  have begins : ∀ (c d : Char) (first second : List Char),
      joinLength (c :: d :: first) = joinLength (c :: d :: second) := by
    intro c d first second
    by_cases feed : c = '\n'
    · rw [feed]
      rfl
    by_cases broken : c = '\r' ∧ d = '\n'
    · rw [broken.1, broken.2]
      rfl
    · have nothing : ∀ text, joinLength (c :: d :: text) = none := by
        intro text
        unfold joinLength
        split
        · rename_i same
          exact absurd (List.cons.inj same).1 feed
        · rename_i same
          exact absurd ⟨(List.cons.inj same).1, (List.cons.inj (List.cons.inj same).2).1⟩ broken
        · rfl
      rw [nothing, nothing]
  match word with
  | [] => rfl
  | [c] => exact begins c '\n' tail' tail
  | c :: d :: rest => exact begins c d _ _

/-- A run that stops at line feeds does not depend on what stands behind one. -/
theorem takeWhile_feed (word tail tail' : List Char) :
    (word ++ '\n' :: tail').takeWhile (· != '\n') = (word ++ '\n' :: tail).takeWhile (· != '\n') := by
  rw [List.takeWhile_append, List.takeWhile_append]
  split <;> rfl

/-- A piece in front of a line feed does not depend on what stands behind that. -/
theorem nextCut_feed {modes : List Mode} (quoted : IsQuoted modes) {c : Char} {word tail : List Char} {cut : Cut}
    (next : nextCut modes c (word ++ '\n' :: tail) = some cut) (within : cut.further ≤ word.length)
    (tail' : List Char) : nextCut modes c (word ++ '\n' :: tail') = some cut := by
  have parted : ∀ text, IsParted ('\n' :: text) := fun text => .cons (by decide) text
  unfold nextCut at next ⊢
  split at next
  · rename_i style outer
    by_cases escape : c = '\\'
    · subst escape
      cases (show some ⟨.content, escapeLength style (word ++ '\n' :: tail), _⟩ = some cut from next)
      show some (Cut.mk .content (escapeLength style (word ++ '\n' :: tail')) _) = _
      rw [escapeLength_feed within tail']
    · have own := quoted style List.mem_cons_self
      rw [textCut_parted_of_ne (parted tail') own escape]
      rwa [textCut_parted_of_ne (parted tail) own escape] at next
  · exact next
  · unfold codeCut at next ⊢
    rwa [takeWhile_feed word tail tail', joinLength_feed word tail tail', tokenCut_parted (parted tail'),
      ← tokenCut_parted (parted tail)]

/-- Pieces are cut off one after the other, as those in front and those behind. -/
theorem CutsTo.trans {tail : List Char} {modes between final : List Mode} {front back : List Piece}
    (first : CutsTo (textOf back ++ tail) modes front between) (second : CutsTo tail between back final) :
    CutsTo tail modes (front ++ back) final := by
  induction first with
  | done => exact second
  | piece next whole behind ih =>
    refine .piece ?_ whole (ih second)
    rwa [List.append_eq, textOf_append, List.append_assoc]

/-- A row with the line feed behind it is cut off alike in front of any text. -/
theorem CutsTo.row_feed {tail : List Char} {modes final : List Mode} {row : List Piece}
    (cuts : CutsTo tail modes (row ++ [feed]) final) (quoted : IsQuoted modes) (tail' : List Char) :
    CutsTo tail' modes (row ++ [feed]) [] := by
  induction row generalizing modes with
  | nil =>
    obtain ⟨-, rfl, -⟩ := cuts.of_lineFeed rfl
    exact @CutsTo.piece _ _ _ '\n' [] ⟨.lineFeed, 0, []⟩ [] rfl rfl .done
  | cons piece rest ih =>
    cases cuts with
    | @piece _ _ c word cut _ next whole behind =>
      refine .piece ?_ whole (ih behind (quoted.nextCut next))
      have text : ∀ text, word ++ (textOf (rest ++ [feed]) ++ text) = (word ++ textOf rest) ++ '\n' :: text := by
        simp [feed]
      rw [List.append_eq, text] at next ⊢
      exact nextCut_feed quoted next (by simp [whole]) tail'

/-- Rows with the line feeds behind them are cut off alike in front of any text. -/
theorem CutsTo.rows_feed {tail : List Char} {final : List Mode} {above : List (List Piece)}
    (cuts : CutsTo tail [] (above.flatMap (· ++ [feed])) final) (tail' : List Char) :
    CutsTo tail' [] (above.flatMap (· ++ [feed])) [] := by
  induction above with
  | nil => exact .done
  | cons row rest ih =>
    rw [List.flatMap_cons] at cuts ⊢
    obtain ⟨between, first, second⟩ := cuts.append
    have here := first.row_feed fun style member => absurd member List.not_mem_nil
    obtain ⟨_, _, last⟩ := (show CutsTo _ [] (row ++ [feed]) between from first).append
    obtain ⟨_, _, ended⟩ := last.of_lineFeed rfl
    cases ended
    exact (here _).trans (ih second)

/-- A row of a source starts behind a text, which consists of the rows above it: there nothing is open. -/
def StartsRow (front back : List Char) : Prop :=
  ∃ found above row below, pieces (front ++ back) = some found ∧ rowsBetween found = above ++ row :: below ∧
    textOf (above.flatMap (· ++ [feed])) = front

/-- A form feed between tokens. -/
def formFeed : Piece := ⟨.blank, ['\x0c']⟩

/-- With a form feed in front of a row a source is cut into the same rows, except that this one has one piece more. -/
theorem rowsBetween_formFeed {front back : List Char} {found row : List Piece} {above below : List (List Piece)}
    (cut : pieces (front ++ back) = some found) (rows : rowsBetween found = above ++ row :: below)
    (text : textOf (above.flatMap (· ++ [feed])) = front) :
    ∃ copy, pieces (front ++ '\x0c' :: back) = some copy ∧
      rowsBetween copy = above ++ (formFeed :: row) :: below := by
  obtain ⟨whole, cuts⟩ := ((cutBehind_eq_some_iff [] _ found).mp cut).cutsTo
  have inside := fun some_row member => @not_lineFeed_of_mem_rowsBetween found some_row member
  have joined := joinRows_rowsBetween cuts.eq_feed
  rw [rows] at joined inside
  rw [joinRows_append] at joined
  rw [← joined, textOf_append, text, List.append_cancel_left_eq] at whole
  rw [← joined] at cuts
  obtain ⟨between, first, -⟩ := cuts.append
  have fed : CutsTo [] [] (formFeed :: (row ++ below.flatMap (feed :: ·))) [] :=
    @CutsTo.piece _ _ _ '\x0c' [] ⟨.blank, 0, []⟩ _ rfl rfl cuts.of_closed
  have all := ((first.rows_feed _).trans fed).cuts rfl
  refine ⟨joinRows (above ++ (formFeed :: row) :: below), ?_, rowsBetween_joinRows (by simp) ?_⟩
  · rw [joinRows_append]
    rw [textOf_append, text, textOf_cons, whole] at all
    exact (cutBehind_eq_some_iff [] _ _).mpr all
  · rw [List.forall_mem_append, List.forall_mem_cons] at inside ⊢
    exact ⟨inside.1, List.forall_mem_cons.mpr ⟨nofun, inside.2.1⟩, inside.2.2⟩

/-- A place above the row behind a text, which is the same in the copy with a form feed there. -/
def Precedes (front : List Char) (mark mark' : Mark) : Prop :=
  mark' = mark ∧ ∃ seen rest, seen ++ rest = front ∧ '\n' ∈ rest ∧ mark = Mark.pass {} seen

/-- A place behind a text, and the one behind the form feed in the copy. -/
def Follows (front : List Char) (mark mark' : Mark) : Prop :=
  ∃ seen, mark = Mark.pass {} (front ++ seen) ∧ mark' = Mark.pass {} (front ++ '\x0c' :: seen)

/-- A place of a source, and the one in the copy with a form feed behind a text. -/
def Displaced (front : List Char) (mark mark' : Mark) : Prop := Precedes front mark mark' ∨ Follows front mark mark'

section

variable {same same' : Mark → Mark → Prop} (weaker : ∀ mark mark', same mark mark' → same' mark mark')

include weaker

/-- Tokens at places that correspond closely correspond. -/
theorem Token.Alike.mono {token token' : Token} (alike : Token.Alike same token token') :
    Token.Alike same' token token' := ⟨alike.symbol, weaker _ _ alike.starts, weaker _ _ alike.stops⟩

/-- Notes at places that correspond closely correspond. -/
theorem Note.Alike.mono {note note' : Note} (alike : Note.Alike same note note') : Note.Alike same' note note' :=
  ⟨alike.token.mono weaker, alike.indent⟩

/-- Lines at places that correspond closely correspond. -/
theorem Line.Alike.mono {line line' : Line} (alike : Line.Alike same line line') : Line.Alike same' line line' :=
  ⟨⟨alike.tokens.imp fun _ _ tokens => tokens.mono weaker, alike.some_token⟩,
    alike.notes.imp fun _ _ notes => notes.mono weaker, alike.margin⟩

end

/-- Lines at places that correspond: all of them stand above the form feed, or all behind. -/
structure Line.Displaced (front : List Char) (line line' : Line) : Prop
    extends Line.Alike (Python.Displaced front) line line' where
  /-- The tokens stand on one side. -/
  side : Line.ReadAlike (Precedes front) line line' ∨ Line.ReadAlike (Follows front) line line'

/-- Layouts whose lines and notes are at places that correspond. -/
structure Layout.Displaced (front : List Char) (layout layout' : Layout) : Prop where
  /-- The lines correspond. -/
  lines : List.Forall₂ (Line.Displaced front) layout.lines layout'.lines
  /-- The notes behind all lines correspond. -/
  notes : List.Forall₂ (Note.Alike (Python.Displaced front)) layout.notes layout'.notes

section

variable {front : List Char}

/-- More notes at places that correspond do no harm. -/
theorem Layout.Displaced.below {layout layout' : Layout} (displaced : Layout.Displaced front layout layout')
    {notes notes' : List Note} (more : List.Forall₂ (Note.Alike (Python.Displaced front)) notes notes') :
    Layout.Displaced front (layout.below notes) (layout'.below notes') := by
  obtain ⟨lines, behind⟩ := layout
  obtain ⟨lines', behind'⟩ := layout'
  obtain ⟨each, ends⟩ := displaced
  cases each with
  | nil => exact ⟨.nil, List.rel_append more ends⟩
  | cons first rest =>
    have above := List.rel_append more first.notes
    refine ⟨.cons ⟨⟨⟨first.tokens, first.some_token⟩, above, first.margin⟩, ?_⟩ rest, ends⟩
    exact first.side.imp (fun side => ⟨side.tokens, side.some_token⟩) fun side => ⟨side.tokens, side.some_token⟩

/-- A layout behind the form feed. -/
theorem Layout.Displaced.of_follows {layout layout' : Layout} (alike : Layout.Alike (Follows front) layout layout') :
    Layout.Displaced front layout layout' :=
  ⟨alike.lines.imp fun _ _ line => ⟨line.mono fun _ _ => .inr, .inr line.toReadAlike⟩,
    alike.notes.imp fun _ _ note => note.mono fun _ _ => .inr⟩

/-- The row with the form feed and the rows below it have the lines of the source. -/
theorem layoutFrom_formFeed (row : List Piece) (below : List (List Piece)) :
    Layout.Alike (Follows front) (layoutFrom (Mark.pass {} front) (row :: below))
      (layoutFrom (Mark.pass {} front) ((formFeed :: row) :: below)) := by
  have moves : ∀ text, MovesAlike (Follows front) text (Mark.pass {} front)
      ((Mark.pass {} front).pass formFeed.text) := by
    intro text seen _
    refine ⟨seen, (Mark.pass_append _ _ _).symm, ?_⟩
    rw [← Mark.pass_append, ← Mark.pass_append]
    rfl
  have passed : (Mark.pass {} front).pass (textOf (formFeed :: row ++ [feed])) =
      ((Mark.pass {} front).pass formFeed.text).pass (textOf (row ++ [feed])) := Mark.pass_append _ _ _
  have later : Layout.Alike (Follows front) (layoutFrom ((Mark.pass {} front).pass (textOf (row ++ [feed]))) below)
      (layoutFrom (((Mark.pass {} front).pass formFeed.text).pass (textOf (row ++ [feed]))) below) :=
    layoutFrom_alike (@MovesAlike.behind _ _ _ (textOf (row ++ [feed])) _ (moves _))
  -- The form feed sets the indentation back to nothing, where it starts anyway.
  have notes : ∀ lead, notesFrom (Mark.pass {} front) (formFeed :: lead) =
      notesFrom ((Mark.pass {} front).pass formFeed.text) lead := fun _ => rfl
  rcases plain_or_split row with plain | ⟨lead, core, trail, split⟩
  · rw [layoutFrom_plain plain, layoutFrom_plain (List.forall_mem_cons.mpr ⟨rfl, plain⟩), passed, notes]
    exact later.below (notesFrom_alike (moves _))
  · have fed : Split (formFeed :: row) (formFeed :: lead) core trail :=
      ⟨by rw [split.whole]; rfl, List.forall_mem_cons.mpr ⟨rfl, split.lead⟩, split.starts, split.ends, split.trail⟩
    rw [split.layoutFrom_eq, fed.layoutFrom_eq, passed]
    obtain ⟨⟨tokens, some_token⟩, above, margin⟩ := split.lineOf_alike (moves (textOf row))
    exact ⟨.cons ⟨⟨tokens, some_token⟩, above, margin⟩ later.lines, later.notes⟩

/-- The rows above the form feed have the same lines. -/
theorem layoutFrom_above {seen : List Char} {above : List (List Piece)}
    (text : seen ++ textOf (above.flatMap (· ++ [feed])) = front) (row : List Piece) (below : List (List Piece)) :
    Layout.Displaced front (layoutFrom (Mark.pass {} seen) (above ++ row :: below))
      (layoutFrom (Mark.pass {} seen) (above ++ (formFeed :: row) :: below)) := by
  induction above generalizing seen with
  | nil =>
    rw [List.flatMap_nil, textOf_nil, List.append_nil] at text
    rw [text]
    exact .of_follows (layoutFrom_formFeed row below)
  | cons first rest ih =>
    rw [List.flatMap_cons, textOf_append, ← List.append_assoc] at text
    have moves : MovesAlike (Precedes front) (textOf first) (Mark.pass {} seen) (Mark.pass {} seen) := by
      rintro part ⟨tail, own⟩
      refine ⟨rfl, seen ++ part, tail ++ '\n' :: textOf (rest.flatMap (· ++ [feed])), ?_, by simp, ?_⟩
      · rw [← text, textOf_append, ← own]
        simp [feed]
      · rw [Mark.pass_append]
    have later := ih text
    rw [Mark.pass_append] at later
    rw [List.cons_append, List.cons_append]
    rcases plain_or_split first with plain | ⟨lead, core, trail, split⟩
    · rw [layoutFrom_plain plain, layoutFrom_plain plain]
      exact later.below ((notesFrom_alike moves).imp fun _ _ note => note.mono fun _ _ => .inl)
    · rw [split.layoutFrom_eq, split.layoutFrom_eq]
      have line := split.lineOf_alike moves
      exact ⟨.cons ⟨line.mono fun _ _ => .inl, .inl line.toReadAlike⟩ later.lines, later.notes⟩

end

/-- A source with a form feed in front of a row has the lines of the source, at places that correspond. -/
theorem exists_displaced {front back : List Char} (starts : StartsRow front back) :
    ∃ layout layout', layoutOf (front ++ back) = some layout ∧ layoutOf (front ++ '\x0c' :: back) = some layout' ∧
      Layout.Displaced front layout layout' := by
  obtain ⟨found, above, row, below, cut, rows, text⟩ := starts
  obtain ⟨copy, cut', rows'⟩ := rowsBetween_formFeed cut rows text
  have hushed : textOf ((above.map hushJoins).flatMap (· ++ [feed])) = front :=
    (textOf_flatMap_hushJoins (by simp) above).trans text
  refine ⟨_, _, by rw [layoutOf, cut, Option.map_some], by rw [layoutOf, cut', Option.map_some], ?_⟩
  rw [rowsBetween_hushJoins, rowsBetween_hushJoins, rows, rows', List.map_append, List.map_append]
  exact @layoutFrom_above front [] _ hushed (hushJoins row) (below.map hushJoins)

end SourceOutline.Python
