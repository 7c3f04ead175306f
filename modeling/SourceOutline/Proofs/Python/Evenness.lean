import SourceOutline.Proofs.Python.Openings
import SourceOutline.Proofs.Python.ShedLayout

/-! A text that stands evenly behind blanks has the same lines, less far indented, when it is shifted. -/

namespace SourceOutline.Python

open Text

/-- A place of a text that starts somewhere, and the place in the shifted text alone. -/
def Outdented (start : Mark) (width : Nat) (text : List Char) (mark mark' : Mark) : Prop :=
  ∃ seen, seen <+: text ∧ mark = start.pass seen ∧ mark' = Mark.pass {} (shifted some width 0 seen)

/-- A text starts with code, and its other rows stand behind an edge. -/
structure IsEven (edge text : List Char) : Prop where
  /-- The edge consists of blanks. -/
  blank : AllBlank edge
  /-- There are no carriage returns. -/
  plain : '\r' ∉ text
  /-- The first piece is code, and each row but the first stands behind the edge. -/
  stands : ∃ first rest, pieces text = some (first :: rest) ∧ first.isCode = true ∧
    ∀ row ∈ (rowsBetween (first :: rest)).tail, StandsBehind edge row

/-- A line starts behind a line feed, the edge and more blanks, which make up its margin, and only comments stand
above it. -/
structure Line.IsBehind (edge text : List Char) (line : Line) : Prop where
  /-- The line stands behind the edge. -/
  place : ∃ above more, AllBlank more ∧ above ++ '\n' :: (edge ++ more) <+: text ∧
    line.start = Mark.pass {} (above ++ '\n' :: (edge ++ more)) ∧ line.margin = widthOf edge + widthOf more
  /-- The notes above it are comments. -/
  comments : ∀ note ∈ line.notes, note.token.symbol = .comment

/-- More comments leave lines where they are. -/
theorem isBehind_below {edge text : List Char} {layout : Layout} {notes : List Note}
    (comments : ∀ note ∈ notes, note.token.symbol = .comment)
    (each : ∀ line ∈ layout.lines, line.IsBehind edge text) :
    ∀ line ∈ (layout.below notes).lines, line.IsBehind edge text := by
  obtain ⟨lines, behind⟩ := layout
  cases lines with
  | nil => exact each
  | cons first rest =>
    obtain ⟨here, later⟩ := List.forall_mem_cons.mp each
    exact List.forall_mem_cons.mpr ⟨⟨here.place, List.forall_mem_append.mpr ⟨comments, here.comments⟩⟩, later⟩

/-- The notes of blanks and comments are comments. -/
theorem symbol_of_mem_notesFrom {mark : Mark} {row : List Piece}
    (plain : ∀ piece ∈ row, piece.part = .blank ∨ piece.part = .token .comment) :
    ∀ note ∈ notesFrom mark row, note.token.symbol = .comment := by
  intro note member
  obtain ⟨token, among, rfl⟩ := List.mem_map.mp member
  obtain ⟨front, piece, back, rfl, part, _⟩ := exists_of_mem_tokensFrom among
  rcases plain piece (by simp) with blank | comment
  · cases blank.symm.trans part
  · exact (Part.token.inj (comment.symm.trans part)).symm

/-- The lines of rows that stand behind an edge start behind it. -/
theorem isBehind_layoutFrom {edge text above : List Char} {rows : List (List Piece)} (blank : AllBlank edge)
    (stand : StandBehind edge rows) (within : above ++ '\n' :: textOf (joinRows rows) <+: text) :
    ∀ line ∈ (layoutFrom (Mark.pass {} (above ++ ['\n'])) rows).lines, line.IsBehind edge text := by
  induction rows generalizing above with
  | nil => exact fun line member => absurd member List.not_mem_nil
  | cons row rest ih =>
    obtain ⟨first, each⟩ := List.forall_mem_cons.mp stand.each
    obtain ⟨ends, later_ends⟩ := List.forall_mem_cons.mp stand.ends
    obtain ⟨_, later_sturdy⟩ := List.forall_mem_cons.mp stand.sturdy
    have past : (Mark.pass {} (above ++ ['\n'])).pass (textOf (row ++ [feed])) =
        Mark.pass {} (above ++ '\n' :: textOf row ++ ['\n']) := by
      rw [← Mark.pass_append]
      simp [feed, textOf]
    have later : ∀ line ∈ (layoutFrom (Mark.pass {} (above ++ '\n' :: textOf row ++ ['\n'])) rest).lines,
        line.IsBehind edge text := by
      cases rest with
      | nil => exact fun line member => absurd member List.not_mem_nil
      | cons next more =>
        refine ih ⟨each, later_ends, later_sturdy⟩ ?_
        simpa [joinRows, feed, textOf] using within
    rcases plain_or_split row with others | ⟨lead, core, trail, split⟩
    · rw [layoutFrom_plain others, past]
      refine isBehind_below (symbol_of_mem_notesFrom fun piece member => ?_) later
      rcases first.of_plain blank ends others with blanks | ⟨cs, note, rfl, comment, _⟩
      · exact .inl (blanks piece member)
      · rcases List.mem_append.mp member with inside | alone
        · obtain ⟨c, _, rfl⟩ := List.mem_map.mp inside
          exact .inl rfl
        · rw [List.mem_singleton.mp alone]
          exact .inr comment
    · rw [split.layoutFrom_eq, past]
      refine List.forall_mem_cons.mpr ⟨?_, later⟩
      obtain ⟨more, further, rfl⟩ := first.of_split split ends
      refine ⟨⟨above, more, further,
        List.IsPrefix.trans ⟨textOf (core ++ trail) ++ textOf (rest.flatMap (feed :: ·)), ?_⟩ within, ?_, ?_⟩,
        symbol_of_mem_notesFrom fun piece member => ?_⟩
      · rw [joinRows, split.whole]
        simp
      · rw [split.start_lineOf, textOf_blanksOf, ← Mark.pass_append]
        simp
      · have indents := @indentation_blanksOf (edge ++ more) [] (by simp)
        rw [List.append_nil, widthOf_append further] at indents
        exact indents
      · obtain ⟨c, _, rfl⟩ := List.mem_map.mp member
        exact .inl rfl

/-- Lines and notes of which all but the first line are less far indented in another layout. -/
structure Layout.Outdents (same : Mark → Mark → Prop) (less : Nat) (layout layout' : Layout) : Prop where
  /-- There is a first line without notes above it in both layouts, and all other lines are less far indented. -/
  lines : ∃ line rest line' rest', layout.lines = line :: rest ∧ layout'.lines = line' :: rest' ∧
    line.notes = [] ∧ line'.notes = [] ∧ Line.ReadAlike same line line' ∧
    List.Forall₂ (Line.Alike same) (rest.map (Line.shallower less)) rest'
  /-- The notes behind all lines are less far indented. -/
  notes : List.Forall₂ (Note.Alike same) (layout.notes.map (Note.shallower less)) layout'.notes

/-- The lines of an even text but the first are less far indented in the shifted text. -/
theorem IsEven.layoutOf_shifted {edge text : List Char} (even : IsEven edge text) :
    ∃ layout layout', layoutOf text = some layout ∧
      layoutOf (shifted some edge.length 0 text) = some layout' ∧
      Layout.Outdents (Outdented {} edge.length text) (widthOf edge) layout layout' ∧
      ∀ line ∈ layout.lines.tail, line.IsBehind edge text := by
  obtain ⟨first, rest, cut, code, stands⟩ := even.stands
  have cuts := (cutBehind_eq_some_iff [] text _).mp cut
  obtain ⟨rfl, cutsTo⟩ := cuts.cutsTo
  have no_literal : IsQuoted [] := fun style member => absurd member List.not_mem_nil
  have sturdy := cutsTo.sturdy no_literal even.plain
  have hushed := sturdy_hushJoins sturdy
  have again := (cutBehind_eq_some_iff [] _ _).mpr (@Cuts.shed edge.length _ _ _ cuts no_literal even.plain 0)
  obtain ⟨row, later, between⟩ := List.exists_cons_of_ne_nil (rowsBetween_ne_nil (first :: rest))
  have rows := joinRows_rowsBetween cutsTo.eq_feed
  have inside := fun row member => @not_lineFeed_of_mem_rowsBetween (first :: rest) row member
  have ends := commentEnds_of_cutsTo (rows.symm ▸ cutsTo) inside
  have kept := rowsBetween_hushJoins (first :: rest)
  rw [between, List.map_cons] at kept
  have copied := @rowsBetween_shed edge.length _ hushed 0 _ _ kept
  refine ⟨_, _, by rw [layoutOf, cut]; rfl, by rw [layoutOf, pieces, again]; rfl, ?_⟩
  show Layout.Outdents _ _ (layoutFrom {} (rowsBetween (hushJoins _)))
    (layoutFrom {} (rowsBetween (hushJoins _))) ∧
      ∀ line ∈ (layoutFrom {} (rowsBetween (hushJoins _))).lines.tail, _
  rw [hushJoins_shed sturdy, copied, kept]
  -- The first row starts with code, and nothing stands before it.
  have other : first.part ≠ .token .lineJoin := by
    intro join
    simp [Piece.isCode, join, Symbol.isTrivia] at code
  have within : first.part ≠ .lineFeed := by
    intro ends
    simp [Piece.isCode, ends] at code
  obtain ⟨row', more, inner⟩ := List.exists_cons_of_ne_nil (rowsBetween_ne_nil rest)
  rw [rowsBetween_cons within inner] at between
  obtain ⟨rfl, rfl⟩ := List.cons.inj between
  rw [rowsBetween_cons within inner] at rows ends stands inside
  obtain ⟨_, later_ends⟩ := List.forall_mem_cons.mp ends
  have own : ∀ row ∈ (first :: row') :: more, ∀ piece ∈ hushJoins row, piece.Sturdy := by
    intro row member
    refine sturdy_hushJoins fun piece among => sturdy piece ?_
    obtain ⟨above, below, whole⟩ := List.append_of_mem member
    rw [← rows, whole, joinRows_append]
    simp [among]
  obtain ⟨own_first, own_later⟩ := List.forall_mem_cons.mp own
  have stand : StandBehind edge (more.map hushJoins) := by
    refine ⟨fun hushed member => ?_, fun hushed member => ?_, fun hushed member => ?_⟩ <;>
      obtain ⟨row, among, rfl⟩ := List.mem_map.mp member
    · exact (stands row among).hushed
    · exact (later_ends row among).hushed (hushJoins_hushed row)
    · exact own_later row among
  have text : textOf (joinRows (hushJoins (first :: row') :: more.map hushJoins)) = textOf (first :: rest) := by
    rw [← List.map_cons, textOf_joinRows_hushJoins, rows]
  have moves : ShiftsAlike (Outdented {} edge.length (textOf (first :: rest))) edge.length 0
      (textOf (joinRows (hushJoins (first :: row') :: more.map hushJoins))) {} {} :=
    fun seen past => ⟨seen, text ▸ past, rfl, rfl⟩
  have plain := even.plain
  rw [← text] at plain
  have starts : hushJoins (first :: row') = first :: hushJoins row' := by
    rw [hushJoins, if_neg fun both => other both.1]
  obtain ⟨lead, core, trail, split⟩ : ∃ lead core trail, Split (hushJoins (first :: row')) lead core trail :=
    exists_split ⟨first, by simp [starts], code⟩
  obtain rfl : lead = [] := by
    rw [← split.leadOf_eq, starts, leadOf, List.takeWhile_cons, code]
    rfl
  have later : Layout.Alike (Outdented {} edge.length (textOf (first :: rest)))
      ((layoutFrom (Mark.pass {} (textOf (hushJoins (first :: row') ++ [feed]))) (more.map hushJoins)).shallower
        (widthOf edge))
      (layoutFrom (Mark.pass {} (textOf (shed edge.length 0 (hushJoins (first :: row')) ++ [feed])))
        ((more.map hushJoins).map (shed edge.length edge.length))) := by
    cases more with
    | nil => exact ⟨.nil, .nil⟩
    | cons next more =>
      obtain ⟨plain, moves⟩ := moves.below plain
      exact layoutFrom_shed even.blank stand plain moves
  have copy := split.shed own_first edge.length 0
  rw [split.layoutFrom_eq, copy.layoutFrom_eq]
  refine ⟨⟨⟨_, _, _, _, rfl, rfl, rfl, rfl, ⟨?_, split.tokensFrom_ne_nil _⟩, later.lines⟩, later.notes⟩, ?_⟩
  · rw [joinRows, textOf_append, split.whole, List.nil_append, textOf_append, List.append_assoc] at moves plain
    refine tokensFrom_shed (fun piece member => own_first piece ?_) ?_ moves.front
    · rw [split.whole]
      exact List.mem_append_left trail member
    · exact fun member => plain (List.mem_append_left _ member)
  · rw [List.tail_cons, textOf_append]
    cases more with
    | nil => exact fun line member => absurd member List.not_mem_nil
    | cons next more =>
      refine isBehind_layoutFrom even.blank stand ?_
      rw [← text]
      simp [joinRows, feed, textOf]

end SourceOutline.Python
