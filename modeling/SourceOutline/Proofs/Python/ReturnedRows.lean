import SourceOutline.Proofs.Python.Returns
import SourceOutline.Proofs.Python.Stretch

/-! A source with carriage returns at its line ends has the same lines, at places that correspond. -/

namespace SourceOutline.Python

open Text

/-- What has been cut off of the copy beyond the copy of the text. -/
def Phase.surplus : Phase → List Char
  | .ahead => ['\r']
  | .level | .finished => []

namespace Copies

variable {start phase : Phase} {piece : Piece} {chunk : List Piece}

/-- The pieces of the copy of a piece make up its text with carriage returns. -/
theorem textOf_eq (copies : Copies start piece chunk phase) :
    start.surplus ++ textOf chunk = withReturns piece.text ++ phase.surplus := by
  cases copies with
  | whole inside silent single => simp [textOf, Phase.surplus]
  | feed breaks => rfl
  | late breaks => rfl
  | @comment word single | @last word single =>
    have same : withReturns ('#' :: word) = '#' :: word := withReturns_of_not_mem (by simpa using single)
    simp [textOf, Phase.surplus, same]

/-- Code is copied as one piece. -/
theorem of_isCode (copies : Copies start piece chunk phase) (code : piece.isCode = true) :
    start = .level ∧ phase = .level ∧ chunk = [⟨piece.part, withReturns piece.text⟩] := by
  cases copies with
  | whole inside silent single => exact ⟨rfl, rfl, rfl⟩
  | @feed part breaks | @late part breaks => cases part <;> first | cases code | cases breaks
  | comment single | last single => cases code

/-- What is no code has no code in its copy. -/
theorem isCode_eq_false (copies : Copies start piece chunk phase) (other : piece.isCode = false) :
    ∀ copy ∈ chunk, copy.isCode = false := by
  cases copies with
  | whole inside silent single => simpa [Piece.isCode] using other
  | @feed part breaks | @late part breaks => cases part <;> simp_all [Piece.isCode, Part.ofReturn, Part.breaks]
  | comment single | last single => simp [Piece.isCode, Symbol.isTrivia]

/-- What is not solid has nothing solid in its copy. -/
theorem isSolid_eq_false (copies : Copies start piece chunk phase) (loose : piece.isSolid = false) :
    ∀ copy ∈ chunk, copy.isSolid = false := by
  cases copies with
  | whole inside silent single => simpa [Piece.isSolid] using loose
  | @feed part breaks | @late part breaks => cases part <;> simp_all [Piece.isSolid, Part.ofReturn, Part.breaks]
  | comment single | last single => cases loose

/-- The copy of what is solid is solid. -/
theorem exists_solid (copies : Copies start piece chunk phase) (solid : piece.isSolid = true) :
    ∃ copy, chunk = [copy] ∧ copy.isSolid = true := by
  cases copies with
  | whole inside silent single => exact ⟨_, rfl, solid⟩
  | @feed part breaks | @late part breaks => cases part <;> first | cases solid | cases breaks
  | comment single | last single => exact ⟨_, rfl, rfl⟩

/-- A string literal follows in the copy where one follows. -/
theorem stringFollows_eq (copies : Copies start piece chunk phase) {found others : List Piece}
    (same : stringFollows others = stringFollows found) :
    stringFollows (chunk ++ others) = stringFollows (piece :: found) := by
  cases copies with
  | @whole piece inside silent single =>
    obtain ⟨part, text⟩ := piece
    simp only [List.singleton_append, stringFollows, same]
  | @feed part breaks | @late part breaks =>
    cases part <;> simp_all [stringFollows, Part.ofReturn, Part.breaks]
  | comment single | last single => rfl

/-- Joins that are passed over in a text are passed over in its copy. -/
theorem hushed (copies : Copies start piece chunk phase) {found others : List Piece}
    (same : stringFollows others = stringFollows found) :
    ∃ chunk' piece', hushJoins (chunk ++ others) = chunk' ++ hushJoins others ∧
      hushJoins (piece :: found) = piece' :: hushJoins found ∧ Copies start piece' chunk' phase := by
  cases copies with
  | @whole piece inside silent single =>
    by_cases hush : piece.part = .token .lineJoin ∧ stringFollows found = true
    · refine ⟨[⟨.silent, withReturns piece.text⟩], { piece with part := .silent }, ?_, ?_, ?_⟩
      · simp [hushJoins, hush.1, same, hush.2]
      · simp [hushJoins, hush.1, hush.2]
      · exact .whole (by simp) (by simp) (by simp)
    · refine ⟨_, piece, ?_, ?_, .whole inside silent single⟩
      · simp only [List.singleton_append, hushJoins, same, hush, if_false]
      · simp only [hushJoins, hush, if_false]
  | @feed part breaks =>
    refine ⟨_, _, ?_, ?_, .feed breaks⟩ <;> cases part <;>
      simp_all [hushJoins, Part.ofReturn, Part.breaks]
  | @late part breaks =>
    refine ⟨_, _, ?_, ?_, .late breaks⟩ <;> cases part <;> simp_all [hushJoins, Part.breaks]
  | comment single => exact ⟨_, _, by simp [hushJoins], by simp [hushJoins], .comment single⟩
  | last single => exact ⟨_, _, by simp [hushJoins], by simp [hushJoins], .last single⟩

/-- Within a row the copy stays within a row. -/
theorem ne_lineFeed (copies : Copies start piece chunk phase) (inside : piece.part ≠ .lineFeed) :
    ∀ copy ∈ chunk, copy.part ≠ .lineFeed := by
  cases copies with
  | whole => simpa using inside
  | @feed part breaks | @late part breaks => cases part <;> simp_all [Part.ofReturn, Part.breaks]
  | comment single | last single => simp

end Copies

namespace Returned

variable {start final : Phase} {found others : List Piece}

/-- The pieces of the copy make up the copy of the text. -/
theorem textOf_eq (returned : Returned start found others final) :
    start.surplus ++ textOf others = withReturns (textOf found) ++ final.surplus := by
  induction returned with
  | @done phase => simp [textOf]
  | piece copies behind ih =>
    rw [textOf_append, ← List.append_assoc, copies.textOf_eq, List.append_assoc, ih, textOf_cons,
      withReturns_append, List.append_assoc]

/-- Pieces one after the other have copies one after the other. -/
theorem append {front back : List Piece} (returned : Returned start (front ++ back) others final) :
    ∃ copied rest phase, others = copied ++ rest ∧ Returned start front copied phase ∧
      Returned phase back rest final := by
  induction front generalizing start others with
  | nil => exact ⟨[], others, start, rfl, .done, returned⟩
  | cons piece more ih =>
    cases returned with
    | piece copies behind =>
      obtain ⟨copied, rest, phase, rfl, inner, later⟩ := ih behind
      exact ⟨_, rest, phase, (List.append_assoc _ _ _).symm, .piece copies inner, later⟩

/-- Where no code is, the copy has none. -/
theorem forall_isCode (returned : Returned start found others final)
    (other : ∀ piece ∈ found, piece.isCode = false) : ∀ piece ∈ others, piece.isCode = false := by
  induction returned with
  | done => exact other
  | piece copies behind ih =>
    intro piece member
    rcases List.mem_append.mp member with here | later
    · exact copies.isCode_eq_false (other _ List.mem_cons_self) piece here
    · exact ih (fun piece inside => other piece (List.mem_cons_of_mem _ inside)) piece later

/-- Where nothing is solid, nothing of the copy is. -/
theorem forall_isSolid (returned : Returned start found others final)
    (loose : ∀ piece ∈ found, piece.isSolid = false) : ∀ piece ∈ others, piece.isSolid = false := by
  induction returned with
  | done => exact loose
  | piece copies behind ih =>
    intro piece member
    rcases List.mem_append.mp member with here | later
    · exact copies.isSolid_eq_false (loose _ List.mem_cons_self) piece here
    · exact ih (fun piece inside => loose piece (List.mem_cons_of_mem _ inside)) piece later

/-- Pieces that end with a solid one have a copy that does. -/
theorem endsSolid (returned : Returned start found others final) (ends : EndsSolid found) :
    EndsSolid others ∧ (found ≠ [] → others ≠ []) := by
  induction returned with
  | done => exact ⟨ends, id⟩
  | @piece _ _ _ piece chunk found others copies behind ih =>
    obtain ⟨inner, some_piece⟩ := ih ends.of_cons
    cases found with
    | nil =>
      cases behind
      obtain ⟨copy, rfl, solid⟩ := copies.exists_solid (ends piece rfl)
      refine ⟨fun last isLast => ?_, by simp⟩
      cases isLast
      exact solid
    | cons next more =>
      have some_copy := some_piece (List.cons_ne_nil next more)
      exact ⟨inner.append some_copy chunk, fun _ => by simp [some_copy]⟩

/-- A string literal follows in the copy where one follows. -/
theorem stringFollows_eq (returned : Returned start found others final) :
    stringFollows others = stringFollows found := by
  induction returned with
  | done => rfl
  | piece copies behind ih => exact copies.stringFollows_eq ih

/-- Joins that are passed over in a text are passed over in its copy. -/
theorem hushed (returned : Returned start found others final) :
    Returned start (hushJoins found) (hushJoins others) final := by
  induction returned with
  | done => exact .done
  | piece copies behind ih =>
    obtain ⟨chunk, piece, same, same', hushed⟩ := copies.hushed behind.stringFollows_eq
    rw [same, same']
    exact .piece hushed ih

/-- Behind a comment that has taken a carriage return in there is a line feed, unless the pieces end. -/
theorem of_ahead (returned : Returned .ahead found others final) :
    found = [] ∧ final = .ahead ∨ ∃ part more, found = ⟨part, ['\n']⟩ :: more := by
  cases returned with
  | done => exact .inl ⟨rfl, rfl⟩
  | piece copies behind =>
    cases copies with
    | late breaks => exact .inr ⟨_, _, rfl⟩

end Returned

/-- A carriage return in front of the line feed that ends a row. -/
def carriage : Piece := ⟨.blank, ['\r']⟩

/-- A row of a text and that of its copy, given whether a line feed ends the row. -/
inductive RowReturned (start : Phase) : Bool → List Piece → List Piece → Prop where
  /-- The carriage return stands at the end. -/
  | level {row others : List Piece} (returned : Returned start row others .level) :
    RowReturned start true row (others ++ [carriage])
  /-- The carriage return belongs to a comment. -/
  | ahead {row others : List Piece} (returned : Returned start row others .ahead) :
    RowReturned start true row others
  /-- Nothing follows. -/
  | last {row others : List Piece} {final : Phase} (returned : Returned start row others final)
    (settled : final ≠ .ahead) : RowReturned start false row others

/-- The rows of a text and those of its copy. -/
inductive RowsReturned : Phase → List (List Piece) → List (List Piece) → Prop where
  /-- No line feed ends the last row. -/
  | last {start : Phase} {row row' : List Piece} (returned : RowReturned start false row row') :
    RowsReturned start [row] [row']
  /-- A line feed ends any other row. -/
  | cons {start : Phase} {row row' : List Piece} {rows rows' : List (List Piece)}
    (returned : RowReturned start true row row') (below : RowsReturned .level rows rows') :
    RowsReturned start (row :: rows) (row' :: rows')

/-- One more piece at the start of a row. -/
theorem RowReturned.cons {start phase : Phase} {piece : Piece} {chunk row row' : List Piece} {fed : Bool}
    (returned : RowReturned phase fed row row') (copies : Copies start piece chunk phase) :
    RowReturned start fed (piece :: row) (chunk ++ row') := by
  cases returned with
  | level returned =>
    rw [← List.append_assoc]
    exact .level (.piece copies returned)
  | ahead returned => exact .ahead (.piece copies returned)
  | last returned settled => exact .last (.piece copies returned) settled

/-- One more piece at the start of the first row. -/
theorem RowsReturned.cons_piece {start phase : Phase} {piece : Piece} {chunk row row' : List Piece}
    {rows rows' : List (List Piece)} (returned : RowsReturned phase (row :: rows) (row' :: rows'))
    (copies : Copies start piece chunk phase) :
    RowsReturned start ((piece :: row) :: rows) ((chunk ++ row') :: rows') := by
  cases returned with
  | last returned => exact .last (returned.cons copies)
  | cons returned below => exact .cons (returned.cons copies) below

/-- Pieces within a row stand at the start of the first row. -/
theorem rowsBetween_append {front back row : List Piece} {rows : List (List Piece)}
    (inside : ∀ piece ∈ front, piece.part ≠ .lineFeed) (between : rowsBetween back = row :: rows) :
    rowsBetween (front ++ back) = (front ++ row) :: rows := by
  induction front with
  | nil => exact between
  | cons piece rest ih =>
    exact rowsBetween_cons (inside piece List.mem_cons_self)
      (ih fun other member => inside other (List.mem_cons_of_mem piece member))

/-- The copy of a text has the copies of its rows. -/
theorem Returned.rowsBetween {start final : Phase} {found others : List Piece}
    (returned : Returned start found others final) (settled : final ≠ .ahead) :
    RowsReturned start (Python.rowsBetween found) (Python.rowsBetween others) := by
  induction returned with
  | done => exact .last (.last .done settled)
  | @piece start phase final piece chunk found others copies behind ih =>
    have later := ih settled
    by_cases ends : piece.part = .lineFeed
    · cases copies with
      | whole inside => exact absurd ends inside
      | feed =>
        cases ends
        exact .cons (.level .done) later
      | late =>
        cases ends
        exact .cons (.ahead .done) later
      | comment | last => cases ends
    · obtain ⟨row, rows, between⟩ := List.exists_cons_of_ne_nil (rowsBetween_ne_nil found)
      obtain ⟨row', rows', between'⟩ := List.exists_cons_of_ne_nil (rowsBetween_ne_nil others)
      rw [rowsBetween_cons ends between, rowsBetween_append (copies.ne_lineFeed ends) between']
      rw [between, between'] at later
      exact later.cons_piece copies

/-- The copy of a row holds the copies of its pieces, and maybe a carriage return behind them. -/
theorem RowReturned.exists_returned {start : Phase} {fed : Bool} {row row' : List Piece}
    (returned : RowReturned start fed row row') :
    ∃ others final back, row' = others ++ back ∧ Returned start row others final ∧
      (final = .ahead → fed = true) ∧ ∀ piece ∈ back, piece.isCode = false ∧ piece.isSolid = false := by
  cases returned with
  | level returned =>
    exact ⟨_, _, [carriage], rfl, returned, by simp, by simp [carriage, Piece.isCode, Piece.isSolid]⟩
  | ahead returned => exact ⟨_, _, [], by simp, returned, by simp, by simp⟩
  | last returned settled => exact ⟨_, _, [], by simp, returned, by simp [settled], by simp⟩

/-- The copy of a row is split like the row; a line feed stands behind the core when the core has taken
a carriage return in. -/
theorem Split.returned {fed : Bool} {row row' lead core trail : List Piece}
    (split : Split row lead core trail) (returned : RowReturned .level fed row row') :
    ∃ lead' core' trail' phase, Split row' lead' core' trail' ∧ Returned .level lead lead' .level ∧
      Returned .level core core' phase ∧
      (phase = .ahead → trail = [] ∧ fed = true ∨ ∃ part more, trail = ⟨part, ['\n']⟩ :: more) := by
  obtain ⟨others, final, back, rfl, copied, ends, other⟩ := returned.exists_returned
  rw [split.whole] at copied
  obtain ⟨lead', rest', middle, rfl, front, copied⟩ := copied.append
  obtain ⟨core', trail', phase, rfl, code, behind⟩ := copied.append
  obtain ⟨solid, some_piece⟩ := code.endsSolid split.ends
  obtain ⟨first, rest, rfl, isCode⟩ := split.starts
  cases code with
  | piece copies later =>
    obtain ⟨rfl, rfl, rfl⟩ := copies.of_isCode isCode
    have again : (Piece.mk first.part (withReturns first.text)).isCode = true := isCode
    refine ⟨lead', _, trail' ++ back, phase, ⟨by simp, ?_, ⟨_, _, rfl, again⟩, solid, ?_⟩, front,
      .piece copies later, ?_⟩
    · exact front.forall_isCode split.lead
    · intro piece member
      rcases List.mem_append.mp member with here | added
      · exact behind.forall_isSolid split.trail piece here
      · exact (other piece added).2
    · rintro rfl
      exact behind.of_ahead.imp_left fun both => ⟨both.1, ends both.2⟩

/-- A place of a source, and the place of its copy; in front of a line feed the carriage return of a
comment may have been passed. -/
inductive Copied (source : List Char) : Mark → Mark → Prop where
  /-- The same text has been passed. -/
  | level {seen : List Char} (within : seen <+: source) :
    Copied source (Mark.pass {} seen) (Mark.pass {} (withReturns seen))
  /-- A comment with its carriage return has been passed as well. -/
  | ahead {seen word : List Char} (within : seen ++ '#' :: (word ++ ['\n']) <+: source)
    (single : '\n' ∉ word) :
    Copied source (Mark.pass {} (seen ++ '#' :: word))
      (Mark.pass {} (withReturns (seen ++ '#' :: word) ++ ['\r']))

/-- The tokens of the copy are found at corresponding places. -/
theorem Returned.tokensFrom_alike {start final : Phase} {source seen : List Char} {found others : List Piece}
    (returned : Returned start found others final) (within : seen ++ textOf found <+: source)
    (fed : final = .ahead → seen ++ textOf found ++ ['\n'] <+: source) :
    List.Forall₂ (Token.Alike (Copied source)) (tokensFrom (Mark.pass {} seen) found)
      (tokensFrom (Mark.pass {} (withReturns seen ++ start.surplus)) others) := by
  induction returned generalizing seen with
  | done => exact .nil
  | @piece start phase final piece chunk found others copies behind ih =>
    have later := @ih (seen ++ piece.text) (by simpa using within) (by simpa using fed)
    have past : seen ++ piece.text <+: source := by
      rw [textOf_cons, ← List.append_assoc] at within
      exact (List.prefix_append _ _).trans within
    have before : seen <+: source := (List.prefix_append _ _).trans past
    rw [Mark.pass_append] at later
    cases copies with
    | whole inside silent single =>
      obtain ⟨part, text⟩ := piece
      rw [withReturns_append, Phase.surplus, List.append_nil, Mark.pass_append] at later
      rw [Phase.surplus, List.append_nil]
      cases part with
      | token symbol =>
        refine .cons ⟨rfl, .level before, ?_⟩ later
        have stop := Copied.level past
        rwa [withReturns_append, Mark.pass_append, Mark.pass_append] at stop
      | _ => exact later
    | @feed part breaks =>
      rw [withReturns_append, Phase.surplus, List.append_nil, Mark.pass_append] at later
      rw [Phase.surplus, List.append_nil]
      cases part with
      | token | blank => cases breaks
      | _ => exact later
    | @comment word single =>
      have same : withReturns ('#' :: word) = '#' :: word := withReturns_of_not_mem (by simpa using single)
      -- A line feed must follow the comment.
      have further : seen ++ '#' :: (word ++ ['\n']) <+: source := by
        rcases behind.of_ahead with ⟨rfl, rfl⟩ | ⟨part, more, rfl⟩
        · simpa [textOf] using fed rfl
        · refine List.IsPrefix.trans ⟨textOf more, ?_⟩ within
          simp
      have stop := Copied.ahead further single
      rw [withReturns_append, same, List.append_assoc, Mark.pass_append, Mark.pass_append] at stop
      rw [withReturns_append, same, Phase.surplus, List.append_assoc, Mark.pass_append] at later
      rw [Phase.surplus, List.append_nil]
      exact .cons ⟨rfl, .level before, stop⟩ later
    | @late part breaks =>
      rw [withReturns_append, Phase.surplus, List.append_nil] at later
      rw [Phase.surplus, Mark.pass_append]
      cases part with
      | token | blank => cases breaks
      | _ =>
        simp only [withReturns_feed, withReturns_nil, Mark.pass_append] at later
        exact later
    | @last word single =>
      have same : withReturns ('#' :: word) = '#' :: word := withReturns_of_not_mem (by simpa using single)
      have stop := Copied.level past
      rw [withReturns_append, same, Mark.pass_append, Mark.pass_append] at stop
      rw [withReturns_append, same, Phase.surplus, List.append_nil, Mark.pass_append] at later
      rw [Phase.surplus, List.append_nil]
      exact .cons ⟨rfl, .level before, stop⟩ later

/-- The copy of a row without code has none. -/
theorem RowReturned.forall_isCode {start : Phase} {fed : Bool} {row row' : List Piece}
    (returned : RowReturned start fed row row') (plain : ∀ piece ∈ row, piece.isCode = false) :
    ∀ piece ∈ row', piece.isCode = false := by
  obtain ⟨others, final, back, rfl, copied, _, other⟩ := returned.exists_returned
  intro piece member
  rcases List.mem_append.mp member with here | added
  · exact copied.forall_isCode plain piece here
  · exact (other piece added).1

/-- A token is one of the pieces, between the places before and behind it. -/
theorem exists_of_mem_tokensFrom {found : List Piece} {mark : Mark} {token : Token}
    (member : token ∈ tokensFrom mark found) :
    ∃ front piece back, found = front ++ piece :: back ∧ piece.part = .token token.symbol ∧
      token.start = mark.pass (textOf front) ∧ token.stop = token.start.pass piece.text := by
  induction found generalizing mark with
  | nil => cases member
  | cons piece rest ih =>
    rw [tokensFrom] at member
    have later : token ∈ tokensFrom (mark.pass piece.text) rest →
        ∃ front other back, piece :: rest = front ++ other :: back ∧ other.part = .token token.symbol ∧
          token.start = mark.pass (textOf front) ∧ token.stop = token.start.pass other.text := fun inside => by
      obtain ⟨front, other, back, rfl, part, starts, stops⟩ := ih inside
      exact ⟨piece :: front, other, back, rfl, part, by rw [starts, textOf_cons, Mark.pass_append], stops⟩
    split at member
    · rename_i symbol part
      rcases List.mem_cons.mp member with rfl | inside
      · exact ⟨[], piece, rest, rfl, part, rfl, rfl⟩
      · exact later inside
    · exact later member

section

variable {start final : Phase} {found others : List Piece}
  (returned : Returned start found others final) (single : ∀ piece ∈ found, piece.text ≠ ['\n'])

include returned single

/-- The copy of pieces without line feeds indents as far. -/
theorem Returned.indentBehind_eq (indent : Nat) :
    others.foldl Piece.indentBehind indent = found.foldl Piece.indentBehind indent := by
  induction returned generalizing indent with
  | done => rfl
  | @piece _ _ _ piece chunk found others copies behind ih =>
    have later := ih fun other member => single other (List.mem_cons_of_mem piece member)
    rw [List.foldl_append, later, List.foldl_cons]
    congr 1
    cases copies with
    | whole inside silent plain =>
      obtain ⟨part, text⟩ := piece
      cases part with
      | blank => rw [withReturns_of_not_mem (plain rfl)]; rfl
      | _ => rfl
    | feed | late => exact absurd rfl (single _ List.mem_cons_self)
    | comment | last => rfl

/-- A row without line feeds whose copy keeps level with it holds no comment. -/
theorem Returned.ne_comment (level : final = .level) : ∀ piece ∈ found, piece.part ≠ .token .comment := by
  induction returned with
  | done => simp
  | @piece _ phase _ piece chunk found others copies behind ih =>
    have below := fun other member => single other (List.mem_cons_of_mem piece member)
    have later := ih below level
    refine List.forall_mem_cons.mpr ⟨?_, later⟩
    cases copies with
    | whole inside silent => exact silent
    | feed | late => exact absurd rfl (single _ List.mem_cons_self)
    | comment =>
      exfalso
      rcases behind.of_ahead with ⟨_, ahead⟩ | ⟨part, more, rfl⟩
      · cases ahead.symm.trans level
      · exact below _ List.mem_cons_self rfl
    | last =>
      exfalso
      cases behind with
      | done => cases level
      | piece copies => cases copies

end

/-- A piece of a row stands before its code when it belongs to a part before the code. -/
theorem Unbroken.forall_ne {front back : List Piece} (unbroken : Unbroken (front ++ back))
    (other : ∀ piece ∈ front, piece.isCode = false) : ∀ piece ∈ front, piece.text ≠ ['\n'] := by
  intro piece member
  obtain ⟨before, after, rfl⟩ := List.append_of_mem member
  refine unbroken before piece (after ++ back) (by simp) fun some_piece inside => ?_
  exact other some_piece (List.mem_append_left _ inside)

section

variable {source seen : List Char}

/-- The comments and joins in front of code are found at corresponding places. -/
theorem Returned.notesFrom_alike {lead lead' : List Piece} (returned : Returned .level lead lead' .level)
    (within : seen ++ textOf lead <+: source) (single : ∀ piece ∈ lead, piece.text ≠ ['\n']) :
    List.Forall₂ (Note.Alike (Copied source)) (notesFrom (Mark.pass {} seen) lead)
      (notesFrom (Mark.pass {} (withReturns seen)) lead') := by
  have tokens := returned.tokensFrom_alike within (by simp)
  rw [Phase.surplus, List.append_nil] at tokens
  rw [notesFrom, notesFrom, List.forall₂_map_left_iff, List.forall₂_map_right_iff]
  exact tokens.imp fun _ _ alike => ⟨alike, fun _ => returned.indentBehind_eq single 0⟩

/-- A carriage return at the end of a row is no token. -/
theorem tokensFrom_append_carriage (found : List Piece) (mark : Mark) :
    tokensFrom mark (found ++ [carriage]) = tokensFrom mark found := by
  induction found generalizing mark with
  | nil => rfl
  | cons piece rest ih => rw [List.cons_append, tokensFrom, tokensFrom, ih]

/-- The comments and joins of a row without code are found at corresponding places. -/
theorem RowReturned.notesFrom_alike {fed : Bool} {row row' : List Piece}
    (returned : RowReturned .level fed row row') (within : seen ++ textOf row <+: source)
    (further : fed = true → seen ++ textOf row ++ ['\n'] <+: source)
    (single : ∀ piece ∈ row, piece.text ≠ ['\n']) :
    List.Forall₂ (Note.Alike (Copied source)) (notesFrom (Mark.pass {} seen) row)
      (notesFrom (Mark.pass {} (withReturns seen)) row') := by
  rw [notesFrom, notesFrom, List.forall₂_map_left_iff, List.forall₂_map_right_iff]
  cases returned with
  | @level _ others copied =>
    have tokens := copied.tokensFrom_alike within (by simp)
    have bare := tokensFrom_append_carriage others (Mark.pass {} (withReturns seen))
    rw [Phase.surplus, List.append_nil] at tokens
    rw [bare]
    -- Only joins may be indented otherwise, because the row holds no comment.
    have silent : ∀ token ∈ tokensFrom (Mark.pass {} seen) row, token.symbol ≠ .comment := by
      intro token member comment
      obtain ⟨front, piece, back, rfl, part, _⟩ := exists_of_mem_tokensFrom member
      rw [comment] at part
      exact copied.ne_comment single rfl piece (List.mem_append_right front List.mem_cons_self) part
    exact ((List.forall₂_and_left _ _).mpr ⟨silent, tokens⟩).imp fun _ _ both =>
      ⟨both.2, fun comment => absurd comment both.1⟩
  | ahead copied =>
    have tokens := copied.tokensFrom_alike within fun _ => further rfl
    rw [Phase.surplus, List.append_nil] at tokens
    exact tokens.imp fun _ _ alike => ⟨alike, fun _ => copied.indentBehind_eq single 0⟩
  | last copied settled =>
    have tokens := copied.tokensFrom_alike within fun ahead => absurd ahead settled
    rw [Phase.surplus, List.append_nil] at tokens
    exact tokens.imp fun _ _ alike => ⟨alike, fun _ => copied.indentBehind_eq single 0⟩

/-- The line of a row is found at corresponding places. -/
theorem Split.lineOf_returned {row lead core trail lead' core' : List Piece} {phase : Phase}
    (split : Split row lead core trail) (front : Returned .level lead lead' .level)
    (code : Returned .level core core' phase) (within : seen ++ textOf row <+: source)
    (unbroken : Unbroken row)
    (further : phase = .ahead → seen ++ textOf (lead ++ core) ++ ['\n'] <+: source) :
    Line.Alike (Copied source) (lineOf (Mark.pass {} seen) lead core)
      (lineOf (Mark.pass {} (withReturns seen)) lead' core') := by
  rw [split.whole, textOf_append, textOf_append, ← List.append_assoc, ← List.append_assoc] at within
  rw [split.whole] at unbroken
  have single := unbroken.forall_ne split.lead
  have past := (List.prefix_append _ _).trans within
  have text := front.textOf_eq
  simp only [Phase.surplus, List.nil_append, List.append_nil] at text
  have tokens := code.tokensFrom_alike past (by simpa using further)
  rw [Phase.surplus, List.append_nil, withReturns_append, ← text, Mark.pass_append, Mark.pass_append] at tokens
  refine ⟨⟨tokens, split.tokensFrom_ne_nil _⟩,
    front.notesFrom_alike ((List.prefix_append _ _).trans past) single, ?_⟩
  exact front.indentBehind_eq single 0

/-- A row and those below it have the same lines, at places that correspond, when the rows below it
have. -/
theorem RowReturned.layoutFrom_alike {fed : Bool} {row row' : List Piece} {below below' : List (List Piece)}
    (returned : RowReturned .level fed row row') (within : seen ++ textOf row <+: source)
    (further : fed = true → seen ++ textOf row ++ ['\n'] <+: source) (unbroken : Unbroken row)
    (later : Layout.Alike (Copied source)
      (layoutFrom ((Mark.pass {} seen).pass (textOf (row ++ [feed]))) below)
      (layoutFrom ((Mark.pass {} (withReturns seen)).pass (textOf (row' ++ [feed]))) below')) :
    Layout.Alike (Copied source) (layoutFrom (Mark.pass {} seen) (row :: below))
      (layoutFrom (Mark.pass {} (withReturns seen)) (row' :: below')) := by
  rcases plain_or_split row with plain | ⟨lead, core, trail, split⟩
  · rw [layoutFrom_plain plain, layoutFrom_plain (returned.forall_isCode plain)]
    rw [← List.append_nil row] at unbroken
    exact later.below (returned.notesFrom_alike within further (unbroken.forall_ne plain))
  · obtain ⟨lead', core', trail', phase, split', front, code, behind⟩ := split.returned returned
    rw [split.layoutFrom_eq, split'.layoutFrom_eq]
    refine ⟨.cons (split.lineOf_returned front code within unbroken fun ahead => ?_) later.lines, later.notes⟩
    rcases behind ahead with ⟨rfl, rfl⟩ | ⟨part, more, rfl⟩
    · simpa [split.whole] using further rfl
    · refine List.IsPrefix.trans ⟨textOf more, ?_⟩ within
      simp [split.whole]

/-- The copy of a row and the line feed behind it make up the copy of both. -/
theorem RowReturned.textOf_eq {row row' : List Piece} (returned : RowReturned .level true row row') :
    textOf (row' ++ [feed]) = withReturns (textOf (row ++ [feed])) := by
  cases returned with
  | @level _ others copied =>
    have text : textOf others = withReturns (textOf row) ++ [] := copied.textOf_eq
    rw [List.append_nil] at text
    rw [textOf_append, textOf_append, textOf_append, text, withReturns_append, List.append_assoc]
    rfl
  | ahead copied =>
    have text : textOf row' = withReturns (textOf row) ++ ['\r'] := copied.textOf_eq
    rw [textOf_append, textOf_append, text, withReturns_append, List.append_assoc]
    rfl

/-- Rows have the same lines, at places that correspond. -/
theorem RowsReturned.layoutFrom_alike {rows rows' : List (List Piece)}
    (returned : RowsReturned .level rows rows') (unbroken : ∀ row ∈ rows, Unbroken row)
    (within : seen ++ textOf (joinRows rows) <+: source) :
    Layout.Alike (Copied source) (layoutFrom (Mark.pass {} seen) rows)
      (layoutFrom (Mark.pass {} (withReturns seen)) rows') := by
  induction rows generalizing seen rows' with
  | nil => cases returned
  | cons row rest ih =>
    have here := unbroken row List.mem_cons_self
    cases returned with
    | last returned =>
      rw [joinRows, List.flatMap_nil, List.append_nil] at within
      exact returned.layoutFrom_alike within (by simp) here ⟨.nil, .nil⟩
    | cons returned below =>
      have whole : joinRows (row :: rest) = row ++ [feed] ++ joinRows rest := by
        cases below <;> simp [joinRows]
      rw [whole, textOf_append, ← List.append_assoc] at within
      have later := ih below (fun other member => unbroken other (List.mem_cons_of_mem row member)) within
      rw [withReturns_append, ← returned.textOf_eq, Mark.pass_append, Mark.pass_append] at later
      have past := (List.prefix_append _ _).trans within
      rw [textOf_append, ← List.append_assoc] at past
      exact returned.layoutFrom_alike ((List.prefix_append _ _).trans past) (fun _ => past) here later

end

/-- The rows of a source hold no line feed before their code, also when joins are passed over. -/
theorem unbroken_rows {found : List Piece} (cuts : CutsTo [] [] found []) :
    ∀ row ∈ rowsBetween (hushJoins found), Unbroken row := by
  have whole := joinRows_rowsBetween cuts.eq_feed
  intro hushed member
  rw [rowsBetween_hushJoins] at member
  obtain ⟨row, among, rfl⟩ := List.mem_map.mp member
  obtain ⟨above, below, rows⟩ := List.append_of_mem among
  rw [← whole, rows] at cuts
  exact (cuts.row.unbroken (not_lineFeed_of_mem_rowsBetween among)).hushed (hushJoins_hushed row)

/-- The copy of a source has the same lines, at places that correspond. -/
theorem layoutOf_withReturns {source : List Char} {layout : Layout} (plain : '\r' ∉ source)
    (laid : layoutOf source = some layout) :
    ∃ layout', layoutOf (withReturns source) = some layout' ∧
      Layout.Alike (Copied source) layout layout' := by
  obtain ⟨found, cut, rfl⟩ := Option.map_eq_some_iff.mp laid
  have cuts := (cutBehind_eq_some_iff [] source found).mp cut
  obtain ⟨text, whole⟩ := cuts.cutsTo
  obtain ⟨others, final, settled, again, returned⟩ :=
    cuts.returned (fun style member => absurd member List.not_mem_nil) plain
  refine ⟨_, congrArg _ ((cutBehind_eq_some_iff [] _ others).mpr again), ?_⟩
  have rows : textOf (joinRows (rowsBetween (hushJoins found))) = source := by
    rw [rowsBetween_hushJoins, textOf_joinRows_hushJoins, joinRows_rowsBetween whole.eq_feed, text]
  exact @RowsReturned.layoutFrom_alike source [] _ _ (returned.hushed.rowsBetween settled)
    (unbroken_rows whole) ⟨[], (List.append_nil _).trans rows⟩

/-- The copy of a program is a program whose tree is the same, at places that correspond. -/
theorem parse_withReturns {source : List Char} {tree : Node} (plain : '\r' ∉ source)
    (parsed : parse source = some tree) :
    ∃ tree', parse (withReturns source) = some tree' ∧ Node.Alike (Copied source) tree tree' := by
  simp only [parse, Option.bind_eq_bind, Option.bind_eq_some_iff, Option.pure_def,
    Option.some.injEq] at parsed ⊢
  obtain ⟨layout, laid, children, found, rfl⟩ := parsed
  obtain ⟨layout', laid', alike⟩ := layoutOf_withReturns plain laid
  have tails : TailAlike (Copied source) 0 layout.notes layout'.notes :=
    fun deeper _ => takeWhile_alike alike.notes deeper
  obtain ⟨children', found', childrens⟩ := statements_alike tails alike.lines found
  refine ⟨_, ⟨layout', laid', children', found', rfl⟩, .mk (.level (List.nil_prefix)) ?_ ?_⟩
  · exact .level List.prefix_rfl
  · exact List.rel_append childrens (joins_alike alike.notes)

end SourceOutline.Python
