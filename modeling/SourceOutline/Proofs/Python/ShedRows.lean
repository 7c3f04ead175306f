import SourceOutline.Proofs.Python.Margins
import SourceOutline.Proofs.Python.ReturnedRows
import SourceOutline.Proofs.Python.Shedding

/-! A text that is shifted to the left has the rows of the text, each of which loses blanks at its start. -/

namespace SourceOutline.Python

open Text

variable {width : Nat}

/-- A piece of a text without carriage returns, by what a shift may take away of it. -/
inductive Piece.Sturdy : Piece → Prop where
  /-- A token starts with a character that stays, and lies within its row. -/
  | token {symbol : Symbol} {c : Char} {rest : List Char} (other : symbol ≠ .lineJoin) (firm : ¬IsLoose c)
    (single : '\n' ∉ rest) (plain : '\r' ∉ rest) : Sturdy ⟨.token symbol, c :: rest⟩
  /-- A join, which may be passed over, is a backslash and a line feed. -/
  | join {part : Part} (joins : part = .token .lineJoin ∨ part = .silent) : Sturdy ⟨part, ['\\', '\n']⟩
  /-- A blank is a single character. -/
  | blank {c : Char} (other : c ≠ '\n') : Sturdy ⟨.blank, [c]⟩
  /-- A line feed outside literals. -/
  | feed {part : Part} (feeds : part = .lineFeed ∨ part = .silent) : Sturdy ⟨part, ['\n']⟩
  /-- Text of a literal. -/
  | content (text : List Char) : Sturdy ⟨.content, text⟩

/-- Without a carriage return the line break behind a backslash is a line feed. -/
theorem eq_feed_of_joinLength {rest behind : List Char} (joins : joinLength (rest ++ behind) = some rest.length)
    (plain : '\r' ∉ rest) : rest = ['\n'] := by
  unfold joinLength at joins
  cases rest with
  | nil => split at joins <;> cases joins
  | cons c more =>
    split at joins
    · rename_i split
      obtain ⟨rfl, _⟩ := List.cons.inj split
      rw [List.eq_nil_of_length_eq_zero (show more.length = 0 by simpa using joins.symm)]
    · rename_i split
      obtain ⟨rfl, _⟩ := List.cons.inj split
      exact absurd List.mem_cons_self plain
    · cases joins

/-- A piece outside literals is sturdy. -/
theorem sturdy_codeCut {modes : List Mode} {c : Char} {rest behind : List Char} {cut : Cut}
    (next : codeCut modes c (rest ++ behind) = some cut) (whole : cut.further = rest.length)
    (plain : '\r' ∉ rest) (loose : (Piece.mk cut.part []).isSolid = false) :
    (Piece.mk cut.part (c :: rest)).Sturdy := by
  rcases codeCut_cases next with ⟨rfl, rfl⟩ | ⟨space, rfl⟩ | ⟨rfl, rfl⟩ | ⟨rfl, join, _⟩ | code
  · obtain rfl := List.eq_nil_of_length_eq_zero whole.symm
    refine .feed ?_
    cases modes with
    | nil => exact .inl rfl
    | cons mode outer => exact .inr rfl
  · obtain rfl := List.eq_nil_of_length_eq_zero whole.symm
    refine .blank ?_
    rintro rfl
    cases space
  · cases loose
  · -- A backslash outside literals stands in front of a line break.
    rw [join]
    have joins : (joinLength (rest ++ behind)).map (fun length => Cut.mk (.token .lineJoin) length modes) =
        some cut := next
    obtain ⟨length, joins, same⟩ := Option.map_eq_some_iff.mp joins
    have count : length = rest.length := by rw [← whole, ← same]
    rw [eq_feed_of_joinLength (count ▸ joins) plain]
    exact .join (.inl rfl)
  · have impossible := isCode_of_isSolid loose
    rw [code []] at impossible
    cases impossible

/-- The pieces of a text without carriage returns are sturdy. -/
theorem CutsTo.sturdy {tail : List Char} {modes final : List Mode} {found : List Piece}
    (cuts : CutsTo tail modes found final) (quoted : IsQuoted modes) (plain : '\r' ∉ textOf found) :
    ∀ piece ∈ found, piece.Sturdy := by
  induction cuts with
  | done => simp
  | @piece modes _ c rest cut more next whole behind ih =>
    rw [textOf_cons, List.mem_append, not_or] at plain
    obtain ⟨noReturn, own⟩ := not_or.mp (mt List.mem_cons.mpr plain.1)
    refine List.forall_mem_cons.mpr ⟨?_, ih (quoted.nextCut next) plain.2⟩
    cases solid : (Piece.mk cut.part []).isSolid with
    | true =>
      obtain ⟨firm, single⟩ := nextCut_of_isSolid quoted next whole solid
      obtain ⟨noFeed, single⟩ := not_or.mp (mt List.mem_cons.mpr single)
      cases part : cut.part with
      | token symbol =>
        refine .token ?_ ?_ single own
        · rintro rfl
          rw [part] at solid
          cases solid
        · rintro (rfl | rfl | rfl | rfl)
          · exact noFeed rfl
          · exact noReturn rfl
          · cases firm
          · cases firm
      | _ => rw [part] at solid; cases solid
    | false =>
      match modes with
      | .text style :: outer =>
        rcases textCut_cases next with ⟨_, rfl⟩ | ⟨_, ⟨content, _⟩ | ⟨symbol, token, isCode, _⟩⟩
        · exact .content _
        · rw [content]
          exact .content _
        · have impossible := isCode_of_isSolid solid
          simp [Piece.isCode, token, isCode] at impossible
      | .format triple :: outer =>
        rcases part_of_inLiteral rfl next with content | ⟨symbol, token, isCode⟩
        · rw [content]
          exact .content _
        · have impossible := isCode_of_isSolid solid
          simp [Piece.isCode, token, isCode] at impossible
      | [] | .bracket _ :: _ | .field _ :: _ => exact sturdy_codeCut next whole own solid

/-- Pieces stay sturdy when joins are passed over. -/
theorem sturdy_hushJoins {found : List Piece} (sturdy : ∀ piece ∈ found, piece.Sturdy) :
    ∀ piece ∈ hushJoins found, piece.Sturdy := by
  induction found with
  | nil => exact sturdy
  | cons piece rest ih =>
    obtain ⟨first, others⟩ := List.forall_mem_cons.mp sturdy
    rw [hushJoins]
    split
    · rename_i hush
      refine List.forall_mem_cons.mpr ⟨?_, ih others⟩
      cases first with
      | token other => cases hush.1; exact absurd rfl other
      | join joins => exact .join (.inr rfl)
      | blank => cases hush.1
      | feed feeds => rcases feeds with rfl | rfl <;> cases hush.1
      | content => cases hush.1
    · exact List.forall_mem_cons.mpr ⟨first, ih others⟩

/-- Tokens and line feeds stay as they are. -/
theorem Piece.Sturdy.shed_eq {piece : Piece} (sturdy : piece.Sturdy) (room : Nat)
    (kept : piece.part ≠ .blank ∧ piece.part ≠ .content) : piece.shed width room = [piece] := by
  cases sturdy with
  | token other firm single plain => simp [Piece.shed, shifted_firm firm, (shifted_within single plain).1]
  | join joins => simp [Piece.shed, shifted]
  | blank => exact absurd rfl kept.1
  | feed feeds => simp [Piece.shed, shifted]
  | content => exact absurd rfl kept.2

/-- What is left of a piece is what it was. -/
theorem part_of_mem_pieceShed {piece copy : Piece} {room : Nat} (member : copy ∈ piece.shed width room) :
    copy.part = piece.part := by
  unfold Piece.shed at member
  split at member
  · cases member
  · rw [List.mem_singleton.mp member]

/-- What is left of pieces is what some of them were. -/
theorem exists_of_mem_shed {found : List Piece} {copy : Piece} {room : Nat} (member : copy ∈ shed width room found) :
    ∃ piece ∈ found, copy.part = piece.part := by
  induction found generalizing room with
  | nil => cases member
  | cons piece rest ih =>
    rcases List.mem_append.mp member with here | later
    · exact ⟨piece, List.mem_cons_self, part_of_mem_pieceShed here⟩
    · obtain ⟨other, inside, same⟩ := ih later
      exact ⟨other, List.mem_cons_of_mem piece inside, same⟩

/-- Pieces are shifted one after the other. -/
theorem shed_append (room : Nat) (front back : List Piece) :
    shed width room (front ++ back) =
      shed width room front ++ shed width (roomBehind some width room (textOf front)) back := by
  induction front generalizing room with
  | nil => rfl
  | cons piece rest ih => rw [List.cons_append, shed, shed, ih, textOf_cons, roomBehind_append, List.append_assoc]

/-- What is left of pieces makes up the shifted text. -/
theorem textOf_shed {found : List Piece} (plain : '\r' ∉ textOf found) (room : Nat) :
    textOf (shed width room found) = shifted some width room (textOf found) := by
  induction found generalizing room with
  | nil => rfl
  | cons piece rest ih =>
    rw [textOf_cons, List.mem_append, not_or] at plain
    have own : textOf (piece.shed width room) = shifted some width room piece.text := by
      unfold Piece.shed
      split
      · rename_i empty
        exact empty.symm
      · simp [textOf]
    rw [shed, textOf_append, own, ih plain.2, textOf_cons, shifted_append_plain plain.1]

section

variable {found : List Piece} (sturdy : ∀ piece ∈ found, piece.Sturdy)

include sturdy

/-- A string literal follows in the shifted text where one follows. -/
theorem stringFollows_shed (room : Nat) : stringFollows (shed width room found) = stringFollows found := by
  induction found generalizing room with
  | nil => rfl
  | cons piece rest ih =>
    obtain ⟨first, others⟩ := List.forall_mem_cons.mp sturdy
    have inner := ih others (roomBehind some width room piece.text)
    rw [shed]
    by_cases kept : piece.part ≠ .blank ∧ piece.part ≠ .content
    · rw [first.shed_eq room kept]
      simp only [List.singleton_append, stringFollows, inner]
    · -- Blanks and texts of literals do not count.
      have passed : ∀ others, stringFollows (piece :: others) = stringFollows others := fun others => by
        rw [not_and_or, not_not, not_not] at kept
        rcases kept with blank | content <;> simp [stringFollows, *]
      rw [passed]
      unfold Piece.shed
      split
      · exact inner
      · rw [List.singleton_append, stringFollows]
        rw [not_and_or, not_not, not_not] at kept
        rcases kept with blank | content <;> simp [*]

/-- Joins that are passed over in a text are passed over in the shifted text. -/
theorem hushJoins_shed (room : Nat) : hushJoins (shed width room found) = shed width room (hushJoins found) := by
  induction found generalizing room with
  | nil => rfl
  | cons piece rest ih =>
    obtain ⟨first, others⟩ := List.forall_mem_cons.mp sturdy
    have inner := ih others (roomBehind some width room piece.text)
    have follows := @stringFollows_shed width _ others (roomBehind some width room piece.text)
    by_cases join : piece.part = .token .lineJoin
    · rw [shed, first.shed_eq room (by simp [join]), List.singleton_append, hushJoins, hushJoins, follows, inner]
      split
      · have hushed : ({ piece with part := .silent } : Piece).shed width room = [{ piece with part := .silent }] := by
          have same : piece.shed width room = [piece] := first.shed_eq room (by simp [join])
          unfold Piece.shed at same ⊢
          split at same
          · cases same
          · rename_i some_char
            rw [if_neg some_char]
            simpa using congrArg Piece.text (List.singleton_inj.mp same)
        rw [shed, hushed, List.singleton_append]
      · rw [shed, first.shed_eq room (by simp [join]), List.singleton_append]
    · have stays : ∀ {copy others}, copy.part = piece.part → hushJoins (copy :: others) = copy :: hushJoins others :=
        fun same => by rw [hushJoins, if_neg fun both => join (same ▸ both.1)]
      rw [shed, stays rfl, shed, ← inner]
      unfold Piece.shed
      split
      · rfl
      · exact stays rfl

/-- Each row but the first loses blanks up to the width. -/
theorem rowsBetween_shed (room : Nat) {row : List Piece} {later : List (List Piece)}
    (between : rowsBetween found = row :: later) :
    rowsBetween (shed width room found) = shed width room row :: later.map (shed width width) := by
  induction found generalizing room row later with
  | nil =>
    cases between
    rfl
  | cons piece rest ih =>
    obtain ⟨first, others⟩ := List.forall_mem_cons.mp sturdy
    obtain ⟨next, more, inner⟩ := List.exists_cons_of_ne_nil (rowsBetween_ne_nil rest)
    have copy := fun room => ih others room inner
    by_cases ends : piece.part = .lineFeed
    · have text : piece.text = ['\n'] := by
        cases first with
        | feed => rfl
        | token | blank | content => cases ends
        | join joins => rcases joins with rfl | rfl <;> cases ends
      rw [rowsBetween, if_pos ends, inner] at between
      cases between
      have own : piece.shed width room = [piece] := first.shed_eq room (by simp [ends])
      rw [shed_cons, own, List.singleton_append, rowsBetween, if_pos ends, text, List.map_cons, ← copy]
      rfl
    · rw [rowsBetween_cons ends inner] at between
      cases between
      rw [shed_cons, shed_cons]
      refine rowsBetween_append (fun other member => ?_) (copy _)
      rw [part_of_mem_pieceShed member]
      exact ends

end

end SourceOutline.Python
