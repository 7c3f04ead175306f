import SourceOutline.Proofs.Python.Locality
import SourceOutline.Python.Line

/-! The rows of a source: between line feeds that end logical lines nothing is open. -/

namespace SourceOutline.Python

open Text

/-- Marks, brackets and operators count as code. -/
theorem operatorCut_isCode {modes : List Mode} {c : Char} {rest : List Char} {cut : Cut}
    (next : operatorCut modes c rest = some cut) (text : List Char) :
    (Piece.mk cut.part text).isCode = true := by
  unfold operatorCut at next
  split at next
  · rename_i mark marked
    cases next
    unfold fieldCut at marked
    split at marked
    · split at marked
      · cases marked
        rfl
      · split at marked <;> cases marked
        rfl
    · cases marked
  · split at next
    · cases next
      rfl
    · split at next
      · unfold closeCut at next
        split at next
        · split at next <;> cases next
          rfl
        · split at next <;> cases next
          rfl
        · cases next
      · obtain ⟨_, _, rfl⟩ := Option.map_eq_some_iff.mp next
        rfl

/-- A token that is no comment and no join counts as code. -/
theorem tokenCut_isCode {modes : List Mode} {c : Char} {rest : List Char} {cut : Cut}
    (next : tokenCut modes c rest = some cut) (text : List Char) :
    (Piece.mk cut.part text).isCode = true := by
  unfold tokenCut at next
  split at next
  · cases next
    rfl
  · split at next
    · cases next
      rfl
    · simp only at next
      split at next
      · exact operatorCut_isCode next text
      · cases next
        rfl

/-- What a piece of code is told from its first character. -/
theorem codeCut_cases {modes : List Mode} {c : Char} {rest : List Char} {cut : Cut}
    (next : codeCut modes c rest = some cut) :
    (c = '\n' ∧ cut = ⟨if modes.isEmpty then .lineFeed else .silent, 0, modes⟩) ∨
      (isSpace c = true ∧ cut = ⟨.blank, 0, modes⟩) ∨
      (c = '#' ∧ cut = ⟨.token .comment, (rest.takeWhile (· != '\n')).length, modes⟩) ∨
      (c = '\\' ∧ cut.part = .token .lineJoin ∧ cut.modes = modes) ∨
      ∀ text, (Piece.mk cut.part text).isCode = true := by
  unfold codeCut at next
  split at next
  · rename_i feed
    cases next
    exact .inl ⟨by simpa using feed, rfl⟩
  · split at next
    · rename_i space
      cases next
      exact .inr (.inl ⟨space, rfl⟩)
    · split at next
      · rename_i comment
        cases next
        exact .inr (.inr (.inl ⟨by simpa using comment, rfl⟩))
      · split at next
        · rename_i join
          obtain ⟨_, _, rfl⟩ := Option.map_eq_some_iff.mp next
          exact .inr (.inr (.inr (.inl ⟨by simpa using join, rfl, rfl⟩)))
        · exact .inr (.inr (.inr (.inr (tokenCut_isCode next))))

/-- A piece that is no code leaves open what was open. -/
theorem nextCut_modes {modes : List Mode} {c : Char} {rest text : List Char} {cut : Cut}
    (next : nextCut modes c rest = some cut) (other : (Piece.mk cut.part text).isCode = false) :
    cut.modes = modes := by
  unfold nextCut at next
  split at next
  · rcases textCut_cases next with ⟨_, rfl⟩ | ⟨_, ⟨_, same⟩ | ⟨symbol, token, solid, _⟩⟩
    · rfl
    · exact same
    · simp [Piece.isCode, token, solid] at other
  · unfold formatCut at next
    split at next
    · cases next
      cases other
    · split at next
      · cases next
        cases other
      · split at next <;> cases next
        rfl
  · rcases codeCut_cases next with ⟨_, rfl⟩ | ⟨_, rfl⟩ | ⟨_, rfl⟩ | ⟨_, _, same⟩ | code
    · rfl
    · rfl
    · rfl
    · exact same
    · rw [code text] at other
      cases other

/-- A line feed ends a logical line only where nothing is open. -/
theorem nextCut_of_lineFeed {modes : List Mode} {c : Char} {rest : List Char} {cut : Cut}
    (next : nextCut modes c rest = some cut) (feed : cut.part = .lineFeed) :
    c = '\n' ∧ modes = [] ∧ cut.further = 0 := by
  have uncode : (Piece.mk cut.part []).isCode = false := by rw [feed]; rfl
  unfold nextCut at next
  split at next
  · rcases textCut_cases next with ⟨_, rfl⟩ | ⟨_, ⟨content, _⟩ | ⟨symbol, token, _⟩⟩
    · cases feed
    · cases feed.symm.trans content
    · cases feed.symm.trans token
  · unfold formatCut at next
    split at next
    · cases next
      cases feed
    · split at next
      · cases next
        cases feed
      · split at next <;> cases next
        cases feed
  · rcases codeCut_cases next with ⟨newline, rfl⟩ | ⟨_, rfl⟩ | ⟨_, rfl⟩ | ⟨_, join, _⟩ | code
    · refine ⟨newline, ?_, rfl⟩
      cases modes with
      | nil => rfl
      | cons mode outer => cases feed
    · cases feed
    · cases feed
    · cases feed.symm.trans join
    · rw [code []] at uncode
      cases uncode

/-- Where nothing is open a piece that is no code starts with a separating character. -/
theorem mem_separators_of_nextCut {c : Char} {rest text : List Char} {cut : Cut}
    (next : nextCut [] c rest = some cut) (other : (Piece.mk cut.part text).isCode = false) :
    c ∈ separators := by
  rcases codeCut_cases next with ⟨rfl, _⟩ | ⟨space, _⟩ | ⟨rfl, _⟩ | ⟨rfl, _⟩ | code
  · decide
  · simp only [isSpace, Bool.or_eq_true, beq_iff_eq] at space
    rcases space with ((((((rfl | rfl) | rfl) | rfl) | rfl) | rfl) | rfl) | rfl <;> decide
  · decide
  · decide
  · rw [code text] at other
    cases other

/-- Where nothing is open a comment extends to the end of its row. -/
theorem further_of_comment {c : Char} {rest : List Char} {cut : Cut}
    (next : nextCut [] c rest = some cut) (comment : cut.part = .token .comment) :
    cut.further = (rest.takeWhile (· != '\n')).length := by
  rcases codeCut_cases next with ⟨_, rfl⟩ | ⟨_, rfl⟩ | ⟨_, rfl⟩ | ⟨_, join, _⟩ | code
  · cases comment
  · cases comment
  · rfl
  · cases comment.symm.trans join
  · have impossible := code []
    rw [comment] at impossible
    cases impossible

/-- The line feed between two rows. -/
def feed : Piece := ⟨.lineFeed, ['\n']⟩

section

variable {tail : List Char} {modes final : List Mode} {piece : Piece} {back : List Piece}

/-- Pieces that are no code leave open what was open. -/
theorem CutsTo.modes_eq {found : List Piece} (cuts : CutsTo tail modes found final)
    (other : ∀ piece ∈ found, piece.isCode = false) : final = modes := by
  induction cuts with
  | done => rfl
  | piece next whole behind ih =>
    rw [ih fun later member => other later (List.mem_cons_of_mem _ member)]
    exact nextCut_modes next (other _ List.mem_cons_self)

/-- Nothing is open at either side of a line feed that ends a logical line. -/
theorem CutsTo.of_lineFeed (cuts : CutsTo tail modes (piece :: back) final)
    (ends : piece.part = .lineFeed) : piece = feed ∧ modes = [] ∧ CutsTo tail [] back final := by
  cases cuts with
  | @piece _ _ c rest cut _ next whole behind =>
    obtain ⟨rfl, rfl, single⟩ := nextCut_of_lineFeed next ends
    have uncode : (Piece.mk cut.part []).isCode = false := by
      rw [show cut.part = .lineFeed from ends]
      rfl
    rw [nextCut_modes next uncode] at behind
    rw [single] at whole
    have nothing : rest = [] := List.eq_nil_of_length_eq_zero whole.symm
    refine ⟨?_, rfl, behind⟩
    rw [nothing, show cut.part = .lineFeed from ends]
    rfl

/-- Where nothing is open a piece that is no code is parted from what stands before it. -/
theorem CutsTo.isParted (cuts : CutsTo tail [] (piece :: back) final)
    (other : piece.isCode = false) (behind : List Char) : IsParted (piece.text ++ behind) := by
  cases cuts with
  | piece next whole further => exact .cons (mem_separators_of_nextCut next other) _

/-- Where nothing is open a comment is followed by the end of its row. -/
theorem CutsTo.behind_comment (cuts : CutsTo tail [] (piece :: back) final)
    (comment : piece.part = .token .comment) :
    ∀ c, (textOf back ++ tail).head? = some c → c = '\n' := by
  cases cuts with
  | @piece _ _ _ rest cut _ next whole further =>
    intro c first
    have length := whole.symm.trans (further_of_comment next comment)
    rw [List.takeWhile_append] at length
    split at length
    · rename_i inside
      -- Nothing more is taken behind the comment.
      rw [List.length_append, Nat.left_eq_add, List.length_eq_zero_iff] at length
      obtain ⟨more, split⟩ := List.head?_eq_some_iff.mp first
      rw [split, List.takeWhile_cons] at length
      by_contra other
      simp [other] at length
    · rename_i inside
      exact absurd length.symm inside

end

/-- Rows with line feeds between them. -/
def joinRows : List (List Piece) → List Piece
  | [] => []
  | row :: below => row ++ below.flatMap (feed :: ·)

/-- A row stands between the rows above it and those below it, with line feeds between them. -/
theorem joinRows_append (above : List (List Piece)) (row : List Piece) (below : List (List Piece)) :
    joinRows (above ++ row :: below) =
      above.flatMap (· ++ [feed]) ++ (row ++ below.flatMap (feed :: ·)) := by
  induction above with
  | nil => rfl
  | cons first rest ih =>
    have inner : (rest ++ row :: below).flatMap (feed :: ·) = feed :: joinRows (rest ++ row :: below) := by
      cases rest <;> rfl
    rw [List.cons_append, joinRows, inner, ih]
    simp

/-- There is always a row. -/
theorem rowsBetween_ne_nil (found : List Piece) : rowsBetween found ≠ [] := by
  cases found with
  | nil => simp [rowsBetween]
  | cons piece rest =>
    rw [rowsBetween]
    split
    · simp
    · split <;> simp

/-- Anything but a line feed goes into the first row. -/
theorem rowsBetween_cons {piece : Piece} (inside : piece.part ≠ .lineFeed) {rest row : List Piece}
    {later : List (List Piece)} (rows : rowsBetween rest = row :: later) :
    rowsBetween (piece :: rest) = (piece :: row) :: later := by
  rw [rowsBetween, if_neg inside, rows]

/-- The rows of some pieces make up the pieces. -/
theorem joinRows_rowsBetween {found : List Piece}
    (feeds : ∀ piece ∈ found, piece.part = .lineFeed → piece = feed) :
    joinRows (rowsBetween found) = found := by
  induction found with
  | nil => rfl
  | cons piece rest ih =>
    have inner := ih fun other member => feeds other (List.mem_cons_of_mem piece member)
    obtain ⟨row, later, rows⟩ := List.exists_cons_of_ne_nil (rowsBetween_ne_nil rest)
    by_cases ends : piece.part = .lineFeed
    · rw [rowsBetween, if_pos ends, rows]
      rw [rows] at inner
      rw [feeds piece List.mem_cons_self ends, ← inner]
      simp [joinRows]
    · rw [rowsBetween_cons ends rows]
      rw [rows] at inner
      rw [← inner]
      rfl

/-- No line feed that ends a logical line stands in a row. -/
theorem not_lineFeed_of_mem_rowsBetween {found row : List Piece} (member : row ∈ rowsBetween found) :
    ∀ piece ∈ row, piece.part ≠ .lineFeed := by
  induction found generalizing row with
  | nil =>
    cases List.mem_singleton.mp member
    simp
  | cons piece rest ih =>
    obtain ⟨first, later, rows⟩ := List.exists_cons_of_ne_nil (rowsBetween_ne_nil rest)
    rw [rows] at ih
    by_cases ends : piece.part = .lineFeed
    · rw [rowsBetween, if_pos ends, rows] at member
      rcases List.mem_cons.mp member with rfl | inside
      · simp
      · exact ih inside
    · rw [rowsBetween_cons ends rows] at member
      rcases List.mem_cons.mp member with rfl | inside
      · intro other inside
        rcases List.mem_cons.mp inside with rfl | inside
        · exact ends
        · exact ih List.mem_cons_self other inside
      · exact ih (List.mem_cons_of_mem first inside)

/-- Rows that are joined are found again. -/
theorem rowsBetween_joinRows {rows : List (List Piece)} (some_row : rows ≠ [])
    (inside : ∀ row ∈ rows, ∀ piece ∈ row, piece.part ≠ .lineFeed) :
    rowsBetween (joinRows rows) = rows := by
  obtain ⟨row, below, rfl⟩ := List.exists_cons_of_ne_nil some_row
  clear some_row
  induction below generalizing row with
  | nil =>
    have single := inside row List.mem_cons_self
    rw [joinRows, List.flatMap_nil, List.append_nil]
    clear inside
    induction row with
    | nil => rfl
    | cons piece rest ih =>
      exact rowsBetween_cons (single piece List.mem_cons_self)
        (ih fun other member => single other (List.mem_cons_of_mem piece member))
  | cons next later ih =>
    have behind := ih next fun other member => inside other (List.mem_cons_of_mem row member)
    have single := inside row List.mem_cons_self
    clear inside ih
    have open_row : rowsBetween (feed :: joinRows (next :: later)) = [] :: next :: later := by
      rw [rowsBetween, if_pos (show feed.part = .lineFeed from rfl), behind]
    have text : joinRows (row :: next :: later) = row ++ feed :: joinRows (next :: later) := by
      simp [joinRows]
    rw [text]
    clear text
    induction row with
    | nil => exact open_row
    | cons piece rest ih =>
      exact rowsBetween_cons (single piece List.mem_cons_self)
        (ih fun other member => single other (List.mem_cons_of_mem piece member))

/-- All line feeds that end logical lines are the same piece. -/
theorem CutsTo.eq_feed {tail : List Char} {modes final : List Mode} {found : List Piece}
    (cuts : CutsTo tail modes found final) : ∀ piece ∈ found, piece.part = .lineFeed → piece = feed := by
  induction found generalizing modes with
  | nil => simp
  | cons piece rest ih =>
    intro other member ends
    rcases List.mem_cons.mp member with rfl | inside
    · exact (cuts.of_lineFeed ends).1
    · cases cuts with
      | piece next whole behind => exact ih behind other inside ends

/-- Between rows nothing is open. -/
theorem CutsTo.of_closed {tail : List Char} {final : List Mode} {above : List (List Piece)}
    {back : List Piece} (cuts : CutsTo tail [] (above.flatMap (· ++ [feed]) ++ back) final) :
    CutsTo tail [] back final := by
  induction above with
  | nil => exact cuts
  | cons row rest ih =>
    rw [List.flatMap_cons, List.append_assoc, List.append_assoc] at cuts
    obtain ⟨between, _, second⟩ := cuts.append
    exact ih (second.of_lineFeed rfl).2.2

/-- At the end of a row nothing is open. -/
theorem CutsTo.of_open {between : List Mode} {below : List (List Piece)}
    (cuts : CutsTo [] between (below.flatMap (feed :: ·)) []) : between = [] := by
  cases below with
  | nil =>
    cases cuts
    rfl
  | cons row rest => exact (cuts.of_lineFeed rfl).2.1

/-- A piece that is no solid token is no code. -/
theorem isCode_of_isSolid {piece : Piece} (loose : piece.isSolid = false) : piece.isCode = false := by
  obtain ⟨part, text⟩ := piece
  cases part with
  | token symbol =>
    have join : symbol = .lineJoin := by simpa [Piece.isSolid] using loose
    rw [join]
    rfl
  | _ => rfl

/-- The last piece, if any, is a solid token. -/
def EndsSolid (found : List Piece) : Prop := ∀ piece, found.getLast? = some piece → piece.isSolid = true

/-- What ends with a solid token still does so behind its first piece. -/
theorem EndsSolid.of_cons {piece : Piece} {rest : List Piece} (ends : EndsSolid (piece :: rest)) :
    EndsSolid rest := by
  intro last isLast
  refine ends last ?_
  rw [List.getLast?_cons, isLast]
  rfl

/-- What ends with a solid token still does so behind other pieces. -/
theorem EndsSolid.append {back : List Piece} (ends : EndsSolid back) (some_piece : back ≠ [])
    (front : List Piece) : EndsSolid (front ++ back) := by
  intro last isLast
  rw [List.getLast?_append_of_ne_nil _ some_piece] at isLast
  exact ends last isLast

/-- A row with code consists of what stands before the code, of the code up to its last solid token,
and of what stands behind that. -/
structure Split (row lead core trail : List Piece) : Prop where
  /-- The parts make up the row. -/
  whole : row = lead ++ (core ++ trail)
  /-- There is no code before the core. -/
  lead : ∀ piece ∈ lead, piece.isCode = false
  /-- The core starts with code. -/
  starts : ∃ first rest, core = first :: rest ∧ first.isCode = true
  /-- The core ends with a solid token. -/
  ends : EndsSolid core
  /-- There is no solid token behind the core. -/
  trail : ∀ piece ∈ trail, piece.isSolid = false

/-- The core is not empty. -/
theorem Split.core_ne_nil {row lead core trail : List Piece} (split : Split row lead core trail) :
    core ≠ [] := by
  obtain ⟨first, rest, rfl, _⟩ := split.starts
  exact List.cons_ne_nil first rest

/-- Nothing stands behind the core of a row that ends with a solid token. -/
theorem Split.trail_eq_nil {row lead core trail : List Piece} (split : Split row lead core trail)
    (ends : EndsSolid row) : trail = [] := by
  cases last : trail.getLast? with
  | none => exact List.getLast?_eq_none_iff.mp last
  | some piece =>
    have loose := split.trail piece (List.mem_of_getLast? last)
    rw [ends piece (by simp [split.whole, List.getLast?_append, last])] at loose
    cases loose

/-- What no piece of a front keeps is taken from the front and what follows it alike. -/
theorem leadOf_append {front back : List Piece} (other : ∀ piece ∈ front, piece.isCode = false) :
    leadOf (front ++ back) = front ++ leadOf back :=
  List.takeWhile_append_of_pos fun piece member => by rw [other piece member]; rfl

/-- What stands before the code of a row. -/
theorem Split.leadOf_eq {row lead core trail : List Piece} (split : Split row lead core trail) :
    leadOf row = lead := by
  obtain ⟨first, rest, rfl, code⟩ := split.starts
  rw [split.whole, leadOf_append split.lead, leadOf, List.cons_append, List.takeWhile_cons, code]
  simp

/-- The code of a row up to its last solid token. -/
theorem Split.coreOf_eq {row lead core trail : List Piece} (split : Split row lead core trail) :
    coreOf row = core := by
  have behind : row.drop (leadOf row).length = core ++ trail := by
    rw [split.leadOf_eq, split.whole, List.drop_left]
  have dropped : (trail.reverse ++ core.reverse).dropWhile (fun piece => !piece.isSolid) =
      core.reverse.dropWhile fun piece => !piece.isSolid := by
    refine List.dropWhile_append_of_pos fun piece member => ?_
    rw [split.trail piece (List.mem_reverse.mp member)]
    rfl
  have kept : core.reverse.dropWhile (fun piece => !piece.isSolid) = core.reverse := by
    cases last : core.reverse with
    | nil => rfl
    | cons piece rest =>
      have solid := split.ends piece (by rw [← List.head?_reverse, last]; rfl)
      rw [List.dropWhile_cons, solid]
      rfl
  simp only [coreOf, behind, List.reverse_append]
  rw [dropped, kept, List.reverse_reverse]

/-- A row without code has no core. -/
theorem coreOf_eq_nil {row : List Piece} (other : ∀ piece ∈ row, piece.isCode = false) :
    coreOf row = [] := by
  have whole : leadOf row = row := by
    have all := @leadOf_append row [] other
    simpa [leadOf] using all
  simp [coreOf, whole]

/-- Pieces are those up to the last solid token and those behind it. -/
theorem exists_endsSolid (found : List Piece) :
    ∃ front back, found = front ++ back ∧ EndsSolid front ∧ ∀ piece ∈ back, piece.isSolid = false := by
  refine ⟨(found.reverse.dropWhile fun piece => !piece.isSolid).reverse,
    (found.reverse.takeWhile fun piece => !piece.isSolid).reverse, ?_, ?_, ?_⟩
  · rw [← List.reverse_append, List.takeWhile_append_dropWhile, List.reverse_reverse]
  · intro piece isLast
    rw [List.getLast?_reverse] at isLast
    have stopped := List.head?_dropWhile_not (fun piece => !piece.isSolid) found.reverse
    rw [isLast] at stopped
    simpa using stopped
  · intro piece member
    simpa using List.all_eq_true.mp List.all_takeWhile piece (List.mem_reverse.mp member)

/-- A row with code is split. -/
theorem exists_split {row : List Piece} (some_code : ∃ piece ∈ row, piece.isCode = true) :
    ∃ lead core trail, Split row lead core trail := by
  obtain ⟨core, trail, split, ends, loose⟩ := exists_endsSolid (row.dropWhile fun piece => !piece.isCode)
  have whole := List.takeWhile_append_dropWhile (p := fun piece : Piece => !piece.isCode) (l := row)
  have others : ∀ piece ∈ row.takeWhile (fun piece => !piece.isCode), piece.isCode = false :=
    fun piece member => by simpa using List.all_eq_true.mp List.all_takeWhile piece member
  have stopped := List.head?_dropWhile_not (fun piece : Piece => !piece.isCode) row
  refine ⟨_, core, trail, by rw [← split, whole], others, ?_, ends, loose⟩
  rw [split] at stopped
  cases core with
  | cons first rest => exact ⟨first, rest, rfl, by simpa using stopped⟩
  | nil =>
    -- Without a solid token there is no code either.
    obtain ⟨piece, member, code⟩ := some_code
    rw [← whole, split] at member
    rcases List.mem_append.mp member with inside | inside
    · rw [others piece inside] at code
      cases code
    · rw [isCode_of_isSolid (loose piece inside)] at code
      cases code

/-- A piece as it is when joins have been passed over. -/
structure Hushed (piece hushed : Piece) : Prop where
  /-- The text stays. -/
  text : hushed.text = piece.text
  /-- Code stays code, and nothing becomes code. -/
  isCode : hushed.isCode = piece.isCode
  /-- Solid tokens stay solid, and nothing becomes solid. -/
  isSolid : hushed.isSolid = piece.isSolid
  /-- Comments stay comments, and nothing becomes one. -/
  comment : hushed.part = .token .comment ↔ piece.part = .token .comment
  /-- Line feeds that end logical lines stay, and nothing becomes one. -/
  lineFeed : hushed.part = .lineFeed ↔ piece.part = .lineFeed

/-- A piece is hushed where it stays. -/
theorem Hushed.refl (piece : Piece) : Hushed piece piece := ⟨rfl, rfl, rfl, .rfl, .rfl⟩

/-- A join that is passed over is hushed. -/
theorem Hushed.join {piece : Piece} (join : piece.part = .token .lineJoin) :
    Hushed piece { piece with part := .silent } := by
  obtain ⟨part, text⟩ := piece
  cases join
  exact ⟨rfl, rfl, rfl, by simp, by simp⟩

/-- The pieces behind a front are hushed by themselves, and those of the front one by one. -/
theorem exists_hushJoins_append (front back : List Piece) :
    ∃ hushed, hushJoins (front ++ back) = hushed ++ hushJoins back ∧ List.Forall₂ Hushed front hushed := by
  induction front with
  | nil => exact ⟨[], rfl, .nil⟩
  | cons piece rest ih =>
    obtain ⟨hushed, same, each⟩ := ih
    rw [List.cons_append, hushJoins, same]
    split
    · rename_i join
      exact ⟨_, rfl, .cons (.join join.1) each⟩
    · exact ⟨_, rfl, .cons (.refl piece) each⟩

/-- All pieces are hushed one by one. -/
theorem hushJoins_hushed (found : List Piece) : List.Forall₂ Hushed found (hushJoins found) := by
  obtain ⟨hushed, same, each⟩ := exists_hushJoins_append found []
  rw [List.append_nil, show hushJoins [] = [] from rfl, List.append_nil] at same
  rwa [same]

/-- Hushed pieces have the text they had. -/
theorem textOf_hushed {found hushed : List Piece} (each : List.Forall₂ Hushed found hushed) :
    textOf hushed = textOf found := by
  induction each with
  | nil => rfl
  | cons first rest ih => rw [textOf_cons, textOf_cons, first.text, ih]

/-- The text does not change when joins are passed over. -/
@[simp] theorem textOf_hushJoins (found : List Piece) : textOf (hushJoins found) = textOf found :=
  textOf_hushed (hushJoins_hushed found)

/-- Rows make up the text they did when joins have been passed over in each of them. -/
theorem textOf_flatMap_hushJoins {f : List Piece → List Piece}
    (same : ∀ row, textOf (f (hushJoins row)) = textOf (f row)) (rows : List (List Piece)) :
    textOf ((rows.map hushJoins).flatMap f) = textOf (rows.flatMap f) := by
  induction rows with
  | nil => rfl
  | cons row rest ih =>
    rw [List.map_cons, List.flatMap_cons, List.flatMap_cons, textOf_append, textOf_append, ih, same]

/-- Rows make up the same text when joins have been passed over in them. -/
theorem textOf_joinRows_hushJoins (rows : List (List Piece)) :
    textOf (joinRows (rows.map hushJoins)) = textOf (joinRows rows) := by
  cases rows with
  | nil => rfl
  | cons row below =>
    rw [List.map_cons, joinRows, joinRows, textOf_append, textOf_append, textOf_hushJoins,
      textOf_flatMap_hushJoins (by simp)]

/-- What does not depend on joins being passed over holds of all pieces before and after that. -/
theorem forall_hushed_iff {found hushed : List Piece} {property : Piece → Prop}
    (each : List.Forall₂ Hushed found hushed)
    (same : ∀ piece hushed, Hushed piece hushed → (property hushed ↔ property piece)) :
    (∀ piece ∈ hushed, property piece) ↔ ∀ piece ∈ found, property piece := by
  induction each with
  | nil => simp
  | cons first rest ih => simp [ih, same _ _ first]

/-- Passing over joins neither makes code nor hides it. -/
theorem forall_isCode_hushed_iff {found hushed : List Piece} (each : List.Forall₂ Hushed found hushed) :
    (∀ piece ∈ hushed, piece.isCode = false) ↔ ∀ piece ∈ found, piece.isCode = false :=
  forall_hushed_iff each fun _ _ stays => by rw [stays.isCode]

/-- Passing over joins neither makes solid tokens nor hides them. -/
theorem forall_isSolid_hushed_iff {found hushed : List Piece} (each : List.Forall₂ Hushed found hushed) :
    (∀ piece ∈ hushed, piece.isSolid = false) ↔ ∀ piece ∈ found, piece.isSolid = false :=
  forall_hushed_iff each fun _ _ stays => by rw [stays.isSolid]

/-- Passing over joins does not change whether the last piece is a solid token. -/
theorem endsSolid_hushed_iff {found hushed : List Piece} (each : List.Forall₂ Hushed found hushed) :
    EndsSolid hushed ↔ EndsSolid found := by
  have reversed := List.rel_reverse each
  rw [EndsSolid, EndsSolid, ← List.head?_reverse, ← List.head?_reverse]
  generalize found.reverse = pieces, hushed.reverse = pieces' at reversed ⊢
  cases reversed with
  | nil => simp
  | cons last rest => simp [last.isSolid]

/-- What lies behind a solid token does not matter for what string literals follow. -/
theorem stringFollows_append {front : List Piece} (some_solid : ∃ piece ∈ front, piece.isSolid = true)
    (back : List Piece) : stringFollows (front ++ back) = stringFollows front := by
  induction front with
  | nil => simp at some_solid
  | cons piece rest ih =>
    obtain ⟨part, text⟩ := piece
    by_cases solid : (Piece.mk part text).isSolid = true
    · -- A solid token decides.
      cases part with
      | token symbol => cases symbol <;> first | rfl | cases solid
      | _ => cases solid
    · have inner : stringFollows (rest ++ back) = stringFollows rest := by
        refine ih ?_
        obtain ⟨other, member, isSolid⟩ := some_solid
        rcases List.mem_cons.mp member with rfl | inside
        · exact absurd isSolid solid
        · exact ⟨other, inside, isSolid⟩
      cases part with
      | token symbol =>
        have join : symbol = .lineJoin := by simpa [Piece.isSolid] using solid
        subst join
        exact inner
      | lineFeed => rfl
      | _ => exact inner

/-- Pieces up to a solid token are hushed whatever follows. -/
theorem hushJoins_append {front : List Piece} (ends : EndsSolid front) (back : List Piece) :
    hushJoins (front ++ back) = hushJoins front ++ hushJoins back := by
  induction front with
  | nil => rfl
  | cons piece rest ih =>
    have inner := ih ends.of_cons
    cases rest with
    | nil =>
      -- The last piece is a solid token and hence no join.
      have solid := ends piece rfl
      have unjoined : piece.part ≠ .token .lineJoin := by
        obtain ⟨part, text⟩ := piece
        rintro rfl
        cases solid
      simp [hushJoins, unjoined]
    | cons next later =>
      have some_solid : ∃ other ∈ next :: later, other.isSolid = true := by
        have last := List.getLast?_eq_getLast_of_ne_nil (List.cons_ne_nil next later)
        exact ⟨_, List.getLast_mem _, ends.of_cons _ last⟩
      rw [List.cons_append, hushJoins, hushJoins, inner, stringFollows_append some_solid]
      split <;> rfl

/-- What string literals follow is decided within the row. -/
theorem stringFollows_rowsBetween {found row : List Piece} {later : List (List Piece)}
    (rows : rowsBetween found = row :: later) : stringFollows found = stringFollows row := by
  induction found generalizing row later with
  | nil =>
    cases rows
    rfl
  | cons piece rest ih =>
    obtain ⟨first, more, between⟩ := List.exists_cons_of_ne_nil (rowsBetween_ne_nil rest)
    have inner := ih between
    obtain ⟨part, text⟩ := piece
    by_cases ends : part = .lineFeed
    · subst ends
      rw [rowsBetween, if_pos rfl] at rows
      cases rows
      rfl
    · rw [rowsBetween_cons ends between] at rows
      cases rows
      cases part with
      | token symbol => cases symbol <;> first | rfl | exact inner
      | lineFeed => exact absurd rfl ends
      | _ => exact inner

/-- The rows are hushed one by one. -/
theorem rowsBetween_hushJoins (found : List Piece) :
    rowsBetween (hushJoins found) = (rowsBetween found).map hushJoins := by
  induction found with
  | nil => rfl
  | cons piece rest ih =>
    obtain ⟨row, later, rows⟩ := List.exists_cons_of_ne_nil (rowsBetween_ne_nil rest)
    rw [rows, List.map_cons] at ih
    by_cases ends : piece.part = .lineFeed
    · rw [hushJoins, if_neg (by simp [ends]), rowsBetween, if_pos ends, rowsBetween, if_pos ends, ih, rows]
      rfl
    · rw [rowsBetween_cons ends rows, List.map_cons, hushJoins, hushJoins, stringFollows_rowsBetween rows]
      split
      · exact rowsBetween_cons (by simp) ih
      · exact rowsBetween_cons ends ih

/-- A split row is split when joins have been passed over; its core is hushed by itself. -/
theorem Split.hushed {row lead core trail : List Piece} (split : Split row lead core trail) :
    ∃ lead', textOf lead' = textOf lead ∧ Split (hushJoins row) lead' (hushJoins core) (hushJoins trail) := by
  obtain ⟨lead', same, each⟩ := exists_hushJoins_append lead (core ++ trail)
  rw [hushJoins_append split.ends, ← split.whole] at same
  refine ⟨lead', textOf_hushed each, same, ?_, ?_, (endsSolid_hushed_iff (hushJoins_hushed core)).mpr split.ends, ?_⟩
  · exact (forall_isCode_hushed_iff each).mpr split.lead
  · obtain ⟨first, rest, rfl, code⟩ := split.starts
    have each := hushJoins_hushed (first :: rest)
    obtain ⟨first', rest', firsts, _, same⟩ := List.forall₂_cons_left_iff.mp each
    exact ⟨first', rest', same, firsts.isCode.trans code⟩
  · exact (forall_isSolid_hushed_iff (hushJoins_hushed trail)).mpr split.trail

/-- A row is split without what stands before its code. -/
theorem Split.withoutLead {row lead core trail : List Piece} (split : Split row lead core trail) :
    Split (core ++ trail) [] core trail :=
  ⟨rfl, by simp, split.starts, split.ends, split.trail⟩

/-- A row is split without what stands behind its last solid token. -/
theorem Split.withoutTrail {row lead core trail : List Piece} (split : Split row lead core trail) :
    Split (lead ++ core) lead core [] :=
  ⟨by simp, split.lead, split.starts, split.ends, by simp⟩

/-- Comments before all code are the last pieces of their rows. -/
def CommentEnds (row : List Piece) : Prop :=
  ∀ front piece back, row = front ++ piece :: back → (∀ other ∈ front, other.isCode = false) →
    piece.part = .token .comment → back = []

/-- A row has its comments at its end. -/
theorem CutsTo.commentEnds {tail : List Char} {final : List Mode} {row : List Piece}
    (cuts : CutsTo tail [] row final) (inside : ∀ piece ∈ row, piece.part ≠ .lineFeed) :
    CommentEnds row := by
  rintro front piece back rfl other comment
  obtain ⟨between, first, second⟩ := cuts.append
  have same := first.modes_eq other
  subst same
  have behind := second.behind_comment comment
  cases back with
  | nil => rfl
  | cons next more =>
    -- What follows a comment starts with a line feed, which would end the row.
    exfalso
    cases second with
    | @piece _ _ _ _ cut _ further _ second =>
      have uncode : (Piece.mk cut.part []).isCode = false := by
        rw [show cut.part = .token .comment from comment]
        rfl
      rw [nextCut_modes further uncode] at second
      cases second with
      | @piece _ _ c _ _ _ further =>
        obtain rfl : c = '\n' := behind c rfl
        cases further
        exact inside _ (List.mem_append_right front (List.mem_cons_of_mem _ List.mem_cons_self)) rfl

/-- No line feed stands before the code of a row. -/
def Unbroken (row : List Piece) : Prop :=
  ∀ front piece back, row = front ++ piece :: back → (∀ other ∈ front, other.isCode = false) →
    piece.text ≠ ['\n']

/-- Before the code of a row nothing is open, so a line feed would end the row. -/
theorem CutsTo.unbroken {tail : List Char} {final : List Mode} {row : List Piece}
    (cuts : CutsTo tail [] row final) (inside : ∀ piece ∈ row, piece.part ≠ .lineFeed) :
    Unbroken row := by
  rintro front piece back rfl other feed
  obtain ⟨between, first, second⟩ := cuts.append
  have same := first.modes_eq other
  subst same
  cases second with
  | @piece _ _ c rest cut _ next whole behind =>
    obtain ⟨rfl, rfl⟩ := List.cons.inj feed
    cases next
    exact inside _ (List.mem_append_right front List.mem_cons_self) rfl

/-- A piece behind others without code was one before joins have been passed over. -/
theorem exists_of_hushed {row front' back' : List Piece} {piece' : Piece}
    (each : List.Forall₂ Hushed row (front' ++ piece' :: back'))
    (other : ∀ piece ∈ front', piece.isCode = false) :
    ∃ front piece back, row = front ++ piece :: back ∧ (∀ piece ∈ front, piece.isCode = false) ∧
      Hushed piece piece' ∧ List.Forall₂ Hushed back back' := by
  have front := List.forall₂_take_append _ _ _ each
  have behind := List.forall₂_drop_append _ _ _ each
  obtain ⟨piece, back, first, later, dropped⟩ := List.forall₂_cons_right_iff.mp behind
  have whole := List.take_append_drop front'.length row
  rw [dropped] at whole
  exact ⟨_, piece, back, whole.symm, (forall_isCode_hushed_iff front).mp other, first, later⟩

/-- When joins have been passed over the comments are still at the end. -/
theorem CommentEnds.hushed {row hushed : List Piece} (ends : CommentEnds row)
    (each : List.Forall₂ Hushed row hushed) : CommentEnds hushed := by
  rintro front' piece' back' rfl other comment
  obtain ⟨front, piece, back, whole, plain, first, later⟩ := exists_of_hushed each other
  obtain rfl := ends front piece back whole plain (first.comment.mp comment)
  exact List.forall₂_nil_left_iff.mp later

/-- When joins have been passed over there is still no line feed before the code. -/
theorem Unbroken.hushed {row hushed : List Piece} (unbroken : Unbroken row)
    (each : List.Forall₂ Hushed row hushed) : Unbroken hushed := by
  rintro front' piece' back' rfl other
  obtain ⟨front, piece, back, whole, plain, first, _⟩ := exists_of_hushed each other
  rw [first.text]
  exact unbroken front piece back whole plain

/-- Nothing is open at either side of a row. -/
theorem CutsTo.row {above below : List (List Piece)} {row : List Piece}
    (cuts : CutsTo [] [] (joinRows (above ++ row :: below)) []) :
    CutsTo (textOf (below.flatMap (feed :: ·))) [] row [] := by
  rw [joinRows_append] at cuts
  obtain ⟨between, first, second⟩ := cuts.of_closed.append
  rw [second.of_open, List.append_nil] at first
  exact first

/-- Pieces that start with one that is no code are parted from what stands before them. -/
theorem CutsTo.isParted_textOf {found : List Piece} {final : List Mode} (cuts : CutsTo [] [] found final)
    (other : ∀ piece, found.head? = some piece → piece.isCode = false) : IsParted (textOf found) := by
  cases found with
  | nil => exact .nil
  | cons piece rest =>
    rw [textOf_cons]
    exact cuts.isParted (other piece rfl) _

end SourceOutline.Python
