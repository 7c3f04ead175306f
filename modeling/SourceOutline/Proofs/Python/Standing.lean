import SourceOutline.Proofs.Python.ReturnedPlaces
import SourceOutline.Proofs.Python.SpelledTree

/-! The tokens of a program stand in its source, and those that are no comments hold no separators. -/

namespace SourceOutline.Python

open Text

/-- A token stands in a source between the places that it names, and holds no separators when it is
neither a comment nor a join. -/
def Token.Stands (source : List Char) (token : Token) : Prop :=
  ∃ front word, front ++ word <+: source ∧ token.start = Mark.pass {} front ∧
    token.stop = Mark.pass {} (front ++ word) ∧
    (token.isWritten = true → word ≠ [] ∧ ∀ c ∈ word, c ∉ separators)

/-- Code is a token that holds no separators. -/
theorem CutsTo.code_plain {front back : List Piece} {piece : Piece}
    (cuts : CutsTo [] [] (front ++ piece :: back) []) (code : piece.isCode = true) :
    piece.text ≠ [] ∧ ∀ c ∈ piece.text, c ∉ separators := by
  obtain ⟨between, first, second⟩ := cuts.append
  have quoted := first.isQuoted fun style member => absurd member List.not_mem_nil
  cases second with
  | @piece _ _ c rest cut _ next whole behind =>
    refine ⟨List.cons_ne_nil c rest, ?_⟩
    obtain ⟨symbol, part⟩ := exists_symbol_of_isCode code
    rw [Piece.isCode, part] at code
    have solid : symbol.isTrivia = false := by simpa using code
    rcases nextCut_of_token quoted next whole part (by rintro rfl; cases solid) with ⟨rfl, _⟩ | plain
    · cases solid
    · exact plain

/-- A piece behind others was a piece behind as much text before joins have been passed over. -/
theorem exists_before_hush {found front' back' : List Piece} {piece' : Piece}
    (same : hushJoins found = front' ++ piece' :: back') :
    ∃ front piece back, found = front ++ piece :: back ∧ textOf front' = textOf front ∧
      piece'.text = piece.text ∧ piece'.isCode = piece.isCode := by
  have each := hushJoins_hushed found
  rw [same] at each
  have front := List.forall₂_take_append _ _ _ each
  obtain ⟨piece, back, first, _, dropped⟩ :=
    List.forall₂_cons_right_iff.mp (List.forall₂_drop_append _ _ _ each)
  have whole := List.take_append_drop front'.length found
  rw [dropped] at whole
  exact ⟨_, piece, back, whole.symm, textOf_hushed front, first.text, first.isCode⟩

/-- A line holds the tokens of a core among the pieces of the source. -/
theorem exists_core {source : List Char} {layout : Layout} (laid : layoutOf source = some layout)
    {line : Line} (member : line ∈ layout.lines) :
    ∃ front core back, pieces source = some (front ++ (core ++ back)) ∧
      (∃ first rest, core = first :: rest ∧ first.isCode = true) ∧
      line.tokens = tokensFrom (Mark.pass {} (textOf front)) (hushJoins core) := by
  obtain ⟨found, cut, rfl⟩ := Option.map_eq_some_iff.mp laid
  have cuts := ((cutBehind_eq_some_iff [] source found).mp cut).cutsTo.2
  have rows := joinRows_rowsBetween cuts.eq_feed
  rw [rowsBetween_hushJoins] at member
  obtain ⟨before, rest, lines⟩ := List.append_of_mem member
  obtain ⟨above, row, below, lead, core, trail, whole, split, tokens, _⟩ := (hasLine_of_lines lines).unhushed
  refine ⟨_, core, trail ++ below.flatMap (feed :: ·), ?_, split.starts, tokens⟩
  rw [cut, ← rows, whole, joinRows_append, split.whole]
  simp

/-- The tokens of a line stand in the source. -/
theorem stands_of_mem {source : List Char} {layout : Layout} (laid : layoutOf source = some layout)
    {line : Line} (among : line ∈ layout.lines) {token : Token} (member : token ∈ line.tokens) :
    token.Stands source := by
  obtain ⟨before, core, behind, cut, _, tokens⟩ := exists_core laid among
  rw [tokens] at member
  obtain ⟨front', piece', back', hushed, part, starts, stops⟩ := exists_of_mem_tokensFrom member
  obtain ⟨front, piece, back, rfl, sameFront, sameText, sameCode⟩ := exists_before_hush hushed
  obtain ⟨rfl, cuts⟩ := ((cutBehind_eq_some_iff [] source _).mp cut).cutsTo
  rw [sameFront, ← Mark.pass_append, ← textOf_append] at starts
  rw [starts, sameText, ← Mark.pass_append] at stops
  refine ⟨textOf (before ++ front), piece.text, ⟨textOf (back ++ behind), ?_⟩, starts, stops, fun written => ?_⟩
  · simp
  · have code : piece.isCode = true := by
      rw [← sameCode, Piece.isCode, part]
      exact written
    have split : before ++ (front ++ piece :: back ++ behind) =
        (before ++ front) ++ piece :: (back ++ behind) := by
      simp
    rw [split] at cuts
    exact cuts.code_plain code

/-- Lines start with a token that is neither a comment nor a join. -/
theorem exists_written {source : List Char} {layout : Layout} (laid : layoutOf source = some layout)
    {line : Line} (among : line ∈ layout.lines) :
    ∃ token rest, line.tokens = token :: rest ∧ token.isWritten = true := by
  obtain ⟨before, core, behind, _, ⟨first, others, rfl, code⟩, tokens⟩ := exists_core laid among
  obtain ⟨first', others', firsts, _, hushed⟩ := List.forall₂_cons_left_iff.mp (hushJoins_hushed (first :: others))
  have code' := firsts.isCode.trans code
  obtain ⟨symbol, part⟩ := exists_symbol_of_isCode code'
  rw [hushed, tokensFrom, part] at tokens
  refine ⟨_, _, tokens, ?_⟩
  rw [Piece.isCode, part] at code'
  exact code'

/-- A tree is spelled with tokens that stand in its source. -/
theorem exists_spelled {source : List Char} {tree : Node} (parsed : parse source = some tree) :
    ∃ given, tree.Spelled given ∧ ∀ token ∈ given, token.Stands source := by
  obtain ⟨layout, laid, parsed⟩ := Option.bind_eq_some_iff.mp parsed
  obtain ⟨nodes, found, same⟩ := Option.bind_eq_some_iff.mp parsed
  cases same
  refine ⟨layout.lines.flatMap Line.tokens, ?_, fun token member => ?_⟩
  · have fit : AllFit (layout.lines.flatMap Line.tokens) layout.lines := fun line among =>
      ⟨fun token member => List.mem_flatMap.mpr ⟨line, among, member⟩, exists_written laid among⟩
    refine .of_parts rfl (allSpelled_append.mpr ⟨?_, joins_spelled _⟩)
    exact statements_spelled (fun _ => lineContent_spec) fit found
  · obtain ⟨line, among, member⟩ := List.mem_flatMap.mp member
    exact stands_of_mem laid among member

end SourceOutline.Python
