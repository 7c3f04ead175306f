import SourceOutline.Proofs.Python.Collecting
import SourceOutline.Proofs.Python.Squeezing
import SourceOutline.Proofs.Python.Upright

/-! The stretches of a source that types, bases and imports are rendered from. -/

namespace SourceOutline.Python

open Text

/-- The tokens of pieces in front and behind are those of pieces in front and behind. -/
theorem exists_of_tokensFrom_append {found : List Piece} {mark : Mark} {front back : List Token}
    (tokens : tokensFrom mark found = front ++ back) :
    ∃ before behind, found = before ++ behind ∧ tokensFrom (mark.pass (textOf before)) behind = back := by
  induction found generalizing mark front with
  | nil =>
    obtain ⟨rfl, rfl⟩ := List.append_eq_nil_iff.mp tokens.symm
    exact ⟨[], [], rfl, rfl⟩
  | cons piece rest ih =>
    cases front with
    | nil => exact ⟨[], piece :: rest, rfl, tokens⟩
    | cons token front =>
      have later : ∃ other, tokensFrom (mark.pass piece.text) rest = other ++ back := by
        rw [tokensFrom] at tokens
        split at tokens
        · exact ⟨front, (List.cons.inj tokens).2⟩
        · exact ⟨token :: front, tokens⟩
      obtain ⟨other, tokens⟩ := later
      obtain ⟨before, behind, rfl, same⟩ := ih tokens
      exact ⟨piece :: before, behind, rfl, by rw [textOf_cons, Mark.pass_append]; exact same⟩

/-- The first token of pieces is one of them, behind others without tokens. -/
theorem exists_of_tokensFrom_cons {found : List Piece} {mark : Mark} {token : Token} {rest : List Token}
    (tokens : tokensFrom mark found = token :: rest) :
    ∃ gap piece behind, found = gap ++ piece :: behind ∧ piece.part = .token token.symbol ∧
      token.start = mark.pass (textOf gap) ∧ token.stop = token.start.pass piece.text ∧
      tokensFrom token.stop behind = rest := by
  induction found generalizing mark with
  | nil => cases tokens
  | cons piece later ih =>
    rw [tokensFrom] at tokens
    split at tokens
    · rename_i symbol part
      obtain ⟨rfl, same⟩ := List.cons.inj tokens
      exact ⟨[], piece, later, rfl, part, rfl, rfl, same⟩
    · obtain ⟨gap, other, behind, rfl, part, starts, stops, same⟩ := ih tokens
      exact ⟨piece :: gap, other, behind, rfl, part, by rw [starts, textOf_cons, Mark.pass_append], stops, same⟩

/-- A written token is a piece of code. -/
theorem isCode_of_written {piece : Piece} {token : Token} (part : piece.part = .token token.symbol)
    (written : token.isWritten = true) : piece.isCode = true := by
  rw [Piece.isCode, part]
  exact written

/-- Tokens stand on a stretch of pieces. -/
theorem exists_standing {found : List Piece} {mark start stop : Mark} (spans : Spans (tokensFrom mark found) start stop) :
    ∃ before inside behind, found = before ++ (inside ++ behind) ∧ StartsAndEnds inside ∧
      start = mark.pass (textOf before) ∧ stop = start.pass (textOf inside) := by
  obtain ⟨span, ⟨above, below, tokens⟩, ⟨first, head, written, rfl⟩, last, final, written', rfl⟩ := spans
  obtain ⟨rest, rfl⟩ := List.head?_eq_some_iff.mp head
  rw [List.append_assoc] at tokens
  obtain ⟨before, behind, rfl, own⟩ := exists_of_tokensFrom_append tokens.symm
  obtain ⟨gap, piece, later, rfl, part, starts, stops, others⟩ := exists_of_tokensFrom_cons own
  have code := isCode_of_written part written
  rcases List.eq_nil_or_concat' rest with rfl | ⟨middle, token, rfl⟩
  · -- A single token stands on its piece alone.
    cases final
    refine ⟨before ++ gap, [piece], later, by simp, ⟨⟨piece, rfl, code⟩, piece, rfl, code⟩, ?_, ?_⟩
    · rw [starts, textOf_append, Mark.pass_append]
    · simpa using stops
  · rw [← List.cons_append, List.getLast?_concat] at final
    obtain rfl := Option.some.inj final
    have split : tokensFrom first.stop later = middle ++ token :: below := by simpa using others
    obtain ⟨between, behind, rfl, ending⟩ := exists_of_tokensFrom_append split
    obtain ⟨gap', piece', behind, rfl, part', starts', stops', _⟩ := exists_of_tokensFrom_cons ending
    have code' := isCode_of_written part' written'
    refine ⟨before ++ gap, piece :: (between ++ gap' ++ [piece']), behind, by simp,
      ⟨⟨piece, rfl, code⟩, piece', ?_, code'⟩, ?_, ?_⟩
    · rw [← List.cons_append, List.getLast?_concat]
    · rw [starts, textOf_append, Mark.pass_append]
    · rw [stops', starts', stops]
      simp [Mark.pass_append]

/-- Pieces in front and behind were such before joins have been passed over. -/
theorem exists_append_of_hushed {found front' back' : List Piece} (each : List.Forall₂ Hushed found (front' ++ back')) :
    ∃ front back, found = front ++ back ∧ List.Forall₂ Hushed front front' ∧ List.Forall₂ Hushed back back' :=
  ⟨_, _, (List.take_append_drop _ _).symm, List.forall₂_take_append _ _ _ each, List.forall₂_drop_append _ _ _ each⟩

/-- A stretch that starts and ends with code did so before joins have been passed over. -/
theorem StartsAndEnds.of_hushed {found hushed : List Piece} (each : List.Forall₂ Hushed found hushed)
    (ends : StartsAndEnds hushed) : StartsAndEnds found := by
  have headed : ∀ {found hushed : List Piece}, List.Forall₂ Hushed found hushed →
      (∃ first, hushed.head? = some first ∧ first.isCode = true) →
        ∃ first, found.head? = some first ∧ first.isCode = true := by
    rintro _ _ (_ | ⟨first, _⟩) ⟨other, head, code⟩
    · cases head
    · cases head
      exact ⟨_, rfl, first.isCode.symm.trans code⟩
  obtain ⟨first, last⟩ := ends
  refine ⟨headed each first, ?_⟩
  rw [← List.head?_reverse]
  refine headed (List.rel_reverse each) ?_
  rwa [List.head?_reverse]

/-- A join that is left when joins have been passed over was there before. -/
theorem exists_join_before_hush {found front' back' : List Piece} {join : Piece}
    (same : hushJoins found = front' ++ join :: back') (part : join.part = .token .lineJoin) :
    ∃ front back, found = front ++ join :: back ∧ textOf front = textOf front' := by
  induction found generalizing front' with
  | nil => simp [hushJoins] at same
  | cons piece rest ih =>
    have later : ∀ {other front'}, hushJoins rest = front' ++ join :: back' → textOf [other] = textOf [piece] →
        ∃ front back, piece :: rest = front ++ join :: back ∧ textOf front = textOf (other :: front') := by
      intro other front' same text
      obtain ⟨front, back, rfl, own⟩ := ih same
      refine ⟨piece :: front, back, rfl, ?_⟩
      rw [← List.singleton_append, textOf_append, own, ← text, ← textOf_append, List.singleton_append]
    rw [hushJoins] at same
    cases front' with
    | nil =>
      rw [List.nil_append] at same
      split at same
      · obtain ⟨rfl, _⟩ := List.cons.inj same
        cases part
      · obtain ⟨rfl, _⟩ := List.cons.inj same
        exact ⟨[], rest, rfl, rfl⟩
    | cons other front' =>
      rw [List.cons_append] at same
      split at same
      all_goals
        obtain ⟨rfl, below⟩ := List.cons.inj same
        exact later below (by simp)

/-- A stretch of a source, with what stands before and behind it and what encloses its start and its end. -/
structure IsStretch (source : List Char) (before found behind : List Piece) (modes final : List Mode) : Prop where
  /-- The source is cut into these pieces. -/
  cut : pieces source = some (before ++ (found ++ behind))
  /-- What encloses the start of the stretch is open behind the pieces before it. -/
  reached : CutsTo (textOf (found ++ behind)) [] before modes
  /-- What encloses the end of the stretch is open behind its pieces. -/
  passed : CutsTo (textOf behind) modes found final
  /-- It starts and ends with code, or is nothing but a join. -/
  apart : StandsApart found

/-- A text renders a node: it is the text of the stretch that the node covers, on one line, and is still read as the
same tokens and literals exactly when the stretch fits on one line. -/
def Renders (source : List Char) (node : Node) (text : String) : Prop :=
  ∃ before found behind modes final, IsStretch source before found behind modes final ∧
    node.start.offset = (textOf before).length ∧ node.text source = textOf found ∧
    text.toList = collapse (textOf found) ∧ IsTidy text.toList ∧ IsOneLine text.toList ∧
    (ReadsAs (textOf behind) modes final (spelled found) text.toList ↔ FitsLine found)

/-- The pieces of a source between two places are a stretch, which the text of a node there renders. -/
theorem renders_of_pieces {source : List Char} {before found behind : List Piece}
    (cut : pieces source = some (before ++ (found ++ behind))) (apart : StandsApart found) {node : Node}
    (starts : node.start = Mark.pass {} (textOf before)) (stops : node.stop = node.start.pass (textOf found)) :
    Renders source node (node.collapsed source) := by
  obtain ⟨rfl, cuts⟩ := ((cutBehind_eq_some_iff [] source _).mp cut).cutsTo
  obtain ⟨modes, reached, rest⟩ := cuts.append
  obtain ⟨final, passed, _⟩ := rest.append
  rw [List.append_nil] at reached passed
  have quoted := reached.isQuoted fun style member => absurd member List.not_mem_nil
  have offset : node.start.offset = (textOf before).length := by
    rw [starts, offset_pass]
    exact Nat.zero_add _
  have text : node.text (textOf (before ++ (found ++ behind))) = textOf found := by
    refine textBetween_eq ⟨textOf behind, by simp⟩ offset ?_
    rw [stops, offset_pass, offset, List.length_append]
  have collapsed : (node.collapsed (textOf (before ++ (found ++ behind)))).toList = collapse (textOf found) := by
    rw [Node.collapsed, String.toList_ofList, text]
  refine ⟨before, found, behind, modes, final, ⟨cut, reached, passed, apart⟩, offset, text, collapsed, ?_⟩
  rw [collapsed]
  exact ⟨isTidy_collapse _, isOneLine_collapse _, readsAs_collapse_iff passed quoted apart⟩

section

variable {source : List Char} {layout : Layout} (laid : layoutOf source = some layout) {line : Line}
  (among : line ∈ layout.lines)

include laid among

/-- A node that stands on tokens of a line is rendered by its text on one line. -/
theorem renders_of_stands {node : Node} (stands : node.Stands line.tokens) :
    Renders source node (node.collapsed source) := by
  obtain ⟨front, core, back, cut, _, tokens⟩ := exists_core laid among
  rw [Node.Stands, tokens] at stands
  obtain ⟨before', inside', behind', hushed, ends, starts, stops⟩ := exists_standing stands
  have each := hushJoins_hushed core
  rw [hushed] at each
  obtain ⟨before, rest, rfl, own, others⟩ := exists_append_of_hushed each
  obtain ⟨inside, behind, rfl, found, _⟩ := exists_append_of_hushed others
  have split : front ++ (before ++ (inside ++ behind) ++ back) = (front ++ before) ++ (inside ++ (behind ++ back)) := by
    simp
  rw [split] at cut
  refine renders_of_pieces cut (.inl (ends.of_hushed found)) ?_ ?_
  · rw [starts, textOf_hushed own, textOf_append, Mark.pass_append]
  · rw [stops, textOf_hushed found]

/-- A join among the tokens of a line is rendered by its text on one line. -/
theorem renders_of_join {token : Token} (member : token ∈ line.tokens) (join : token.symbol = .lineJoin) :
    Renders source token.triviaNode (token.triviaNode.collapsed source) := by
  obtain ⟨front, core, back, cut, _, tokens⟩ := exists_core laid among
  rw [tokens] at member
  obtain ⟨front', piece, back', hushed, part, starts, stops⟩ := exists_of_mem_tokensFrom member
  rw [join] at part
  obtain ⟨before, behind, rfl, text⟩ := exists_join_before_hush hushed part
  have split : front ++ (before ++ piece :: behind ++ back) = (front ++ before) ++ ([piece] ++ (behind ++ back)) := by
    simp
  rw [split] at cut
  refine renders_of_pieces cut (.inr ⟨piece, rfl, part⟩) ?_ ?_
  · rw [Token.triviaNode, Node.start, starts, ← text, textOf_append, Mark.pass_append]
  · rw [Token.triviaNode, Node.start, Node.stop, stops]
    simp

end

/-- Only definitions have tokens that they start with. -/
theorem defines_of_openings {kind : Kind} {symbol : Symbol} (opens : symbol ∈ kind.openings) : kind.defines = true := by
  unfold Kind.openings at opens
  split at opens
  all_goals first | rfl | cases opens

/-- The parts in the header of a definition hold what stands on tokens of one line. -/
theorem exists_upright {source : List Char} {tree definition : Node} (parsed : parse source = some tree)
    (member : definition ∈ tree.definitions) (own : definition.kind ≠ .decoratedDefinition) :
    ∃ layout line, layoutOf source = some layout ∧ line ∈ layout.lines ∧
      ∀ part ∈ definition.children, part.role ≠ .body → part.Upright line.tokens := by
  obtain ⟨layout, laid, kind, _, chosen, some_lines, each⟩ := exists_laid parsed
  rw [definitions_eq, kind] at member
  obtain ⟨opening, among, headed⟩ := exists_related each definition member
  obtain ⟨line, inside, rfl⟩ := List.mem_map.mp (some_lines.subset among)
  obtain ⟨head, body, read, same, parts, lower⟩ := headed.header own
  refine ⟨layout, line, laid, inside, fun part within upper => ?_⟩
  rw [parts] at within
  rcases List.mem_append.mp within with above | last
  · cases @Line.read_upright line _ read with
    | header upright => exact upright (same ▸ defines_of_openings headed.opens) part above
  · rw [List.mem_singleton.mp last] at upper
    exact absurd lower upper

/-- Statements that import stand on tokens of one of the lines. -/
theorem exists_stands_of_import {level : Nat} {tail : List Note} {lines : List Line} {nodes : List Node}
    (found : statements lineContent level tail lines = some nodes) :
    ∀ statement ∈ nodes, statement.kind = .importStatement → ∃ line ∈ lines, statement.Stands line.tokens := by
  -- Each line is followed by those that its statement does not take.
  induction size : lines.length using Nat.strong_induction_on generalizing lines nodes with
  | _ count ih =>
    cases lines with
    | nil =>
      rw [statements_nil] at found
      cases found
      simp
    | cons line rest =>
      obtain ⟨own, taken, later, run, further, rfl⟩ := statements_cons_eq_some.mp found
      intro statement member kind
      rw [List.append_assoc, List.mem_append, List.mem_append] at member
      rcases member with joined | here | behind
      · obtain ⟨token, aside, rfl⟩ := List.mem_map.mp joined
        obtain ⟨_, join⟩ := List.mem_filter.mp aside
        rw [Token.triviaNode, Node.kind, beq_iff_eq.mp join] at kind
        cases kind
      · rcases statement_eq_some.mp run with ⟨read, rfl⟩ | ⟨applied, below, _, _, rfl⟩ | ⟨head, node, read, built, rfl⟩
        · cases Line.read_upright read with
          | simple imports => exact ⟨line, List.mem_cons_self, imports statement here kind⟩
        · rw [List.mem_singleton.mp here] at kind
          cases kind
        · obtain ⟨body, inner, clauses, more, _, _, _, rfl⟩ := compound_eq_some.mp built
          rw [List.mem_singleton.mp here, Node.kind] at kind
          rcases Line.read_isSound read with other | ⟨_, other | other⟩ <;> cases other.symm.trans kind
      · have fewer : (rest.drop taken).length < count := by
          rw [← size, List.length_drop, List.length_cons]
          omega
        obtain ⟨other, among, stands⟩ := ih _ fewer further rfl statement behind kind
        exact ⟨other, List.mem_cons_of_mem _ (List.mem_of_mem_drop among), stands⟩

/-- A statement of a source that imports is rendered by its text on one line. -/
theorem renders_of_import {source : List Char} {tree statement : Node} (parsed : parse source = some tree)
    (member : statement ∈ tree.children) (kind : statement.kind = .importStatement) :
    Renders source statement (statement.collapsed source) := by
  obtain ⟨layout, laid, parsed⟩ := Option.bind_eq_some_iff.mp parsed
  obtain ⟨nodes, found, same⟩ := Option.bind_eq_some_iff.mp parsed
  cases same
  rcases List.mem_append.mp member with inside | joined
  · obtain ⟨line, among, stands⟩ := exists_stands_of_import found statement inside kind
    exact renders_of_stands laid among stands
  · obtain ⟨token, aside, rfl⟩ := List.mem_map.mp joined
    obtain ⟨_, join⟩ := List.mem_filter.mp aside
    rw [Token.triviaNode, Node.kind, beq_iff_eq.mp join] at kind
    cases kind

end SourceOutline.Python
