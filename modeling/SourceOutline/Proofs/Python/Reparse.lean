import SourceOutline.Proofs.Python.Stretch

/-! A definition at the top is found again, as the only statement, when its own text is parsed. -/

namespace SourceOutline.Python

/-- Every statement of a block starts on one of its lines, or is a join above one of them. -/
theorem exists_statement_of_mem {grammar : Parse Content} {level : Nat} {tail : List Note}
    {lines : List Line} {nodes : List Node} {node : Node}
    (found : statements grammar level tail lines = some nodes) (member : node ∈ nodes) :
    (∃ notes, node ∈ Line.joins notes) ∨
      ∃ before line rest own taken, lines = before ++ line :: rest ∧
        statement grammar level tail line rest = some (own, taken) ∧ node ∈ own := by
  match lines, found with
  | [], found =>
    rw [statements_nil] at found
    cases found
    exact absurd member List.not_mem_nil
  | line :: rest, found =>
    obtain ⟨own, taken, later, first, behind, rfl⟩ := statements_cons_eq_some.mp found
    rcases List.mem_append.mp member with inside | inside
    · rcases List.mem_append.mp inside with join | inside
      · exact .inl ⟨line.notes, join⟩
      · exact .inr ⟨[], line, rest, own, taken, rfl, first, inside⟩
    · rcases exists_statement_of_mem behind inside with join | ⟨before, next, more, own, count, split, run, inside⟩
      · exact .inl join
      · refine .inr ⟨line :: (rest.take taken ++ before), next, more, own, count, ?_, run, inside⟩
        rw [List.cons_append, List.append_assoc, ← split, List.take_append_drop]
termination_by lines.length
decreasing_by
  simp only [List.length_drop, List.length_cons]
  omega

/-- A join is no definition. -/
theorem defines_of_mem_joins {notes : List Note} {node : Node} (member : node ∈ Line.joins notes) :
    node.kind.defines = false := by
  obtain ⟨token, join, rfl⟩ := List.mem_map.mp member
  have symbol := (List.mem_filter.mp join).2
  simp only [beq_iff_eq] at symbol
  simp [Token.triviaNode, Node.kind, symbol, Kind.defines]

/-- Comments leave no joins. -/
theorem joins_eq_nil {notes : List Note} (comments : ∀ note ∈ notes, note.token.symbol = .comment) :
    Line.joins notes = [] := by
  induction notes with
  | nil => rfl
  | cons note rest ih =>
    have later := ih fun other member => comments other (List.mem_cons_of_mem note member)
    rw [Line.joins] at later ⊢
    rw [List.map_cons, List.filter_cons, comments note List.mem_cons_self]
    exact later

/-- A line and those below it end where a layout of them does. -/
theorem endOf_of_stop? {line first : Line} {below : List Line} {notes : List Note} {stop : Mark}
    (ends : Layout.stop? ⟨first :: below, notes⟩ = some stop) (tokens : first.tokens = line.tokens) :
    endOf (below.getLast?.getD line) notes = stop := by
  rw [← Option.some_inj, ← ends]
  have same : first.stop = line.stop := by rw [Line.stop, Line.stop, tokens]
  rw [Layout.stop?, endOf, List.getLast?_cons]
  cases notes.getLast? with
  | some note => rfl
  | none =>
    cases below.getLast? with
    | some last => rfl
    | none => exact congrArg some same.symm

/-- The only statement on all of some lines is the only statement of a block. -/
theorem statements_alone {grammar : Parse Content} {level : Nat} {tail : List Note} {line : Line}
    {rest : List Line} {node : Node} (bare : line.notes = [])
    (found : statement grammar level tail line rest = some ([node], rest.length)) :
    statements grammar level tail (line :: rest) = some [node] := by
  refine statements_cons_eq_some.mpr ⟨_, _, [], found, ?_, ?_⟩
  · rw [List.drop_length, statements_nil]
  · rw [bare]
    rfl

/-- A statement starts on one of some lines at a level, given the notes behind all lines: it is found there, above
lines that need not be all of those below. -/
def Begins (tail : List Note) (lines : List Line) (level : Nat) (node : Node) : Prop :=
  ∃ before line rest further copy own taken, lines = before ++ line :: (rest ++ further) ∧
    copy.tokens = line.tokens ∧
    statement lineContent level (notesBehind tail further) copy rest = some (own, taken) ∧ node ∈ own

/-- A node of a source that is found in a text of its own. -/
structure Excerpt (source : List Char) (node : Node) (front text back : List Char) (again : Node) : Prop where
  /-- The text stands in the source. -/
  whole : source = front ++ (text ++ back)
  /-- The node starts where the text does. -/
  start : node.start = Mark.pass {} front
  /-- The node ends where the text does. -/
  stop : node.stop = node.start.pass text
  /-- The node is found at corresponding places. -/
  alike : Node.Alike (Corresponds node.start text) node again
  /-- The text ends with a token. -/
  solid : ∃ found, pieces text = some found ∧ found ≠ [] ∧ EndsSolid found

/-- The lines of a text hold a statement at a level and nothing else. -/
def IsAlone (level : Nat) (text : List Char) (node : Node) : Prop :=
  ∃ line rest notes, layoutOf text = some ⟨line :: rest, notes⟩ ∧ line.notes = [] ∧ Line.joins notes = [] ∧
    statement lineContent level notes line rest = some ([node], rest.length)

/-- The text of a definition that starts on a line holds the definition and nothing else. -/
theorem exists_alone {source : List Char} {layout : Layout} (laid : layoutOf source = some layout) {level : Nat}
    {node : Node} (begins : Begins layout.notes layout.lines level node) (defines : node.kind.defines = true) :
    ∃ front text back again, Excerpt source node front text back again ∧ IsAlone level text again := by
  obtain ⟨before, line, rest, further, copy, own, taken, lines, tokens, run, inside⟩ := begins
  obtain ⟨_, starts, fewer, count, comments, ends, detached⟩ := statement_detached run inside defines
  have behind : notesBehind (notesBehind layout.notes further) (rest.drop taken) =
      notesBehind layout.notes ((rest ++ further).drop taken) := by
    rw [List.drop_append_of_le_length fewer]
    cases rest.drop taken <;> rfl
  rw [behind] at comments ends detached
  obtain ⟨front, text, back, whole, start, ⟨⟨⟨lines', notes'⟩, laid', ⟨alike, notes⟩⟩, stop, solid⟩⟩ :=
    exists_stretch laid lines comments
  rw [List.take_append_of_le_length fewer] at alike stop
  have same : copy.start = line.start := by rw [Line.start, Line.start, tokens]
  obtain ⟨line', rest', first, later, rfl⟩ := List.forall₂_cons_left_iff.mp alike
  have here : Line.ReadAlike (Corresponds line.start text) copy line' := by
    refine ⟨?_, ?_⟩ <;> rw [tokens]
    · exact first.tokens
    · exact first.some_token
  obtain ⟨again, run', nodes⟩ := detached _ line' rest' notes' here later notes
  have taken_eq : rest'.length = taken := by
    rw [← later.length_eq, List.length_take_of_le fewer]
  have bare : line'.notes = [] := List.forall₂_nil_left_iff.mp first.notes
  rw [← taken_eq] at run'
  have no_joins := joins_alike notes
  rw [joins_eq_nil comments, List.forall₂_nil_left_iff] at no_joins
  refine ⟨front, text, back, again, ⟨whole, starts.trans (same.trans start), ?_, ?_, solid⟩,
    line', rest', notes', laid', bare, no_joins, run'⟩
  · rw [ends, starts, same]
    exact endOf_of_stop? stop tokens.symm
  · rwa [starts, same]

/-- A node of a source that stands alone in a text of its own. -/
structure Parted (source : List Char) (node : Node) (front text back : List Char) (again : Node) : Prop
    extends Excerpt source node front text back again where
  /-- The text holds nothing but the node. -/
  parsed : parse text = some (.mk .module .part {} (Mark.pass {} text) [again])

/-- What is alone on the lines of a text at the outermost level is the only statement of the text. -/
theorem IsAlone.parse_eq {text : List Char} {node : Node} (alone : IsAlone 0 text node) :
    parse text = some (.mk .module .part {} (Mark.pass {} text) [node]) := by
  obtain ⟨line, rest, notes, laid, bare, no_joins, run⟩ := alone
  rw [parse, laid]
  simp [statements_alone bare run, no_joins]

/-- A definition among the statements on some lines starts on one of them. -/
theorem begins_of_mem {level : Nat} {tail : List Note} {lines : List Line} {nodes : List Node} {node : Node}
    (found : statements lineContent level tail lines = some nodes) (member : node ∈ nodes)
    (defines : node.kind.defines = true) : Begins tail lines level node := by
  rcases exists_statement_of_mem found member with ⟨_, join⟩ | ⟨before, line, rest, own, taken, whole, run, inside⟩
  · rw [defines_of_mem_joins join] at defines
    cases defines
  · exact ⟨before, line, rest, [], line, own, taken, by rw [whole, List.append_nil], rfl, run, inside⟩

/-- A definition at the top of a source starts on one of its lines. -/
theorem begins_of_parse {source : List Char} {tree node : Node} (parsed : parse source = some tree)
    (member : node ∈ tree.children) (defines : node.kind.defines = true) :
    ∃ layout, layoutOf source = some layout ∧ Begins layout.notes layout.lines 0 node := by
  obtain ⟨layout, laid, parsed⟩ := Option.bind_eq_some_iff.mp parsed
  obtain ⟨nodes, found, same⟩ := Option.bind_eq_some_iff.mp parsed
  cases same
  have no_join : node ∉ Line.joins layout.notes := fun join => by
    rw [defines_of_mem_joins join] at defines
    cases defines
  exact ⟨layout, laid, begins_of_mem found ((List.mem_append.mp member).resolve_right no_join) defines⟩

/-- The text of a definition at the top holds the definition and nothing else. -/
theorem exists_parted_of_defines {source : List Char} {tree node : Node}
    (parsed : parse source = some tree) (member : node ∈ tree.children)
    (defines : node.kind.defines = true) :
    ∃ front text back again, Parted source node front text back again := by
  obtain ⟨layout, laid, begins⟩ := begins_of_parse parsed member defines
  obtain ⟨front, text, back, again, excerpt, alone⟩ := exists_alone laid begins defines
  exact ⟨front, text, back, again, excerpt, alone.parse_eq⟩

end SourceOutline.Python
