import SourceOutline.Proofs.Python.Definitions

/-! What stands on one line of a source, and what may span several lines. -/

namespace SourceOutline.Python

/-- A node whose places, at any depth, are ends of tokens of a line. -/
def Node.IsOn (line : Line) (node : Node) : Prop := ∃ numbered : Node, node = numbered.relocate line.place

/-- Relocated nodes are on the line. -/
theorem isOn_of_mem_relocateAll {line : Line} {numbered : List Node} {node : Node}
    (member : node ∈ Node.relocateAll line.place numbered) : node.IsOn line := by
  obtain ⟨old, _, same⟩ := exists_of_mem_relocateAll member
  exact ⟨old, same⟩

/-- A body on a line that extends to the end of the line is on the line. -/
theorem Node.IsOn.upTo {line : Line} {block : Node} (on : block.IsOn line) : (block.upTo line.stop).IsOn line := by
  obtain ⟨⟨kind, role, start, stop, parts⟩, rfl⟩ := on
  refine ⟨.mk kind role start ⟨2 * line.tokens.length, 0, 0⟩ parts, ?_⟩
  simp [Node.relocate, Node.upTo, Line.place]

/-- What stands on a line is on the line. -/
inductive Content.IsOn (line : Line) : Content → Prop where
  /-- Statements are on the line. -/
  | simple {found : List Node} (each : ∀ node ∈ found, node.IsOn line) : IsOn line (.simple found)
  /-- The parts of a decorator are on the line. -/
  | decorator {applied : List Node} (each : ∀ node ∈ applied, node.IsOn line) : IsOn line (.decorator applied)
  /-- The parts of a header and the body beside it are on the line. -/
  | header {head : Head} (parts : ∀ node ∈ head.parts, node.IsOn line)
    (body : ∀ block, head.body = some block → block.IsOn line) : IsOn line (.header head)

/-- What is read on a line is on the line. -/
theorem Line.read_isOn {line : Line} {grammar : Parse Content} {content : Content}
    (read : line.read grammar = some content) : content.IsOn line := by
  obtain ⟨⟨parsed, moved⟩, _, rfl⟩ := Option.map_eq_some_iff.mp read
  cases parsed with
  | simple found => exact .simple fun _ => isOn_of_mem_relocateAll
  | decorator applied => exact .decorator fun _ => isOn_of_mem_relocateAll
  | header head =>
    refine .header (fun _ => isOn_of_mem_relocateAll) fun block held => ?_
    obtain ⟨old, _, rfl⟩ := Option.map_eq_some_iff.mp held
    exact ⟨old, rfl⟩

/-- Nodes of the kind may extend over several lines. -/
def Kind.spansLines : Kind → Bool
  | .functionDefinition | .classDefinition | .decoratedDefinition | .statement | .clause | .block | .lineJoin => true
  | _ => false

/-- Nodes in the role may extend over several lines. -/
def Role.spansLines : Role → Bool
  | .part | .body | .definition => true
  | _ => false

/-- A node that is on one of the given lines, or that may extend over several lines and is made of such nodes. -/
inductive Node.Framed (given : List Line) : Node → Prop where
  /-- The node is on a line. -/
  | on {line : Line} {node : Node} (among : line ∈ given) (on : node.IsOn line) : Framed given node
  /-- The node is made of such nodes. -/
  | frame {kind : Kind} {role : Role} {start stop : Mark} {parts : List Node} (spans : kind.spansLines = true)
    (lower : role.spansLines = true) (inside : ∀ part ∈ parts, part.Framed given) :
    Framed given (.mk kind role start stop parts)

/-- Nodes that are on lines or made of such, one by one. -/
def AllFramed (given : List Line) (nodes : List Node) : Prop := ∀ node ∈ nodes, node.Framed given

section

variable {given : List Line}

/-- Nodes behind others are on lines or made of such. -/
theorem AllFramed.append {front back : List Node} (first : AllFramed given front) (later : AllFramed given back) :
    AllFramed given (front ++ back) := List.forall_mem_append.mpr ⟨first, later⟩

/-- A node alone. -/
theorem Node.Framed.alone {node : Node} (framed : node.Framed given) : AllFramed given [node] :=
  List.forall_mem_singleton.mpr framed

/-- Nodes on a line. -/
theorem AllFramed.on {line : Line} {nodes : List Node} (among : line ∈ given) (each : ∀ node ∈ nodes, node.IsOn line) :
    AllFramed given nodes := fun node member => .on among (each node member)

/-- Joins are made of nothing. -/
theorem framed_joins (notes : List Note) : AllFramed given (Line.joins notes) := by
  intro node member
  obtain ⟨token, among, rfl⟩ := List.mem_map.mp member
  obtain ⟨_, join⟩ := List.mem_filter.mp among
  rw [Token.triviaNode, beq_iff_eq.mp join]
  exact .frame rfl rfl fun part inside => absurd inside List.not_mem_nil

/-- The headers that a grammar finds are those of statements that may extend over several lines. -/
def ReadsSpans (grammar : Parse Content) : Prop :=
  ∀ line head, Line.read line grammar = some (.header head) → head.kind.spansLines = true

/-- The headers in blocks and modules are those of definitions and other statements. -/
theorem readsSpans_lineContent : ReadsSpans lineContent := by
  intro line head read
  rcases Line.read_isSound read with kind | ⟨_, kind | kind⟩ <;> rw [kind] <;> rfl

/-- Headers of clauses are those of clauses. -/
theorem readsSpans_of_clause {grammar : Parse Content}
    (clause : grammar.Finds fun content => ∃ head, content = .header head ∧ head.kind = .clause) :
    ReadsSpans grammar := by
  intro line head read
  obtain ⟨⟨parsed, moved⟩, run, same⟩ := Option.map_eq_some_iff.mp read
  obtain ⟨found, rfl, kind⟩ := clause _ _ _ run
  cases same
  show found.kind.spansLines = true
  rw [kind]
  rfl

/-- The headers in a body may extend over several lines. -/
theorem readsSpans_ite (cases : Bool) : ReadsSpans (if cases then caseContent else lineContent) := by
  cases cases
  · exact readsSpans_lineContent
  · exact readsSpans_of_clause finds_clause

mutual

/-- Statements are on the given lines or made of what is. -/
theorem statements_framed {grammar : Parse Content} {level : Nat} {tail : List Note} {lines : List Line}
    {nodes : List Node} (spans : ReadsSpans grammar) (among : ∀ line ∈ lines, line.opening ∈ given)
    (found : statements grammar level tail lines = some nodes) : AllFramed given nodes := by
  cases lines with
  | nil =>
    rw [statements_nil] at found
    cases found
    exact fun node member => absurd member List.not_mem_nil
  | cons line rest =>
    obtain ⟨here, taken, later, run, further, rfl⟩ := statements_cons_eq_some.mp found
    obtain ⟨first, below⟩ := List.forall_mem_cons.mp among
    have behind := statements_framed spans (fun line member => below line (List.mem_of_mem_drop member)) further
    exact ((framed_joins _).append (statement_framed spans first below run)).append behind
termination_by 4 * lines.length

/-- The statements that start on a given line are on it or made of what is on the lines. -/
theorem statement_framed {grammar : Parse Content} {level : Nat} {tail : List Note} {line : Line}
    {rest : List Line} {nodes : List Node} {taken : Nat} (spans : ReadsSpans grammar) (here : line.opening ∈ given)
    (below : ∀ line ∈ rest, line.opening ∈ given)
    (found : statement grammar level tail line rest = some (nodes, taken)) : AllFramed given nodes := by
  rcases statement_eq_some.mp found with ⟨read, rfl⟩ | ⟨applied, nodes, read, run, rfl⟩ |
    ⟨head, node, read, run, rfl⟩
  · cases Line.read_isOn read with
    | simple each => exact .on here each
  · cases Line.read_isOn read with
    | decorator each =>
      exact (Node.Framed.frame rfl rfl ((AllFramed.on here each).append (decorated_framed below run))).alone
  · exact (compound_framed (spans line head read) rfl here (Line.read_isOn read) below run).alone
termination_by 4 * rest.length + 3

/-- What decorators are applied to is made of what is on the given lines. -/
theorem decorated_framed {level : Nat} {tail : List Note} {lines : List Line} {nodes : List Node} {taken : Nat}
    (among : ∀ line ∈ lines, line.opening ∈ given)
    (found : decorated level tail lines = some (nodes, taken)) : AllFramed given nodes := by
  cases lines with
  | nil =>
    rw [decorated_nil] at found
    cases found
  | cons line rest =>
    obtain ⟨first, below⟩ := List.forall_mem_cons.mp among
    rcases decorated_cons_eq_some.mp found with ⟨applied, later, count, read, run, rfl, rfl⟩ |
      ⟨head, node, count, read, defines, run, rfl, rfl⟩
    · cases Line.read_isOn read with
      | decorator each => exact (AllFramed.on first each).append (decorated_framed below run)
    · have spans := readsSpans_lineContent line head read
      exact (compound_framed spans rfl first (Line.read_isOn read) below run).alone
termination_by 4 * lines.length + 2

/-- The statement of a header is made of what is on the given lines. -/
theorem compound_framed {level : Nat} {tail : List Note} {line : Line} {head : Head} {role : Role}
    {rest : List Line} {node : Node} {taken : Nat} (spans : head.kind.spansLines = true)
    (lower : role.spansLines = true) (here : line.opening ∈ given) (on : (Content.header head).IsOn line)
    (below : ∀ line ∈ rest, line.opening ∈ given)
    (found : compound level tail line head role rest = some (node, taken)) : node.Framed given := by
  obtain ⟨body, count, later, more, run, follow, rfl, rfl⟩ := compound_eq_some.mp found
  have block := suite_framed here on below run
  have clauses := clauses_framed (fun line member => below line (List.mem_of_mem_drop member)) follow
  cases on with
  | header parts _ => exact .frame spans lower ((AllFramed.on here parts).append (block.alone.append clauses))
termination_by 4 * rest.length + 2

/-- The body of a header is on its line or made of what is on the given lines. -/
theorem suite_framed {level : Nat} {tail : List Note} {line : Line} {head : Head} {rest : List Line}
    {body : Node} {taken : Nat} (here : line.opening ∈ given) (on : (Content.header head).IsOn line)
    (below : ∀ line ∈ rest, line.opening ∈ given)
    (found : suite level tail line head rest = some (body, taken)) : body.Framed given := by
  rcases suite_eq_some.mp found with ⟨block, held, rfl, rfl⟩ | ⟨_, _, rfl, rfl⟩ |
    ⟨first, later, children, _, lines, run, rfl, rfl⟩
  · cases on with
    | header _ body => exact .on here (body block held).upTo
  · exact .frame rfl rfl fun part member => absurd member List.not_mem_nil
  · have own := bodyLines_isPrefix level rest
    have fewer : later.length + 1 ≤ rest.length := by simpa [lines] using length_bodyLines_le level rest
    rw [lines] at own
    have among : ∀ line ∈ first :: later, line.opening ∈ given := fun line member => below line (own.subset member)
    obtain ⟨here, behind⟩ := List.forall_mem_cons.mp among
    -- The notes above the first line are none of the body's, and are left out anyway.
    have bare : Line.opening { first with notes := [] } ∈ given := here
    exact .frame rfl rfl (statements_framed (readsSpans_ite head.holdsCases)
      (List.forall_mem_cons.mpr ⟨bare, behind⟩) run)
termination_by 4 * rest.length + 1

/-- Clauses are made of what is on the given lines. -/
theorem clauses_framed {stage : Stage} {level : Nat} {tail : List Note} {lines : List Line} {nodes : List Node}
    {taken : Nat} (among : ∀ line ∈ lines, line.opening ∈ given)
    (found : clauses stage level tail lines = some (nodes, taken)) : AllFramed given nodes := by
  cases lines with
  | nil =>
    obtain ⟨_, rfl, _⟩ := clauses_nil_eq_some.mp found
    exact fun node member => absurd member List.not_mem_nil
  | cons line rest =>
    rcases clauses_cons_eq_some.mp found with ⟨_, _, rfl, rfl⟩ |
      ⟨next, head, body, count, later, more, follow, read, run, further, rfl, rfl⟩
    · exact fun node member => absurd member List.not_mem_nil
    · obtain ⟨first, below⟩ := List.forall_mem_cons.mp among
      have on := Line.read_isOn read
      have block := suite_framed first on below run
      have behind := clauses_framed (fun line member => below line (List.mem_of_mem_drop member)) further
      cases on with
      | header parts _ =>
        exact (Node.Framed.frame rfl rfl ((AllFramed.on first parts).append block.alone)).alone.append behind
termination_by 4 * lines.length + 1

end

/-- What a module is made of is on the lines of its source or made of what is. -/
theorem exists_framed {source : List Char} {tree : Node} (parsed : parse source = some tree) :
    ∃ layout, layoutOf source = some layout ∧ AllFramed (layout.lines.map Line.opening) tree.children := by
  obtain ⟨layout, laid, parsed⟩ := Option.bind_eq_some_iff.mp parsed
  obtain ⟨nodes, found, same⟩ := Option.bind_eq_some_iff.mp parsed
  cases same
  refine ⟨layout, laid, (statements_framed readsSpans_lineContent ?_ found).append (framed_joins _)⟩
  exact fun line member => List.mem_map_of_mem member

end

end SourceOutline.Python
