import SourceOutline.Proofs.Python.BareLines
import SourceOutline.Proofs.Python.Detaching
import SourceOutline.Proofs.Python.Standing

/-! The definitions of a tree: how each of them is built, and that each has a line of its own. -/

namespace SourceOutline.Python

mutual

/-- The definitions in a node at any depth, the node itself among them, in the order of the source. -/
def Node.definitions : Node → List Node
  | .mk kind role start stop children =>
    -- What stands below decorators is listed next to the whole.
    if kind.defines then .mk kind role start stop children :: Node.definitionsAll children
    else Node.definitionsAll children

/-- The definitions in some nodes at any depth. -/
def Node.definitionsAll : List Node → List Node
  | [] => []
  | node :: rest => node.definitions ++ Node.definitionsAll rest

end

/-- The definitions in some nodes are those in each of them. -/
theorem definitionsAll_eq (nodes : List Node) : Node.definitionsAll nodes = nodes.flatMap Node.definitions := by
  induction nodes with
  | nil => rfl
  | cons node rest ih => rw [Node.definitionsAll, ih, List.flatMap_cons]

/-- The definitions in nodes are those in the ones in front and in those behind. -/
theorem definitionsAll_append (front back : List Node) :
    Node.definitionsAll (front ++ back) = Node.definitionsAll front ++ Node.definitionsAll back := by
  simp only [definitionsAll_eq, List.flatMap_append]

/-- The definitions in a node are itself, if it is one, and those in its parts. -/
theorem definitions_eq (node : Node) :
    node.definitions = (if node.kind.defines then [node] else []) ++ Node.definitionsAll node.children := by
  cases node with
  | mk kind role start stop children =>
    rw [Node.definitions, Node.kind, Node.children]
    split <;> rfl

/-- A node that needs no header is no definition. -/
theorem defines_of_plain {kind : Kind} (plain : kind.isCompound = false) : kind.defines = false := by
  rw [Bool.eq_false_iff]
  exact fun defines => Bool.eq_false_iff.mp plain (isCompound_of_defines defines)

/-- There are no definitions in a bare node. -/
theorem Node.Bare.definitions_eq_nil {node : Node} (bare : node.Bare) : node.definitions = [] := by
  induction bare with
  | @mk node plain inside parts ih =>
    rw [definitions_eq, defines_of_plain plain, definitionsAll_eq]
    simpa using ih

/-- There are no definitions in bare nodes. -/
theorem AllBare.definitionsAll_eq_nil {nodes : List Node} (bare : AllBare nodes) :
    Node.definitionsAll nodes = [] := by
  rw [definitionsAll_eq, List.flatMap_eq_nil_iff]
  exact fun node member => (bare node member).definitions_eq_nil

/-- There are no definitions in the parts of a header. -/
theorem AllParts.definitionsAll_eq_nil {nodes : List Node} (parts : AllParts nodes) :
    Node.definitionsAll nodes = [] := by
  rw [definitionsAll_eq, List.flatMap_eq_nil_iff]
  intro node member
  obtain ⟨role, _, part⟩ := parts node member
  rw [definitions_eq, part.parts.definitionsAll_eq_nil, defines_of_plain part.plain]
  rfl

/-- A bare node stays bare when it is moved. -/
theorem Node.Bare.relocate {node : Node} (bare : node.Bare) (move : Mark → Mark) : (node.relocate move).Bare := by
  induction bare with
  | @mk node plain inside parts ih =>
    refine .mk (by rwa [kind_relocate]) (by rwa [role_relocate]) fun part member => ?_
    rw [children_relocate] at member
    obtain ⟨old, above, rfl⟩ := List.mem_map.mp member
    exact ih old above

/-- Bare nodes stay bare when they are moved. -/
theorem AllBare.relocate {nodes : List Node} (bare : AllBare nodes) (move : Mark → Mark) :
    AllBare (Node.relocateAll move nodes) := by
  rw [relocateAll_eq_map]
  intro node member
  obtain ⟨old, above, rfl⟩ := List.mem_map.mp member
  exact (bare old above).relocate move

/-- The parts of a header stay such when they are moved. -/
theorem AllParts.relocate {nodes : List Node} (parts : AllParts nodes) (move : Mark → Mark) :
    AllParts (Node.relocateAll move nodes) := by
  rw [relocateAll_eq_map]
  intro node member
  obtain ⟨old, above, rfl⟩ := List.mem_map.mp member
  obtain ⟨role, upper, part⟩ := parts old above
  refine ⟨role, upper, by rw [kind_relocate]; exact part.plain, by rw [role_relocate]; exact part.role, ?_⟩
  rw [children_relocate, ← relocateAll_eq_map]
  exact part.parts.relocate move

/-- What stands on a line stays bare when it is moved. -/
theorem Content.Bare.relocate {content : Content} (bare : content.Bare) (move : Mark → Mark) :
    (content.relocate move).Bare := by
  cases bare with
  | simple bare => exact .simple (bare.relocate move)
  | decorator bare => exact .decorator (bare.relocate move)
  | header parts body =>
    refine .header (parts.relocate move) fun block held => ?_
    obtain ⟨old, above, rfl⟩ := Option.map_eq_some_iff.mp held
    obtain ⟨kind, role, children⟩ := body old above
    refine ⟨by rwa [kind_relocate], by rwa [role_relocate], ?_⟩
    rw [children_relocate, ← relocateAll_eq_map]
    exact children.relocate move

/-- What is read on a line is bare. -/
theorem Line.read_bare {grammar : Parse Content} (finds : grammar.Finds Content.Bare) {line : Line}
    {content : Content} (read : line.read grammar = some content) : content.Bare := by
  obtain ⟨⟨parsed, moved⟩, run, rfl⟩ := Option.map_eq_some_iff.mp read
  exact (finds _ _ _ run).relocate line.place

/-- The tokens that a definition of the kind may start with. -/
def Kind.openings : Kind → List Symbol
  | .functionDefinition => [.word "def", .word "async"]
  | .classDefinition => [.word "class"]
  | .decoratedDefinition => [.operator "@"]
  | _ => []

/-- What stands on a line starts with the token: a decorator or the header of a definition. -/
def Content.Opens (symbol : Symbol) : Content → Prop
  | .simple _ => True
  | .decorator _ => symbol ∈ Kind.decoratedDefinition.openings
  | .header head => head.kind.defines = true → symbol ∈ head.kind.openings

/-- A header starts with the token when definitions of its kind do. -/
theorem finds_opens {kind : Kind} {stage : Stage} {parts : Parse (List Node)} {symbol : Symbol}
    (opens : kind.defines = true → symbol ∈ kind.openings) : (header kind stage parts).Finds (Content.Opens symbol) :=
  .behind parts fun _ => .behind lineBody fun _ => .pure opens

/-- Statements without a body may start with anything. -/
theorem finds_opens_simple {symbol : Symbol} : simpleContent.Finds (Content.Opens symbol) :=
  .behind simpleLine fun _ => .pure trivial

/-- Definitions and decorators start with their words and marks. -/
theorem opens_lineContent {cursor moved : Cursor} {content : Content}
    (run : lineContent cursor = some (content, moved)) :
    ∃ symbol settled, Parse.next cursor = some (symbol, settled) ∧ content.Opens symbol := by
  obtain ⟨symbol, settled, asked, found⟩ := Parse.bind_eq_some.mp run
  refine ⟨symbol, settled, asked, ?_⟩
  split at found
  case h_1 | h_2 | h_3 | h_4 | h_5 => exact finds_opens (fun defines => by cases defines) _ _ _ found
  case h_6 | h_7 => exact finds_opens (fun _ => by simp [Kind.openings]) _ _ _ found
  case h_8 =>
    have finds : decoratorContent.Finds (Content.Opens (.operator "@")) :=
      .behind _ fun _ => .behind _ fun _ => .behind _ fun _ => .pure List.mem_cons_self
    exact finds _ _ _ found
  case h_9 =>
    refine Parse.Finds.behind Parse.afterNext (fun second => ?_) _ _ _ found
    split
    · exact finds_opens fun _ => by simp [Kind.openings]
    · exact finds_opens fun defines => by cases defines
    · exact finds_opens fun defines => by cases defines
    · exact finds_opens_simple
  case h_10 =>
    have subject : matchContent.Finds (Content.Opens (.word "match")) :=
      .behind _ fun _ => .behind _ fun _ => .behind _ fun _ => .behind _ fun _ => .pure fun defines => by cases defines
    refine Parse.Finds.bind (.attempt subject) (fun tried opens => ?_) _ _ _ found
    split
    · exact .pure (opens _ rfl)
    · exact finds_opens_simple
  case h_11 => exact finds_opens_simple _ _ _ found

/-- A line that starts with a token and holds nothing but its tokens. -/
abbrev Line.Begins (line : Line) : Prop := line.Fits line.tokens

/-- The parser of a line sees first what the line starts with. -/
theorem Line.Begins.next {line : Line} (begins : line.Begins) :
    ∃ settled, Parse.next { tokens := line.numberedTokens, limit := line.numberedTokens.length } =
      some (line.firstSymbol, settled) := by
  obtain ⟨token, rest, tokens, written⟩ := begins.first
  obtain ⟨later, numbered⟩ : ∃ later, line.numberedTokens = Line.numbered 0 token.symbol :: later := by
    rw [Line.numberedTokens, tokens, List.map_cons, List.cons_append, List.mapIdx_cons]
    exact ⟨_, rfl⟩
  have plain : token.symbol.isTrivia = false := by simpa [Token.isWritten] using written
  rw [Parse.next_eq]
  refine ⟨_, congrArg some (Prod.ext ?_ rfl)⟩
  simp [Cursor.settle, numbered, Python.passTrivia, plain, Line.firstSymbol, tokens, Line.numbered]

/-- The header of a line: its parts and the body on the line are made of what is bare, and when it is that of a
definition, it is what is read on the line, is the header of a function or a class, has no further clauses, names
what it defines and starts with the word for it. -/
structure Head.Proper (line : Line) (head : Head) : Prop where
  /-- The parts are made of what is bare. -/
  parts : AllParts head.parts
  /-- The body on the line holds what is bare. -/
  body : ∀ body, head.body = some body → IsBareBody body
  /-- Only functions and classes are defined. -/
  defines : head.kind.defines = true → head.kind = .functionDefinition ∨ head.kind = .classDefinition
  /-- No clauses follow a definition. -/
  closed : head.kind.defines = true → head.stage = .closed
  /-- A definition has a name. -/
  named : head.kind.defines = true → ∃ name, (head.parts.find? fun part => part.role == .name) = some name
  /-- A definition starts with its word. -/
  opens : head.kind.defines = true → line.firstSymbol ∈ head.kind.openings
  /-- A definition is read on the line. -/
  read : head.kind.defines = true → line.read lineContent = some (.header head)

/-- What stands on a line: bare statements, a bare decorator behind its mark, or a header. -/
inductive Content.Proper (line : Line) : Content → Prop where
  /-- Statements are bare. -/
  | simple {found : List Node} (bare : AllBare found) : Proper line (.simple found)
  /-- A decorator stands behind its mark. -/
  | decorator {applied : List Node} (bare : AllBare applied)
    (opens : line.firstSymbol ∈ Kind.decoratedDefinition.openings) : Proper line (.decorator applied)
  /-- A header is proper. -/
  | header {head : Head} (proper : head.Proper line) : Proper line (.header head)

/-- What a grammar finds on a line is proper. -/
def ReadsProper (grammar : Parse Content) : Prop :=
  ∀ line : Line, line.Begins → ∀ content, line.read grammar = some content → content.Proper line

/-- The lines of blocks and modules are proper. -/
theorem readsProper_lineContent : ReadsProper lineContent := by
  intro line begins content read
  have bare := Line.read_bare bare_lineContent read
  have sound := Line.read_isSound read
  have spelled := begins.read (fun _ => lineContent_spec) read
  have opens : content.Opens line.firstSymbol := by
    obtain ⟨⟨parsed, moved⟩, run, rfl⟩ := Option.map_eq_some_iff.mp read
    obtain ⟨settled, first⟩ := begins.next
    obtain ⟨symbol, _, asked, opens⟩ := opens_lineContent run
    cases first.symm.trans asked
    cases parsed <;> exact opens
  cases bare with
  | simple bare => exact .simple bare
  | decorator bare => exact .decorator bare opens
  | @header head parts body =>
    have named : head.kind.isPlain = true ∨
        (head.kind = .functionDefinition ∨ head.kind = .classDefinition) ∧ StartsNamed head.parts := by
      cases spelled with
      | header spelled => exact spelled.named
    have either : head.kind.defines = true →
        head.stage = .closed ∧ (head.kind = .functionDefinition ∨ head.kind = .classDefinition) := by
      rcases sound with other | both
      · rw [other]
        exact fun defines => by cases defines
      · exact fun _ => both
    refine .header ⟨parts, body, fun defines => (either defines).2, fun defines => (either defines).1,
      fun defines => ?_, opens, fun _ => read⟩
    rcases named with plain | ⟨_, name, found, _⟩
    · rcases (either defines).2 with kind | kind <;> rw [kind] at plain <;> cases plain
    · exact ⟨name, found⟩

/-- Lines that hold headers of clauses only are proper. -/
theorem readsProper_of_clause {grammar : Parse Content} (bare : grammar.Finds Content.Bare)
    (clause : grammar.Finds fun content => ∃ head, content = .header head ∧ head.kind = .clause) :
    ReadsProper grammar := by
  intro line begins content read
  have bare := Line.read_bare bare read
  obtain ⟨⟨parsed, moved⟩, run, rfl⟩ := Option.map_eq_some_iff.mp read
  obtain ⟨head, rfl, kind⟩ := clause _ _ _ run
  cases bare with
  | header parts body =>
    have other : ∀ {property : Prop}, head.kind.defines = true → property := by
      rw [kind]
      exact fun defines => by cases defines
    exact .header ⟨parts, body, other, other, other, other, other⟩

/-- A header of a clause is found as one. -/
theorem finds_clause {stage : Stage} {parts : Parse (List Node)} :
    (header .clause stage parts).Finds fun content => ∃ head, content = .header head ∧ head.kind = .clause :=
  .behind parts fun _ => .behind lineBody fun _ => .pure ⟨_, rfl, rfl⟩

/-- The lines of clauses are proper. -/
theorem readsProper_clauseContent (word : String) : ReadsProper (clauseContent word) := by
  refine readsProper_of_clause (bare_clauseContent word) ?_
  unfold clauseContent
  split <;> exact finds_clause

/-- The lines that a body is read from are proper. -/
theorem readsProper_ite (cases : Bool) : ReadsProper (if cases then caseContent else lineContent) := by
  cases cases
  · exact readsProper_lineContent
  · exact readsProper_of_clause bare_caseContent finds_clause

/-- A node that is built from lines: one without a header of its own, a definition with its name and its body, a definition below
decorators, or any other node made of such. -/
inductive Node.Proper : Node → Prop where
  /-- Nothing in the node needs a header. -/
  | part {role : Role} {node : Node} (upper : role.isLower = false) (part : node.IsPart role) : Proper node
  /-- A definition has a name, and ends in the only block it holds. -/
  | definition {kind : Kind} {role : Role} {start stop : Mark} {parts : List Node} {body : Node}
    (defines : kind = .functionDefinition ∨ kind = .classDefinition) (upper : AllParts parts)
    (named : ∃ name, (parts.find? fun part => part.role == .name) = some name) (block : body.kind = .block)
    (below : body.role = .body) (inside : body.Proper) : Proper (.mk kind role start stop (parts ++ [body]))
  /-- Below decorators stands one definition. -/
  | decorated {role : Role} {start stop : Mark} {applied : List Node} {definition : Node}
    (bare : AllBare applied) (defines : definition.kind = .functionDefinition ∨ definition.kind = .classDefinition)
    (below : definition.role = .definition) (proper : definition.Proper) :
    Proper (.mk .decoratedDefinition role start stop (applied ++ [definition]))
  /-- Any other node is made of such nodes. -/
  | compound {kind : Kind} {role : Role} {start stop : Mark} {parts : List Node} (other : kind.defines = false)
    (inside : ∀ part ∈ parts, part.Proper) : Proper (.mk kind role start stop parts)

/-- A bare node is proper. -/
theorem Node.Bare.proper {node : Node} (bare : node.Bare) : node.Proper :=
  .part (isLower_of_isInner bare.inside) ⟨bare.plain, rfl, bare.children⟩

/-- A definition starts on a line, on which its header is read unless it is one below decorators. -/
structure HeadedBy (node : Node) (line : Line) : Prop where
  /-- It starts where the line does. -/
  start : node.start = line.start
  /-- It starts with one of its tokens. -/
  opens : line.firstSymbol ∈ node.kind.openings
  /-- Its parts are those of the header and its body. -/
  header : node.kind ≠ .decoratedDefinition → ∃ head body, line.read lineContent = some (.header head) ∧
    head.kind = node.kind ∧ node.children = head.parts ++ [body] ∧ body.role = .body

/-- Nodes are built from the given lines: each definition in them has a line of its own to
start with, and these lines follow each other as the definitions do. -/
structure Laid (openings : List Line) (nodes : List Node) : Prop where
  /-- The nodes are built from lines. -/
  proper : ∀ node ∈ nodes, node.Proper
  /-- The definitions start with some of the lines, in order. -/
  headed : ∃ chosen, chosen.Sublist openings ∧ List.Forall₂ HeadedBy (Node.definitionsAll nodes) chosen

namespace Laid

variable {openings others : List Line} {nodes further : List Node}

/-- The parts of a header need no further lines. -/
theorem of_parts (parts : AllParts nodes) : Laid openings nodes := by
  refine ⟨fun node member => ?_, [], List.nil_sublist _, ?_⟩
  · obtain ⟨role, upper, part⟩ := parts node member
    exact .part upper part
  · rw [parts.definitionsAll_eq_nil]
    exact .nil

/-- Bare nodes need no lines. -/
theorem of_bare (bare : AllBare nodes) : Laid openings nodes := of_parts bare.allParts

/-- More lines do no harm. -/
theorem mono (laid : Laid openings nodes) (more : openings.Sublist others) : Laid others nodes := by
  obtain ⟨chosen, some_lines, each⟩ := laid.headed
  exact ⟨laid.proper, chosen, some_lines.trans more, each⟩

/-- Nodes that follow each other as their lines do. -/
theorem append (laid : Laid openings nodes) (later : Laid others further) :
    Laid (openings ++ others) (nodes ++ further) := by
  obtain ⟨chosen, some_lines, each⟩ := laid.headed
  obtain ⟨chosen', some_lines', each'⟩ := later.headed
  refine ⟨List.forall_mem_append.mpr ⟨laid.proper, later.proper⟩, chosen ++ chosen',
    some_lines.append some_lines', ?_⟩
  rw [definitionsAll_append]
  exact List.rel_append each each'

/-- A node that is no definition has the definitions of its parts. -/
theorem compound {kind : Kind} {role : Role} {start stop : Mark} (other : kind.defines = false)
    (laid : Laid openings nodes) : Laid openings [.mk kind role start stop nodes] := by
  obtain ⟨chosen, some_lines, each⟩ := laid.headed
  refine ⟨List.forall_mem_singleton.mpr (.compound other laid.proper), chosen, some_lines, ?_⟩
  rw [Node.definitionsAll, Node.definitionsAll, List.append_nil, definitions_eq, Node.kind, other]
  exact each

/-- A definition starts with the first line, and those in its parts with later ones. -/
theorem node {opening : Line} {node : Node} (proper : node.Proper)
    (headed : node.kind.defines = true → HeadedBy node opening) (laid : Laid openings node.children) :
    Laid (opening :: openings) [node] := by
  obtain ⟨chosen, some_lines, each⟩ := laid.headed
  refine ⟨List.forall_mem_singleton.mpr proper, ?_⟩
  rw [Node.definitionsAll, Node.definitionsAll, List.append_nil, definitions_eq]
  cases defines : node.kind.defines with
  | true => exact ⟨opening :: chosen, some_lines.cons_cons opening, .cons (headed defines) each⟩
  | false => exact ⟨chosen, some_lines.cons opening, each⟩

/-- A node that is laid alone is built from lines. -/
theorem proper_of_alone {node : Node} (laid : Laid openings [node]) : node.Proper :=
  laid.proper node List.mem_cons_self

end Laid

/-- A line without the notes above it. -/
def Line.opening (line : Line) : Line := { line with notes := [] }

/-- Joins above a line are bare. -/
theorem bare_joins (notes : List Note) : AllBare (Line.joins notes) := by
  intro node member
  obtain ⟨token, _, rfl⟩ := List.mem_map.mp member
  exact bare_triviaNode token

/-- A body on the line of its header needs no further lines wherever it ends, and is a block. -/
theorem IsBareBody.upTo {openings : List Line} {block : Node} (body : IsBareBody block) (stop : Mark) :
    Laid openings [block.upTo stop] ∧ (block.upTo stop).kind = .block ∧ (block.upTo stop).role = .body := by
  obtain ⟨kind, role, start, other, parts⟩ := block
  obtain ⟨rfl, rfl, bare⟩ := body
  exact ⟨.compound rfl (.of_bare bare), rfl, rfl⟩

/-- A statement of a header is built from lines when its body and its clauses are. -/
theorem Head.Proper.build {line : Line} {head : Head} {role : Role} {start stop : Mark} {body : Node}
    {later : List Node} (proper : head.Proper line) (block : body.kind = .block) (below : body.role = .body)
    (alone : head.kind.defines = true → later = []) (inside : ∀ node ∈ body :: later, node.Proper) :
    (Node.mk head.kind role start stop (head.parts ++ body :: later)).Proper := by
  cases defines : head.kind.defines with
  | true =>
    cases alone defines
    exact .definition (proper.defines defines) proper.parts (proper.named defines) block below
      (inside body List.mem_cons_self)
  | false =>
    refine .compound defines fun part member => ?_
    rcases List.mem_append.mp member with above | among
    · obtain ⟨role, upper, own⟩ := proper.parts part above
      exact .part upper own
    · exact inside part among

mutual

/-- Statements are built from their lines. -/
theorem statements_laid {grammar : Parse Content} {level : Nat} {tail : List Note} {lines : List Line}
    {nodes : List Node} (reads : ReadsProper grammar) (begins : ∀ line ∈ lines, line.Begins)
    (found : statements grammar level tail lines = some nodes) : Laid (lines.map Line.opening) nodes := by
  cases lines with
  | nil =>
    rw [statements_nil] at found
    cases found
    exact .of_bare allBare_nil
  | cons line rest =>
    obtain ⟨here, taken, later, run, further, rfl⟩ := statements_cons_eq_some.mp found
    obtain ⟨first, below⟩ := List.forall_mem_cons.mp begins
    have joins : Laid [] (Line.joins line.notes) := .of_bare (bare_joins line.notes)
    have above := statement_laid reads first below run
    have behind := statements_laid reads (fun line member => below line (List.mem_of_mem_drop member)) further
    have all := (joins.append above).append behind
    rwa [List.nil_append, ← List.map_append, List.cons_append, List.take_append_drop] at all
termination_by 4 * lines.length

/-- The statements that start on a line are built from it and the lines they take. -/
theorem statement_laid {grammar : Parse Content} {level : Nat} {tail : List Note} {line : Line}
    {rest : List Line} {nodes : List Node} {taken : Nat} (reads : ReadsProper grammar) (begins : line.Begins)
    (below : ∀ line ∈ rest, line.Begins)
    (found : statement grammar level tail line rest = some (nodes, taken)) :
    Laid ((line :: rest.take taken).map Line.opening) nodes := by
  rcases statement_eq_some.mp found with ⟨read, rfl⟩ | ⟨applied, nodes, read, run, rfl⟩ |
    ⟨head, node, read, run, rfl⟩
  · cases reads line begins _ read with
    | simple bare => exact .of_bare bare
  · cases reads line begins _ read with
    | decorator bare opens =>
      obtain ⟨decorators, definition, rfl, others, defines, lower, laid⟩ := decorated_laid below run
      have front : Laid [] (applied ++ decorators) := .of_bare (bare.append others)
      have all := front.append laid
      rw [List.nil_append, List.append_assoc] at all
      refine .node ?_ (fun _ => ⟨rfl, opens, fun other => absurd rfl other⟩) all
      rw [← List.append_assoc]
      exact .decorated (bare.append others) defines lower laid.proper_of_alone
  · cases reads line begins _ read with
    | header proper => exact compound_laid proper below run
termination_by 4 * rest.length + 3

/-- What decorators are applied to is built from its lines, behind further decorators. -/
theorem decorated_laid {level : Nat} {tail : List Note} {lines : List Line} {nodes : List Node} {taken : Nat}
    (begins : ∀ line ∈ lines, line.Begins)
    (found : decorated level tail lines = some (nodes, taken)) :
    ∃ decorators definition, nodes = decorators ++ [definition] ∧ AllBare decorators ∧
      (definition.kind = .functionDefinition ∨ definition.kind = .classDefinition) ∧
      definition.role = .definition ∧ Laid ((lines.take taken).map Line.opening) [definition] := by
  cases lines with
  | nil =>
    rw [decorated_nil] at found
    cases found
  | cons line rest =>
    obtain ⟨first, below⟩ := List.forall_mem_cons.mp begins
    rcases decorated_cons_eq_some.mp found with ⟨applied, later, count, read, run, rfl, rfl⟩ |
      ⟨head, node, count, read, defines, run, rfl, rfl⟩
    · cases readsProper_lineContent line first _ read with
      | decorator bare opens =>
        obtain ⟨decorators, definition, rfl, others, defines, lower, laid⟩ := decorated_laid below run
        refine ⟨applied ++ decorators, definition, by simp, bare.append others, defines, lower, laid.mono ?_⟩
        exact (List.sublist_cons_self _ _).map _
    · cases readsProper_lineContent line first _ read with
      | header proper =>
        have laid := compound_laid proper below run
        obtain ⟨body, _, later, _, _, _, _, rfl⟩ := compound_eq_some.mp run
        exact ⟨[], _, rfl, allBare_nil, defines, rfl, laid⟩
termination_by 4 * lines.length + 2

/-- The statement of a header is built from its line and the lines it takes. -/
theorem compound_laid {level : Nat} {tail : List Note} {line : Line} {head : Head} {role : Role}
    {rest : List Line} {node : Node} {taken : Nat}
    (proper : head.Proper line) (below : ∀ line ∈ rest, line.Begins)
    (found : compound level tail line head role rest = some (node, taken)) :
    Laid ((line :: rest.take taken).map Line.opening) [node] := by
  obtain ⟨body, count, later, more, run, follow, rfl, rfl⟩ := compound_eq_some.mp found
  obtain ⟨laid, block, lower⟩ := suite_laid proper below run
  have further := clauses_laid (fun line member => below line (List.mem_of_mem_drop member)) follow
  have inside := laid.append further
  rw [← List.map_append, ← List.take_add, List.singleton_append] at inside
  have parts : Laid [] head.parts := .of_parts proper.parts
  have alone : head.kind.defines = true → later = [] := fun defines => by
    rw [proper.closed defines] at follow
    exact (clauses_closed.mp follow).1
  refine .node (proper.build block lower alone inside.proper) (fun defines => ?_) (parts.append inside)
  exact ⟨rfl, proper.opens defines, fun _ => ⟨head, body, proper.read defines, rfl, by rw [alone defines]; rfl, lower⟩⟩
termination_by 4 * rest.length + 2

/-- The body of a header is built from the lines it takes, and is a block. -/
theorem suite_laid {level : Nat} {tail : List Note} {line : Line} {head : Head} {rest : List Line}
    {body : Node} {taken : Nat}
    (proper : head.Proper line) (below : ∀ line ∈ rest, line.Begins)
    (found : suite level tail line head rest = some (body, taken)) :
    Laid ((rest.take taken).map Line.opening) [body] ∧ body.kind = .block ∧ body.role = .body := by
  rcases suite_eq_some.mp found with ⟨block, given, rfl, rfl⟩ | ⟨given, empty, rfl, rfl⟩ |
    ⟨first, later, children, given, lines, run, rfl, rfl⟩
  · exact (proper.body block given).upTo line.stop
  · exact ⟨.compound rfl (.of_bare allBare_nil), rfl, rfl⟩
  · have own := List.prefix_iff_eq_take.mp (bodyLines_isPrefix level rest)
    rw [lines, List.length_cons] at own
    have fewer : later.length + 1 ≤ rest.length := by simpa [lines] using length_bodyLines_le level rest
    have begins : ∀ line ∈ first :: later, line.Begins := by
      rw [own]
      exact fun line member => below line (List.mem_of_mem_take member)
    obtain ⟨here, behind⟩ := List.forall_mem_cons.mp begins
    -- The notes above the first line are none of the body's; its tokens stay.
    have bare : Line.Begins { first with notes := [] } := ⟨here.tokens, here.first⟩
    have laid := statements_laid (readsProper_ite head.holdsCases) (List.forall_mem_cons.mpr ⟨bare, behind⟩) run
    rw [← own]
    exact ⟨.compound rfl laid, rfl, rfl⟩
termination_by 4 * rest.length + 1

/-- Clauses are built from the lines they take. -/
theorem clauses_laid {stage : Stage} {level : Nat} {tail : List Note} {lines : List Line} {nodes : List Node}
    {taken : Nat} (begins : ∀ line ∈ lines, line.Begins)
    (found : clauses stage level tail lines = some (nodes, taken)) :
    Laid ((lines.take taken).map Line.opening) nodes := by
  cases lines with
  | nil =>
    obtain ⟨_, rfl, _⟩ := clauses_nil_eq_some.mp found
    exact .of_bare allBare_nil
  | cons line rest =>
    rcases clauses_cons_eq_some.mp found with ⟨_, _, rfl, rfl⟩ |
      ⟨next, head, body, count, later, more, follow, read, run, further, rfl, rfl⟩
    · exact .of_bare allBare_nil
    · obtain ⟨first, below⟩ := List.forall_mem_cons.mp begins
      cases readsProper_clauseContent _ line first _ read with
      | header proper =>
        obtain ⟨laid, _, _⟩ := suite_laid proper below run
        have behind := clauses_laid (fun line member => below line (List.mem_of_mem_drop member)) further
        have parts : Laid [] head.parts := .of_parts proper.parts
        have clause : Laid ((rest.take count).map Line.opening)
            [.mk .clause .part line.start body.stop (head.parts ++ [body])] := (parts.append laid).compound rfl
        refine (clause.append behind).mono ?_
        rw [← List.map_append, ← List.take_add, List.take_succ_cons]
        exact (List.sublist_cons_self _ _).map _
termination_by 4 * lines.length + 1

end

/-- The tree of a source is a module built from the lines of the source. -/
theorem exists_laid {source : List Char} {tree : Node} (parsed : parse source = some tree) :
    ∃ layout, layoutOf source = some layout ∧ tree.kind = .module ∧
      Laid (layout.lines.map Line.opening) tree.children := by
  obtain ⟨layout, laid, parsed⟩ := Option.bind_eq_some_iff.mp parsed
  obtain ⟨nodes, found, same⟩ := Option.bind_eq_some_iff.mp parsed
  cases same
  have begins : ∀ line ∈ layout.lines, line.Begins := fun line among =>
    ⟨fun _ member => member, exists_written laid among⟩
  have joins : Laid [] (Line.joins layout.notes) := .of_bare (bare_joins layout.notes)
  have all := (statements_laid readsProper_lineContent begins found).append joins
  rw [List.append_nil] at all
  exact ⟨layout, laid, rfl, all⟩

end SourceOutline.Python
