import SourceOutline.Proofs.Python.Definitions
import SourceOutline.Proofs.Python.Openings
import SourceOutline.Proofs.Python.Roundtrip

/-! The outline of a source lists the definitions and imports that are its own statements, and no others. -/

namespace SourceOutline.Python

/-- The definitions of a tree follow each other line by line, each starting with a word or mark for it. -/
structure Placed (source : List Char) (definitions : List Node) : Prop where
  /-- Each definition starts on a line below the one before. -/
  ordered : definitions.Pairwise fun above below => above.line < below.line
  /-- A word or mark for the definition is written where it starts. -/
  written : ∀ definition ∈ definitions, ∃ symbol ∈ definition.kind.openings,
    IsWritten source definition.start symbol.text

/-- What a list is related to holds something for each of its members. -/
theorem exists_related {α β : Type} {related : α → β → Prop} {values : List α} {others : List β}
    (each : List.Forall₂ related values others) : ∀ value ∈ values, ∃ other ∈ others, related value other := by
  induction each with
  | nil => exact fun value member => absurd member List.not_mem_nil
  | cons first _ ih =>
    refine List.forall_mem_cons.mpr ⟨⟨_, List.mem_cons_self, first⟩, fun value member => ?_⟩
    obtain ⟨other, among, same⟩ := ih value member
    exact ⟨other, .tail _ among, same⟩

/-- What a definition may start with is a word or a mark. -/
theorem text_ne_empty_of_openings {kind : Kind} {symbol : Symbol} (opens : symbol ∈ kind.openings) :
    symbol.text ≠ "" := by
  unfold Kind.openings at opens
  split at opens
  all_goals simp only [List.mem_cons, List.not_mem_nil, or_false] at opens
  · rcases opens with rfl | rfl <;> decide
  · subst opens
    decide
  · subst opens
    decide

/-- Definitions that start on lines of a source are placed. -/
theorem Placed.of_headed {source : List Char} {nodes : List Node} {openings : List Line}
    (each : List.Forall₂ HeadedBy nodes openings)
    (apart : openings.Pairwise fun above below => above.start.row < below.start.row)
    (said : ∀ opening ∈ openings, opening.firstSymbol.text ≠ "" →
      IsWritten source opening.start opening.firstSymbol.text) :
    Placed source nodes := by
  constructor
  · induction each with
    | nil => exact .nil
    | @cons node opening _ _ headed rest ih =>
      obtain ⟨below, apart⟩ := List.pairwise_cons.mp apart
      refine .cons (fun other member => ?_) (ih apart fun opening member => said opening (.tail _ member))
      obtain ⟨later, among, further⟩ := exists_related rest other member
      rw [Node.line, Node.line, headed.start, further.start]
      exact Nat.succ_lt_succ (below later among)
  · intro node member
    obtain ⟨opening, among, headed⟩ := exists_related each node member
    exact ⟨_, headed.opens, headed.start ▸ said opening among (text_ne_empty_of_openings headed.opens)⟩

/-- The tree of a source is a module made of proper nodes whose definitions are placed. -/
theorem proper_and_placed {source : List Char} {tree : Node} (parsed : parse source = some tree) :
    tree.kind = .module ∧ (∀ statement ∈ tree.children, statement.Proper) ∧ Placed source tree.definitions := by
  obtain ⟨layout, laid, kind, proper, chosen, some_lines, each⟩ := exists_laid parsed
  refine ⟨kind, proper, ?_⟩
  rw [definitions_eq, kind]
  refine .of_headed each (.sublist some_lines ?_) fun opening member said => ?_
  · have apart := starts_apart laid
    rw [List.pairwise_map] at apart ⊢
    exact apart
  · obtain ⟨line, among, rfl⟩ := List.mem_map.mp (some_lines.subset member)
    exact @isWritten_firstSymbol _ _ laid line among said

/-- The definitions in a part of a node are among those in the node. -/
theorem definitions_sublist {node part : Node} (member : part ∈ node.children) :
    part.definitions.Sublist node.definitions := by
  rw [definitions_eq node]
  obtain ⟨front, back, children⟩ := List.append_of_mem member
  rw [children, definitionsAll_append, Node.definitionsAll]
  exact (((List.sublist_append_left _ _).trans (List.sublist_append_right _ _)).trans
    (List.sublist_append_right _ _))

/-- Definitions on the same line are the same. -/
theorem Placed.eq_of_line {source : List Char} {definitions : List Node} (placed : Placed source definitions)
    {definition other : Node} (member : definition ∈ definitions) (among : other ∈ definitions)
    (same : definition.line = other.line) : definition = other := by
  have apart : (definitions.map Node.line).Nodup :=
    List.pairwise_map.mpr (placed.ordered.imp Nat.ne_of_lt)
  exact List.inj_on_of_nodup_map apart member among same

/-- The definitions of a kind that some statements are, below their decorators if they have any, each behind its
whole statement. -/
def definedIn (kind : Kind) (statements : List Node) : List (Node × Node) :=
  statements.flatMap fun statement =>
    if statement.kind = kind then [(statement, statement)]
    else if statement.kind = .decoratedDefinition then
      (statement.children.filter fun part => part.kind = kind).map (Prod.mk statement)
    else []

/-- The statements in the block of a definition. -/
def Node.body (definition : Node) : List Node :=
  (definition.children.filter fun part => part.kind = .block).flatMap Node.children

/-- The line of a definition, given with its whole statement, in a source with a tree: one of some words is written
there where the definition starts, decorators stand above it, and no other definition starts on it, however deeply
it is nested. -/
structure IsLineOf (source : List Char) (tree : Node) (words : List String) (found : Node × Node) (line : Nat) :
    Prop where
  /-- The line counts the line feeds before the word that the definition starts with. -/
  written : ∃ front word behind, word ∈ words ∧ source = front ++ word.toList ++ behind ∧
    found.2.start.offset = front.length ∧ line = front.count '\n' + 1
  /-- A decorated definition starts below the first decorator. -/
  below : found.1 = found.2 ∨ found.1.line < line
  /-- No other definition starts on the line. -/
  alone : ∀ definition ∈ tree.definitions, definition.line = line → definition = found.2

/-- Records are those of the functions that some statements define, one to one and in order. -/
def ListsFunctions (source : List Char) (tree : Node) (statements : List Node) (functions : List FunctionOutline) :
    Prop :=
  List.Forall₂ (fun found function => functionOutline source found.2 found.1 = some function ∧
    IsLineOf source tree ["def", "async"] found function.line)
    (definedIn .functionDefinition statements) functions

/-- Records are those of the classes that some statements define, one to one and in order, and so are their methods
those of the functions that the statements in their bodies define. -/
def ListsClasses (source : List Char) (tree : Node) (statements : List Node) (classes : List ClassOutline) : Prop :=
  List.Forall₂ (fun found owner => classOutline source found.2 found.1 = some (owner, []) ∧
    IsLineOf source tree ["class"] found owner.line ∧ ListsFunctions source tree found.2.body owner.methods)
    (definedIn .classDefinition statements) classes

/-- The outline of a source with a tree lists the definitions and the imports that are statements of the tree
itself, and nothing else. -/
structure Collects (source : List Char) (tree : Node) (listed : ModuleOutline) : Prop where
  /-- The functions are those that the statements define. -/
  functions : ListsFunctions source tree tree.children listed.functions
  /-- The classes are those that the statements define, with their methods. -/
  classes : ListsClasses source tree tree.children listed.classes
  /-- The imports are the statements that import. -/
  imports : listed.imports =
    (tree.children.filter fun statement => statement.kind = .importStatement).map (Node.collapsed source)
  /-- No function is a method as well. -/
  apart : ∀ function ∈ listed.functions, ∀ owner ∈ listed.classes, ∀ method ∈ owner.methods,
    function.line ≠ method.line
  /-- Nothing is exported. -/
  exports : listed.exports = []
  /-- Nothing is left out. -/
  omissions : listed.omissions = []

/-- A part of a header is of no kind that headers and decorators make. -/
theorem filter_kind_of_parts {nodes : List Node} (parts : AllParts nodes) {kind : Kind}
    (compound : kind.isCompound = true) : nodes.filter (fun node => node.kind = kind) = [] := by
  rw [List.filter_eq_nil_iff]
  intro node member same
  obtain ⟨role, upper, part⟩ := parts node member
  rw [← of_decide_eq_true same, part.plain] at compound
  cases compound

/-- A part of a header is in no role below headers and decorators. -/
theorem find?_role_of_parts {nodes : List Node} (parts : AllParts nodes) {role : Role} (lower : role.isLower = true) :
    nodes.find? (fun node => node.role == role) = none := by
  rw [List.find?_eq_none]
  intro node member same
  obtain ⟨own, upper, part⟩ := parts node member
  rw [← beq_iff_eq.mp same, part.role, upper] at lower
  cases lower

/-- Everything in a proper block is proper. -/
theorem Node.Proper.inside {block : Node} (proper : block.Proper) (kind : block.kind = .block) :
    ∀ statement ∈ block.children, statement.Proper := by
  cases proper with
  | part upper part => exact fun statement member => (part.parts statement member).proper
  | definition defines => rcases defines with rfl | rfl <;> cases kind
  | decorated => cases kind
  | compound other inside => exact inside

/-- A proper definition has a name, and a body whose statements are proper. -/
theorem Node.Proper.parts {definition : Node} (proper : definition.Proper)
    (defines : definition.kind = .functionDefinition ∨ definition.kind = .classDefinition) :
    (∃ name, definition.child? .name = some name) ∧
      ∃ body ∈ definition.children, definition.child? .body = some body ∧ definition.body = body.children ∧
        ∀ statement ∈ body.children, statement.Proper := by
  cases proper with
  | part upper part => rcases defines with kind | kind <;> cases kind ▸ part.plain
  | @definition _ _ _ _ parts body _ upper named block below inside =>
    obtain ⟨name, found⟩ := named
    refine ⟨⟨name, ?_⟩, body, List.mem_append_right _ List.mem_cons_self, ?_, ?_, inside.inside block⟩
    · rw [Node.child?, Node.children, List.find?_append, found]
      rfl
    · rw [Node.child?, Node.children, List.find?_append, find?_role_of_parts upper rfl]
      simp [below]
    · rw [Node.body, Node.children, List.filter_append, filter_kind_of_parts upper rfl]
      simp [block]
  | decorated => rcases defines with kind | kind <;> cases kind
  | compound other => rcases defines with rfl | rfl <;> cases other

/-- A proper statement is no definition, or one itself, or decorates one. -/
theorem Node.Proper.definitionOf_cases {statement : Node} (proper : statement.Proper) :
    statement.kind.defines = false ∧ definitionOf statement = none ∨
      (statement.kind = .functionDefinition ∨ statement.kind = .classDefinition) ∧
        definitionOf statement = some statement ∨
      ∃ applied definition, statement.kind = .decoratedDefinition ∧ statement.children = applied ++ [definition] ∧
        AllBare applied ∧ definitionOf statement = some definition ∧ definition.Proper ∧
        (definition.kind = .functionDefinition ∨ definition.kind = .classDefinition) := by
  have none_of_other : statement.kind.defines = false → definitionOf statement = none := by
    unfold definitionOf
    split <;> simp [*, Kind.defines]
  cases proper with
  | part upper part =>
    have other := defines_of_plain part.plain
    exact .inl ⟨other, none_of_other other⟩
  | definition defines =>
    refine .inr (.inl ⟨defines, ?_⟩)
    rcases defines with rfl | rfl <;> rfl
  | @decorated _ _ _ applied definition bare defines below proper =>
    refine .inr (.inr ⟨applied, definition, rfl, rfl, bare, ?_, proper, defines⟩)
    show (applied ++ [definition]).find? _ = _
    rw [List.find?_append, find?_role_of_parts bare.allParts rfl]
    simp [below]
  | compound other => exact .inl ⟨other, none_of_other other⟩

/-- What a proper statement defines is proper, and a function or a class among its own definitions; it is the
statement itself or one of its parts. -/
theorem Node.Proper.definition_of {statement definition : Node} (proper : statement.Proper)
    (found : definitionOf statement = some definition) :
    definition.Proper ∧ (definition.kind = .functionDefinition ∨ definition.kind = .classDefinition) ∧
      (statement = definition ∨ statement.kind = .decoratedDefinition ∧ definition ∈ statement.children) := by
  rcases proper.definitionOf_cases with ⟨_, none⟩ | ⟨defines, self⟩ |
    ⟨applied, inner, kind, children, _, some, inside, defines⟩
  · cases none.symm.trans found
  · cases self.symm.trans found
    exact ⟨proper, defines, .inl rfl⟩
  · cases some.symm.trans found
    exact ⟨inside, defines, .inr ⟨kind, by simp [children]⟩⟩

/-- What a proper statement defines is found alike in either way. -/
theorem Node.Proper.definedIn_eq {statement : Node} (proper : statement.Proper) {kind : Kind}
    (defines : kind = .functionDefinition ∨ kind = .classDefinition) :
    definedIn kind [statement] =
      ((definitionOf statement).filter fun definition => definition.kind = kind).toList.map (Prod.mk statement) := by
  have other : kind ≠ .decoratedDefinition := by rcases defines with rfl | rfl <;> decide
  have compound : kind.isCompound = true := by rcases defines with rfl | rfl <;> rfl
  rw [definedIn, List.flatMap_singleton]
  rcases proper.definitionOf_cases with ⟨plain, none⟩ | ⟨self, found⟩ |
    ⟨applied, inner, decorated, children, bare, found, _, _⟩
  · have apart : statement.kind ≠ kind := by
      rintro rfl
      rcases defines with same | same <;> rw [same] at plain <;> cases plain
    have undecorated : statement.kind ≠ .decoratedDefinition := fun same => by
      rw [same] at plain
      cases plain
    rw [if_neg apart, if_neg undecorated, none]
    rfl
  · have undecorated : statement.kind ≠ .decoratedDefinition := by
      rcases self with same | same <;> rw [same] <;> decide
    rw [found, if_neg undecorated]
    by_cases same : statement.kind = kind <;> simp [same, Option.filter]
  · rw [decorated, if_neg other.symm, if_pos rfl, children, List.filter_append,
      filter_kind_of_parts bare.allParts compound, found]
    by_cases same : inner.kind = kind <;> simp [same, Option.filter]

/-- A definition is among its own definitions. -/
theorem Node.mem_definitions_self {node : Node} (defines : node.kind.defines = true) : node ∈ node.definitions := by
  rw [definitions_eq, if_pos defines]
  exact List.mem_cons_self

/-- Functions and classes are definitions. -/
theorem Kind.defines_of_either {kind : Kind} (either : kind = .functionDefinition ∨ kind = .classDefinition) :
    kind.defines = true := by
  rcases either with rfl | rfl <;> rfl

/-- The line of a function is that of its definition. -/
theorem line_functionOutline {source : List Char} {definition span : Node} {function : FunctionOutline}
    (found : functionOutline source definition span = some function) : function.line = definition.line := by
  obtain ⟨name, _, rfl⟩ := Option.map_eq_some_iff.mp found
  -- Parameters do not change the line.
  have kept : ∀ (listed : List (String × Option String)) (start : FunctionOutline),
      (listed.foldl (fun outline parameter => outline.addParameter parameter.1 parameter.2) start).line =
        start.line := by
    intro listed
    induction listed with
    | nil => exact fun _ => rfl
    | cons first rest ih => exact fun start => ih (start.addParameter first.1 first.2)
  exact kept _ _

/-- The line of a class is that of its definition. -/
theorem line_classOutline {source : List Char} {definition span : Node} {found : ClassOutline × List Omission}
    (outlined : classOutline source definition span = some found) : found.1.line = definition.line := by
  obtain ⟨name, _, rfl⟩ := Option.map_eq_some_iff.mp outlined
  rfl

/-- Statements that define nothing have no functions and no classes. -/
theorem statementOutline_of_none {source : List Char} {statement : Node} (none : definitionOf statement = none) :
    (statementOutline source statement).functions = [] ∧ (statementOutline source statement).classes = [] := by
  constructor
  all_goals
    by_contra listed
    obtain ⟨definition, some⟩ := exists_definitionOf (by first | exact .inl listed | exact .inr listed)
    cases none.symm.trans some

section

variable {source : List Char} {definition span : Node}

/-- The outline of a function with a name holds the function. -/
theorem definitionOutline_function (kind : definition.kind = .functionDefinition) {function : FunctionOutline}
    (found : functionOutline source definition span = some function) :
    definitionOutline source definition span = { functions := [function] } := by
  rw [definitionOutline, kind]
  simp [found]

/-- The outline of a class with a name holds the class and the notes on it. -/
theorem definitionOutline_class (kind : definition.kind = .classDefinition) {owner : ClassOutline}
    {notes : List Omission} (found : classOutline source definition span = some (owner, notes)) :
    definitionOutline source definition span = { classes := [owner], omissions := notes } := by
  rw [definitionOutline, kind]
  simp [found]

/-- A proper definition has an outline as a function. -/
theorem exists_functionOutline (source : List Char) (span : Node) (proper : definition.Proper)
    (defines : definition.kind = .functionDefinition ∨ definition.kind = .classDefinition) :
    ∃ function, functionOutline source definition span = some function := by
  obtain ⟨⟨name, named⟩, _⟩ := proper.parts defines
  exact ⟨_, Option.map_eq_some_iff.mpr ⟨name, named, rfl⟩⟩

end

/-- The methods of a statement in a class are its functions, and there is nothing to note. -/
theorem methodOutline_eq {source : List Char} {statement : Node} (proper : statement.Proper) :
    methodOutline source statement = ((statementOutline source statement).functions, []) := by
  unfold methodOutline
  cases found : definitionOf statement with
  | none => rw [(statementOutline_of_none found).1]
  | some definition =>
    obtain ⟨inside, defines, _⟩ := proper.definition_of found
    rw [statementOutline_of_definitionOf found]
    rcases defines with kind | kind
    · obtain ⟨function, outlined⟩ := exists_functionOutline source statement inside (.inl kind)
      rw [definitionOutline_function kind outlined]
      simp [kind, outlined]
    · rw [definitionOutline, kind]
      cases classOutline source definition statement <;> simp [kind]

/-- What is told of the parts of a node is told of its named ones. -/
theorem flatMap_namedChildren {α : Type} {told : ModuleOutline → List α} (silent : told {} = [])
    (source : List Char) (node : Node) :
    (node.namedChildren.flatMap fun statement => told (statementOutline source statement)) =
      node.children.flatMap fun statement => told (statementOutline source statement) := by
  rw [Node.namedChildren]
  induction node.children with
  | nil => rfl
  | cons first rest ih =>
    rw [List.filter_cons, List.flatMap_cons]
    split
    · rw [List.flatMap_cons, ih]
    · rename_i unnamed
      have kind : first.kind = .asyncKeyword := by simpa [Node.isNamed] using unnamed
      rw [ih, statementOutline, kind, silent, List.nil_append]

/-- A proper class has an outline, in which its methods are the functions of the statements in its body. -/
theorem exists_classOutline {source : List Char} {definition : Node} (span : Node) (proper : definition.Proper)
    (kind : definition.kind = .classDefinition) :
    ∃ owner, classOutline source definition span = some (owner, []) ∧
      owner.methods = definition.body.flatMap fun statement => (statementOutline source statement).functions := by
  obtain ⟨⟨name, named⟩, body, _, below, statements, inside⟩ := proper.parts (.inr kind)
  have methods : body.namedChildren.map (methodOutline source) =
      body.namedChildren.map fun statement => ((statementOutline source statement).functions, []) :=
    List.map_congr_left fun statement member => methodOutline_eq (inside statement (List.mem_filter.mp member).1)
  refine ⟨_, Option.map_eq_some_iff.mpr ⟨name, named, Prod.ext rfl ?_⟩, ?_⟩
  · simp [below, methods, List.flatMap_map]
  · rw [statements, ← flatMap_namedChildren rfl]
    simp [below, methods, List.flatMap_map]

/-- Records of statements one by one are those of all of them. -/
theorem forall₂_definedIn {α : Type} {related : Node × Node → α → Prop} {kind : Kind} {records : Node → List α}
    {statements : List Node}
    (each : ∀ statement ∈ statements, List.Forall₂ related (definedIn kind [statement]) (records statement)) :
    List.Forall₂ related (definedIn kind statements) (statements.flatMap records) := by
  induction statements with
  | nil => exact .nil
  | cons first rest ih =>
    obtain ⟨here, behind⟩ := List.forall_mem_cons.mp each
    exact List.rel_append (by simpa [definedIn] using here) (ih behind)

/-- The definitions in what a proper statement defines are among those in the statement. -/
theorem definitionOf_sublist {statement definition : Node} (proper : statement.Proper)
    (found : definitionOf statement = some definition) :
    definition.definitions.Sublist statement.definitions := by
  obtain ⟨_, _, same | ⟨_, member⟩⟩ := proper.definition_of found
  · exact same ▸ .refl _
  · exact definitions_sublist member

/-- What a proper statement defines is among the definitions in the statement. -/
theorem mem_definitions_of_definitionOf {statement definition : Node} (proper : statement.Proper)
    (found : definitionOf statement = some definition) : definition ∈ statement.definitions := by
  obtain ⟨_, defines, _⟩ := proper.definition_of found
  exact (definitionOf_sublist proper found).subset (Node.mem_definitions_self (Kind.defines_of_either defines))

/-- The statements in the body of a proper definition are proper, and their definitions are among its own. -/
theorem Node.Proper.body {definition : Node} (proper : definition.Proper)
    (defines : definition.kind = .functionDefinition ∨ definition.kind = .classDefinition) :
    ∀ statement ∈ definition.body,
      statement.definitions.Sublist definition.definitions ∧ statement.Proper := by
  obtain ⟨_, body, below, _, statements, inside⟩ := proper.parts defines
  rw [statements]
  exact fun statement member =>
    ⟨(definitions_sublist member).trans (definitions_sublist below), inside statement member⟩

/-- What is found among statements is what one of them defines. -/
theorem mem_definedIn {statements : List Node} (proper : ∀ statement ∈ statements, statement.Proper) {kind : Kind}
    (defines : kind = .functionDefinition ∨ kind = .classDefinition) {found : Node × Node}
    (member : found ∈ definedIn kind statements) :
    found.1 ∈ statements ∧ definitionOf found.1 = some found.2 ∧ found.2.kind = kind := by
  obtain ⟨statement, among, member⟩ := List.mem_flatMap.mp member
  have alone : found ∈ definedIn kind [statement] := by simpa [definedIn] using member
  rw [(proper statement among).definedIn_eq defines] at alone
  obtain ⟨definition, listed, rfl⟩ := List.mem_map.mp alone
  obtain ⟨defined, same⟩ := Option.filter_eq_some_iff.mp (Option.mem_toList.mp listed)
  exact ⟨among, defined, of_decide_eq_true same⟩

section

variable {source : List Char} {tree : Node} (placed : Placed source tree.definitions)

include placed

/-- What a statement of the tree defines has a line of its own. -/
theorem isLineOf {statement definition : Node} (among : statement.definitions.Sublist tree.definitions)
    (proper : statement.Proper) (found : definitionOf statement = some definition) (words : List String)
    (said : ∀ symbol ∈ definition.kind.openings, symbol.text ∈ words) :
    IsLineOf source tree words (statement, definition) definition.line := by
  have member := among.subset (mem_definitions_of_definitionOf proper found)
  refine ⟨?_, ?_, fun other above same => placed.eq_of_line above member same⟩
  · obtain ⟨symbol, opens, written⟩ := placed.written definition member
    obtain ⟨front, behind, whole, offset, row⟩ := written.place
    exact ⟨front, symbol.text, behind, said symbol opens, whole, offset, congrArg (· + 1) row⟩
  · obtain ⟨_, defines, same | ⟨decorated, part⟩⟩ := proper.definition_of found
    · exact .inl same
    · have ordered := placed.ordered.sublist among
      rw [definitions_eq, if_pos (by rw [decorated]; rfl), List.singleton_append] at ordered
      refine .inr ((List.pairwise_cons.mp ordered).1 definition ?_)
      rw [definitionsAll_eq, List.mem_flatMap]
      exact ⟨definition, part, Node.mem_definitions_self (Kind.defines_of_either defines)⟩

/-- The functions of statements of the tree are those that they define. -/
theorem listsFunctions {statements : List Node}
    (each : ∀ statement ∈ statements, statement.definitions.Sublist tree.definitions ∧ statement.Proper) :
    ListsFunctions source tree statements
      (statements.flatMap fun statement => (statementOutline source statement).functions) := by
  refine forall₂_definedIn fun statement member => ?_
  obtain ⟨among, proper⟩ := each statement member
  rw [proper.definedIn_eq (.inl rfl)]
  cases found : definitionOf statement with
  | none =>
    rw [(statementOutline_of_none found).1]
    exact .nil
  | some definition =>
    obtain ⟨inside, defines, _⟩ := proper.definition_of found
    rw [statementOutline_of_definitionOf found]
    rcases defines with kind | kind
    · obtain ⟨function, outlined⟩ := exists_functionOutline source statement inside (.inl kind)
      rw [definitionOutline_function kind outlined]
      have line := isLineOf placed among proper found ["def", "async"] (by simp [kind, Kind.openings, Symbol.text])
      rw [← line_functionOutline outlined] at line
      simpa [Option.filter, kind] using ⟨outlined, line⟩
    · obtain ⟨owner, outlined, _⟩ := exists_classOutline statement inside kind
      rw [definitionOutline_class kind outlined]
      simp [Option.filter, kind]

/-- The classes of statements of the tree are those that they define, and so are their methods. -/
theorem listsClasses {statements : List Node}
    (each : ∀ statement ∈ statements, statement.definitions.Sublist tree.definitions ∧ statement.Proper) :
    ListsClasses source tree statements
      (statements.flatMap fun statement => (statementOutline source statement).classes) := by
  refine forall₂_definedIn fun statement member => ?_
  obtain ⟨among, proper⟩ := each statement member
  rw [proper.definedIn_eq (.inr rfl)]
  cases found : definitionOf statement with
  | none =>
    rw [(statementOutline_of_none found).2]
    exact .nil
  | some definition =>
    obtain ⟨inside, defines, _⟩ := proper.definition_of found
    rw [statementOutline_of_definitionOf found]
    rcases defines with kind | kind
    · obtain ⟨function, outlined⟩ := exists_functionOutline source statement inside (.inl kind)
      rw [definitionOutline_function kind outlined]
      simp [Option.filter, kind]
    · obtain ⟨owner, outlined, methods⟩ := exists_classOutline statement inside kind
      rw [definitionOutline_class kind outlined]
      have line := isLineOf placed among proper found ["class"] (by simp [kind, Kind.openings, Symbol.text])
      rw [← line_classOutline outlined] at line
      have within : ListsFunctions source tree definition.body owner.methods := by
        rw [methods]
        refine listsFunctions placed fun below member => ?_
        obtain ⟨lower, inner⟩ := inside.body (.inr kind) below member
        exact ⟨lower.trans ((definitionOf_sublist proper found).trans among), inner⟩
      simpa [Option.filter, kind] using ⟨outlined, line, within⟩

end

/-- The definitions in one node start on other lines than those in another. -/
def OnOtherLines (first second : Node) : Prop :=
  ∀ definition ∈ first.definitions, ∀ other ∈ second.definitions, definition.line ≠ other.line

/-- It does not matter which node is the other one. -/
instance : Std.Symm OnOtherLines :=
  ⟨fun _ _ apart definition inner other within same => apart other within definition inner same.symm⟩

/-- Statements that differ have their definitions on different lines. -/
theorem Placed.onOtherLines {source : List Char} {statements : List Node}
    (placed : Placed source (Node.definitionsAll statements)) {first second : Node} (member : first ∈ statements)
    (among : second ∈ statements) (differ : first ≠ second) : OnOtherLines first second := by
  have ordered := placed.ordered
  rw [definitionsAll_eq, List.pairwise_flatMap] at ordered
  have apart : statements.Pairwise OnOtherLines :=
    ordered.2.imp fun lower definition inner other within => Nat.ne_of_lt (lower definition inner other within)
  exact apart.forall member among differ

/-- What is told of a source is told of the statements of its tree one by one. -/
theorem told_treeOutline {α : Type} (told : ModuleOutline → List α) (silent : told {} = [])
    (joined : ∀ first second, told (first ++ second) = told first ++ told second) (source : List Char) (tree : Node) :
    told (treeOutline source tree) =
      tree.children.flatMap fun statement => told (statementOutline source statement) := by
  rw [← flatMap_namedChildren silent, treeOutline]
  induction tree.namedChildren with
  | nil => exact silent
  | cons first rest ih => rw [List.map_cons, List.foldr_cons, joined, ih, List.flatMap_cons]

/-- Definitions neither import nor export. -/
theorem definitionOutline_silent (source : List Char) (definition span : Node) :
    (definitionOutline source definition span).imports = [] ∧
      (definitionOutline source definition span).exports = [] := by
  unfold definitionOutline
  split
  · split <;> exact ⟨rfl, rfl⟩
  · split <;> exact ⟨rfl, rfl⟩
  · exact ⟨rfl, rfl⟩

/-- A statement is listed as an import when it is one, and never exports. -/
theorem statementOutline_imports (source : List Char) (statement : Node) :
    (statementOutline source statement).imports =
        (if statement.kind = .importStatement then [statement.collapsed source] else []) ∧
      (statementOutline source statement).exports = [] := by
  unfold statementOutline
  split
  · simp [*, definitionOutline_silent]
  · simp [*, definitionOutline_silent]
  · split <;> simp [*, definitionOutline_silent]
  · simp [*]
  · rename_i other
    exact ⟨(if_neg other).symm, rfl⟩

/-- The imports of a tree are its statements that import. -/
theorem imports_treeOutline (source : List Char) (tree : Node) :
    (treeOutline source tree).imports =
      (tree.children.filter fun statement => statement.kind = .importStatement).map (Node.collapsed source) := by
  simp only [told_treeOutline ModuleOutline.imports rfl fun _ _ => rfl, statementOutline_imports]
  induction tree.children with
  | nil => rfl
  | cons first rest ih => by_cases kind : first.kind = .importStatement <;> simp [kind, ih]

/-- A proper statement leaves nothing out. -/
theorem statementOutline_omissions {statement : Node} (proper : statement.Proper) (source : List Char) :
    (statementOutline source statement).omissions = [] := by
  cases found : definitionOf statement with
  | none =>
    rcases proper.definitionOf_cases with ⟨plain, _⟩ | ⟨_, self⟩ | ⟨_, _, _, _, _, some, _⟩
    · unfold statementOutline
      split
      all_goals simp [*, Kind.defines] at plain ⊢
    · cases found.symm.trans self
    · cases found.symm.trans some
  | some definition =>
    obtain ⟨inside, defines, _⟩ := proper.definition_of found
    rw [statementOutline_of_definitionOf found]
    rcases defines with kind | kind
    · obtain ⟨function, outlined⟩ := exists_functionOutline source statement inside (.inl kind)
      rw [definitionOutline_function kind outlined]
    · obtain ⟨owner, outlined, _⟩ := exists_classOutline statement inside kind
      rw [definitionOutline_class kind outlined]

/-- No function among the statements of a tree is on the line of a method of a class among them. -/
theorem line_ne_line_of_method {source : List Char} {tree : Node} {listed : ModuleOutline}
    (placed : Placed source (Node.definitionsAll tree.children))
    (proper : ∀ statement ∈ tree.children, statement.Proper)
    (functions : ListsFunctions source tree tree.children listed.functions)
    (classes : ListsClasses source tree tree.children listed.classes) {function method : FunctionOutline}
    {owner : ClassOutline} (member : function ∈ listed.functions) (among : owner ∈ listed.classes)
    (own : method ∈ owner.methods) : function.line ≠ method.line := by
  obtain ⟨⟨first, definition⟩, found, outlined, _⟩ := exists_related functions.flip function member
  obtain ⟨⟨second, owning⟩, found', _, _, methods⟩ := exists_related classes.flip owner among
  obtain ⟨inside, defined, kind⟩ := mem_definedIn proper (.inl rfl) found
  obtain ⟨inside', defined', kind'⟩ := mem_definedIn proper (.inr rfl) found'
  -- The method is defined somewhere in the statement of its class.
  obtain ⟨proper', defines', _⟩ := (proper second inside').definition_of defined'
  obtain ⟨⟨third, inner⟩, below, outlined', _⟩ := exists_related methods.flip method own
  obtain ⟨within, innermost, _⟩ :=
    mem_definedIn (fun statement member => (proper'.body defines' statement member).2) (.inl rfl) below
  obtain ⟨lower, properly⟩ := proper'.body defines' third within
  have nested := (lower.trans (definitionOf_sublist (proper second inside') defined')).subset
    (mem_definitions_of_definitionOf properly innermost)
  -- It is another statement than that of the function, since one statement defines one thing.
  have differ : first ≠ second := by
    rintro rfl
    cases defined.symm.trans defined'
    cases kind.symm.trans kind'
  rw [line_functionOutline outlined, line_functionOutline outlined']
  exact placed.onOtherLines inside inside' differ definition
    (mem_definitions_of_definitionOf (proper first inside) defined) inner nested

/-- The outline of an accepted source lists exactly the definitions and imports that are statements of its tree. -/
theorem outline_collects {source : List Char} {listed : ModuleOutline} (accepted : outline source = .ok listed) :
    ∃ tree, parse source = some tree ∧ Collects source tree listed := by
  obtain ⟨tree, parsed, _, rfl⟩ := outline_eq_ok.mp accepted
  obtain ⟨kind, proper, placed⟩ := proper_and_placed parsed
  have each : ∀ statement ∈ tree.children, statement.definitions.Sublist tree.definitions ∧ statement.Proper :=
    fun statement member => ⟨definitions_sublist member, proper statement member⟩
  have functions := listsFunctions placed each
  have classes := listsClasses placed each
  rw [← told_treeOutline ModuleOutline.functions rfl fun _ _ => rfl] at functions
  rw [← told_treeOutline ModuleOutline.classes rfl fun _ _ => rfl] at classes
  have below : Placed source (Node.definitionsAll tree.children) := by
    rw [definitions_eq, kind] at placed
    exact placed
  refine ⟨tree, parsed, functions, classes, imports_treeOutline source tree, fun function member owner among method
    own => line_ne_line_of_method below proper functions classes member among own, ?_, ?_⟩
  · rw [told_treeOutline ModuleOutline.exports rfl fun _ _ => rfl, List.flatMap_eq_nil_iff]
    exact fun statement _ => (statementOutline_imports source statement).2
  · rw [told_treeOutline ModuleOutline.omissions rfl fun _ _ => rfl, List.flatMap_eq_nil_iff]
    exact fun statement member => statementOutline_omissions (proper statement member) source

/-- Decorated and asynchronous definitions are listed at their own words, nested ones nowhere. -/
theorem outline_collects_nested :
    let source := ("import a\n@d\nasync def f():\n    def g(): pass\nif f:\n    from b import c\n" ++
      "class C:\n    @e\n    def m(self): pass\n    class D: pass\n").toList
    ∃ listed, outline source = .ok listed ∧
      listed.functions.map (fun function => (function.name, function.line)) = [("f", 3)] ∧
      listed.classes.map (fun owner => (owner.name, owner.line)) = [("C", 7)] ∧
      (listed.classes.flatMap fun owner => owner.methods.map fun method => (method.name, method.line)) = [("m", 9)] ∧
      listed.imports = ["import a"] ∧ ∃ tree, parse source = some tree ∧ Collects source tree listed := by
  intro source
  have records : (outline source).toOption.map (fun listed =>
      (listed.functions.map (fun function => (function.name, function.line)),
        listed.classes.map (fun owner => (owner.name, owner.line)),
        listed.classes.flatMap (fun owner => owner.methods.map fun method => (method.name, method.line)),
        listed.imports)) = some ([("f", 3)], [("C", 7)], [("m", 9)], ["import a"]) := by
    decide +kernel
  cases accepted : outline source with
  | error failure => simp [accepted, Except.toOption] at records
  | ok listed =>
    simp only [accepted, Except.toOption, Option.map_some, Option.some.injEq, Prod.mk.injEq] at records
    exact ⟨listed, rfl, records.1, records.2.1, records.2.2.1, records.2.2.2, outline_collects accepted⟩

end SourceOutline.Python
