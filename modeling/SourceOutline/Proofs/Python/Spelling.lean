import Mathlib
import SourceOutline.Proofs.Python.Heads

/-! What the grammar builds nodes from: every name and every quote is a single token of its line. -/

namespace SourceOutline.Python

open Std.Do

set_option mvcgen.warning false

/-- A token that is neither a comment nor a join. -/
def Token.isWritten (token : Token) : Bool := !token.symbol.isTrivia

/-- A place at either end of a written token. -/
def Beside (given : List Token) (mark : Mark) : Prop :=
  ∃ token ∈ given, token.isWritten = true ∧ (mark = token.start ∨ mark = token.stop)

/-- Two places between which a written token stands alone. -/
def Encloses (given : List Token) (start stop : Mark) : Prop :=
  ∃ token ∈ given, token.isWritten = true ∧ token.start = start ∧ token.stop = stop

/-- Nodes of the kind are single tokens. -/
def Kind.isToken : Kind → Bool
  | .identifier | .stringStart | .stringEnd => true
  | _ => false

/-- The name of a node of the kind is an identifier. -/
def Kind.isNamed : Kind → Bool
  | .functionDefinition | .classDefinition | .typedDefaultParameter => true
  | _ => false

/-- Nodes of the kind have a default value. -/
def Kind.isDefaulted : Kind → Bool
  | .defaultParameter | .typedDefaultParameter => true
  | _ => false

/-- A typed parameter may start with a node of the kind: with a name, or with what stands behind stars. -/
def Kind.opensTyped : Kind → Bool
  | .identifier | .listSplat | .dictionarySplat => true
  | _ => false

/-- Nothing is asked of nodes of the kind but what is asked of their parts. -/
def Kind.isPlain : Kind → Bool
  | .identifier | .stringStart | .stringEnd => false
  | .functionDefinition | .classDefinition | .decoratedDefinition => false
  | .typedParameter | .typedDefaultParameter | .defaultParameter => false
  | _ => true

/-- What is asked of a node: tokens stand alone, definitions start with a token, and names are identifiers,
except that a parameter with a default value may be a pattern, which then stands between tokens and has no
type. Parameters with a type or a default value have the part that names them. -/
structure Node.Formed (given : List Token) (node : Node) : Prop where
  /-- Tokens stand alone. -/
  token : node.kind.isToken = true → Encloses given node.start node.stop
  /-- Definitions start with a token. -/
  starts : node.kind.defines = true → Beside given node.start
  /-- Names are identifiers. -/
  named : node.kind.isNamed = true → ∀ name, node.child? .name = some name → name.kind = .identifier
  /-- Names and patterns stand between tokens. -/
  target : node.kind = .defaultParameter → ∀ name, node.child? .name = some name →
    Beside given name.start ∧ Beside given name.stop
  /-- There is no type. -/
  untyped : node.kind = .defaultParameter → node.child? .type = none
  /-- A parameter with a type starts with its name, or with what stands behind stars. -/
  typed : node.kind = .typedParameter →
    ∃ first, node.namedChildren.head? = some first ∧ first.kind.opensTyped = true
  /-- A parameter with a default value has a name or a pattern. -/
  defaulted : node.kind.isDefaulted = true → ∃ name, node.child? .name = some name

/-- A node all whose parts at any depth are formed from the given tokens. -/
inductive Node.Spelled (given : List Token) : Node → Prop where
  /-- The node is formed, and its parts are spelled. -/
  | mk {node : Node} (formed : node.Formed given) (parts : ∀ part ∈ node.children, part.Spelled given) :
    node.Spelled given

/-- Nodes that are spelled one by one. -/
def AllSpelled (given : List Token) (nodes : List Node) : Prop := ∀ node ∈ nodes, node.Spelled given

section

variable {given : List Token}

/-- No nodes are spelled. -/
@[grind ←] theorem allSpelled_nil : AllSpelled given [] := fun _ member => absurd member List.not_mem_nil

/-- Nodes are spelled when each of them is. -/
theorem allSpelled_of_forall {nodes : List Node} (spelled : ∀ node ∈ nodes, node.Spelled given) :
    AllSpelled given nodes := spelled

/-- Nodes are spelled when the first one and the others are. -/
@[grind =] theorem allSpelled_cons {node : Node} {rest : List Node} :
    AllSpelled given (node :: rest) ↔ node.Spelled given ∧ AllSpelled given rest := List.forall_mem_cons

/-- Nodes are spelled when those in front and those behind are. -/
@[grind =] theorem allSpelled_append {front back : List Node} :
    AllSpelled given (front ++ back) ↔ AllSpelled given front ∧ AllSpelled given back :=
  List.forall_mem_append

/-- Spelled nodes put together are spelled. -/
@[grind ←] theorem allSpelled_flatten {lists : List (List Node)}
    (spelled : ∀ list ∈ lists, AllSpelled given list) : AllSpelled given lists.flatten := by
  intro node member
  obtain ⟨list, above, member⟩ := List.mem_flatten.mp member
  exact spelled list above node member

/-- The parts of a spelled node are spelled. -/
@[grind →] theorem Node.Spelled.children {node : Node} (spelled : node.Spelled given) :
    AllSpelled given node.children := by
  cases spelled with
  | mk formed parts => exact parts

/-- A spelled node is formed. -/
theorem Node.Spelled.formed {node : Node} (spelled : node.Spelled given) : node.Formed given := by
  cases spelled with
  | mk formed parts => exact formed

/-- The parts of spelled nodes are spelled. -/
@[grind ←] theorem AllSpelled.children {nodes : List Node} (spelled : AllSpelled given nodes) :
    AllSpelled given (nodes.flatMap Node.children) := by
  intro node member
  obtain ⟨outer, above, member⟩ := List.mem_flatMap.mp member
  exact (spelled outer above).children node member

/-- Nodes of plain kinds are spelled when their parts are. -/
theorem Node.Spelled.of_plain {node : Node} (plain : node.kind.isPlain = true)
    (parts : AllSpelled given node.children) : node.Spelled given := by
  -- Each condition is on kinds that are not plain.
  refine .mk ⟨fun kind => ?_, fun kind => ?_, fun kind => ?_, fun kind => ?_, fun kind => ?_, fun kind => ?_,
    fun kind => ?_⟩ parts
  all_goals
    revert plain kind
    cases node.kind <;> simp [Kind.isPlain, Kind.isToken, Kind.isNamed, Kind.defines, Kind.isDefaulted]

/-- A node of a plain kind is spelled when its parts are. -/
@[grind ←] theorem Node.Spelled.of_parts {kind : Kind} {role : Role} {start stop : Mark} {parts : List Node}
    (plain : kind.isPlain = true) (spelled : AllSpelled given parts) :
    (Node.mk kind role start stop parts).Spelled given := .of_plain plain spelled

/-- A node is of its kind in any role. -/
theorem Node.kind_inRole (node : Node) (role : Role) : (node.inRole role).kind = node.kind := by
  cases node
  rfl

/-- A spelled node is spelled in any role. -/
theorem Node.Spelled.inRole {node : Node} (spelled : node.Spelled given) (role : Role) :
    (node.inRole role).Spelled given := by
  cases node
  obtain ⟨token, starts, named, target, untyped, typed, defaulted⟩ := spelled.formed
  exact .mk ⟨token, starts, named, target, untyped, typed, defaulted⟩ spelled.children

/-- A token that stands alone is a spelled node. -/
theorem Node.Spelled.of_token {token : Token} {kind : Kind} {role : Role} (member : token ∈ given)
    (written : token.isWritten = true) (single : kind.isToken = true) :
    (Node.mk kind role token.start token.stop []).Spelled given := by
  have starts : Beside given token.start := ⟨token, member, written, .inl rfl⟩
  refine .mk ⟨fun _ => ⟨token, member, written, rfl, rfl⟩, fun _ => starts, ?_, ?_, ?_, fun typed => ?_,
    fun defaulted => ?_⟩ allSpelled_nil
  · exact fun named _ found => by cases found
  · exact fun _ _ found => by cases found
  · exact fun _ => rfl
  · obtain rfl : kind = .typedParameter := typed
    cases single
  · revert single defaulted
    cases kind <;> simp [Kind.isToken, Kind.isDefaulted, Node.kind]

/-- A parameter with a type is spelled when the name or the stars in front and the type are. -/
theorem Node.Spelled.of_typed {role : Role} {start stop : Mark} {first : Node} {types : List Node}
    (spelled : first.Spelled given) (opens : first.kind.opensTyped = true) (others : AllSpelled given types) :
    (Node.mk .typedParameter role start stop (first :: types)).Spelled given := by
  have named : first.isNamed = true := by
    revert opens
    rw [Node.isNamed]
    cases first.kind <;> simp [Kind.opensTyped]
  refine .mk ⟨fun kind => ?_, fun kind => ?_, fun kind => ?_, fun kind => ?_, fun kind => ?_, fun _ => ?_,
    fun kind => ?_⟩ (List.forall_mem_cons.mpr ⟨spelled, others⟩)
  case refine_6 => exact ⟨first, by simp [Node.namedChildren, Node.children, named], opens⟩
  all_goals cases kind

end

/-- An expression whose parts are spelled, in a node of which nothing else is asked. -/
structure Expression.Spelled (given : List Token) (expression : Expression) : Prop where
  /-- Nothing else is asked of its node. -/
  plain : expression.kind.isPlain = true
  /-- Its parts are spelled. -/
  parts : AllSpelled given expression.parts

attribute [grind →] Expression.Spelled.parts

namespace Expression

variable {given : List Token}

/-- The node of a spelled expression is spelled. -/
@[grind ←] theorem Spelled.node {expression : Expression} {role : Role} {start stop : Mark}
    (spelled : expression.Spelled given) :
    (Node.mk expression.kind role start stop expression.parts).Spelled given :=
  .of_plain spelled.plain spelled.parts

/-- What is kept of a spelled expression is spelled. -/
@[grind →] theorem Spelled.inside {expression : Expression} (spelled : expression.Spelled given) :
    AllSpelled given expression.inside := by
  unfold Expression.inside
  split
  · exact spelled.parts.children
  · rw [← List.flatMap_assoc]
    exact spelled.parts.children.children
  · exact spelled.parts

/-- An expression of spelled parts is spelled, whatever it looks like from outside. -/
@[grind ←] theorem Spelled.of_parts {form : Form} {parts : List Node} (spelled : AllSpelled given parts) :
    Spelled given { form := form, parts := parts } := ⟨rfl, spelled⟩

/-- What is kept of several spelled expressions is spelled. -/
@[grind ←] theorem inside_spelled {operands : List Expression}
    (spelled : ∀ operand ∈ operands, operand.Spelled given) :
    AllSpelled given (operands.flatMap Expression.inside) := by
  intro part member
  obtain ⟨operand, above, member⟩ := List.mem_flatMap.mp member
  exact (spelled operand above).inside part member

/-- An expression made of spelled ones is spelled. -/
@[grind ←] theorem combine_spelled {operands : List Expression}
    (spelled : ∀ operand ∈ operands, operand.Spelled given) : (combine operands).Spelled given :=
  .of_parts (inside_spelled spelled)

/-- The form of an expression does not matter. -/
@[grind ←] theorem Spelled.withForm {expression : Expression} {form : Form}
    (spelled : expression.Spelled given) : Spelled given { expression with form := form } :=
  ⟨spelled.plain, spelled.parts⟩

/-- Spelled expressions side by side are spelled. -/
@[grind ←] theorem sequence_spelled {operands : List Expression}
    (spelled : ∀ operand ∈ operands, operand.Spelled given) : (sequence operands).Spelled given :=
  (combine_spelled spelled).withForm

/-- A spelled expression in parentheses is spelled. -/
@[grind ←] theorem grouped_spelled {expression : Expression} (spelled : expression.Spelled given) :
    expression.grouped.Spelled given :=
  (combine_spelled (by simpa using spelled)).withForm

end Expression

/-- A cursor on a line of the given tokens, behind which the line ends: the last ones are left, and the
last token taken is a written one unless nothing is left. -/
structure Cursor.Within (given : List Token) (cursor : Cursor) : Prop where
  /-- The tokens left are the last ones. -/
  suffix : ∃ ending : Token, ending.symbol = .newline ∧ cursor.tokens <:+ given ++ [ending]
  /-- The last token taken is written. -/
  last : cursor.tokens ≠ [] → Beside given cursor.last

/-- The first token left is one of the given ones unless it is the end of the line; something is left
behind it then. -/
theorem Cursor.Within.first {given : List Token} {cursor : Cursor} (within : cursor.Within given)
    {token : Token} {rest : List Token} (tokens : cursor.tokens = token :: rest)
    (inside : token.symbol ≠ .newline ∨ rest ≠ []) : token ∈ given := by
  obtain ⟨ending, ends, suffix⟩ := within.suffix
  rw [tokens, List.suffix_concat_iff] at suffix
  obtain ⟨front, same, front_suffix⟩ := suffix.resolve_left (List.cons_ne_nil token rest)
  cases front with
  | nil =>
    obtain ⟨rfl, rfl⟩ := List.cons.inj same
    exact absurd inside (by simp [ends])
  | cons first front =>
    obtain ⟨rfl, _⟩ := List.cons.inj same
    exact front_suffix.mem List.mem_cons_self

/-- A parser stays on its line, and what it finds is good. -/
abbrev Parse.Keeps {α : Type} (given : List Token) (parser : Parse α) (good : α → Prop) : Prop :=
  Triple parser (fun cursor => ⌜cursor.Within given⌝)
    (PostCond.mayThrow fun value cursor => ⌜cursor.Within given ∧ good value⌝)

namespace Parse

variable {given : List Token} {α : Type}

/-- A parser that fails throws. -/
theorem wp_none {β : Type} (post : PostCond β (.except PUnit .pure)) :
    (wp (none : Option β)).apply post = post.2.1 ⟨⟩ := WP.throw_Option

/-- A parser that succeeds returns. -/
theorem wp_some {β : Type} (value : β) (post : PostCond β (.except PUnit .pure)) :
    (wp (some value)).apply post = post.1 value := WP.pure (m := Option) value post

/-- A parser does what its run from the cursor does. -/
theorem wp_eq (parser : Parse α) (post : PostCond α (.arg Cursor (.except PUnit .pure)))
    (cursor : Cursor) : (wp parser).apply post cursor =
      (wp (parser cursor)).apply (fun found => post.1 found.1 found.2, post.2) := rfl

/-- What holds behind a parser is said about each run that succeeds. -/
theorem triple_iff {parser : Parse α} {before : Cursor → Prop} {behind : α → Cursor → Prop} :
    Triple parser (fun cursor => ⌜before cursor⌝)
        (PostCond.mayThrow fun value cursor => ⌜behind value cursor⌝) ↔
      ∀ cursor, before cursor → ∀ value moved, parser cursor = some (value, moved) → behind value moved := by
  constructor
  · intro triple cursor ready value moved found
    have kept := triple cursor ready
    rw [wp_eq, found, wp_some] at kept
    exact kept
  · intro each cursor ready
    rw [wp_eq]
    cases found : parser cursor with
    | none =>
      rw [wp_none]
      trivial
    | some both =>
      rw [wp_some]
      exact each cursor ready _ _ found

/-- What a parser keeps is said about each run that succeeds. -/
theorem keeps_iff {parser : Parse α} {good : α → Prop} :
    Keeps given parser good ↔ ∀ cursor, cursor.Within given → ∀ value moved,
      parser cursor = some (value, moved) → moved.Within given ∧ good value := triple_iff

/-- A parser runs when its first step does and the others do behind it. -/
theorem bind_eq_some {β : Type} {parser : Parse α} {next : α → Parse β} {cursor moved : Cursor} {value : β} :
    (parser >>= next) cursor = some (value, moved) ↔ ∃ first middle,
      parser cursor = some (first, middle) ∧ next first middle = some (value, moved) := by
  show (parser cursor).bind (fun both => next both.1 both.2) = _ ↔ _
  simp [Option.bind_eq_some_iff]

/-- Comments and joins in front of tokens are passed; what is left are the last ones, and the first of
them is neither. -/
theorem passTrivia_spec (passed tokens : List Token) :
    (passTrivia passed tokens).2 <:+ tokens ∧
      ∀ token ∈ (passTrivia passed tokens).2.head?, token.symbol.isTrivia = false := by
  induction tokens generalizing passed with
  | nil => exact ⟨List.suffix_rfl, by simp [passTrivia]⟩
  | cons token rest ih =>
    rw [passTrivia]
    split
    · obtain ⟨suffix, first⟩ := ih (token :: passed)
      exact ⟨suffix.trans (List.suffix_cons token rest), first⟩
    · rename_i other
      exact ⟨List.suffix_rfl, by simpa using other⟩

/-- Tokens that do not start with a comment or a join stay. -/
theorem passTrivia_of_plain {tokens : List Token}
    (plain : ∀ token ∈ tokens.head?, token.symbol.isTrivia = false) (passed : List Token) :
    passTrivia passed tokens = (passed, tokens) := by
  cases tokens with
  | nil => rfl
  | cons token rest => simp [passTrivia, plain token rfl]

end Parse

/-- Comments and joins are passed once. -/
theorem Cursor.settle_settle (cursor : Cursor) : cursor.settle.settle = cursor.settle := by
  have plain := (Parse.passTrivia_spec cursor.trivia cursor.tokens).2
  rw [Cursor.settle, show passTrivia cursor.settle.trivia cursor.settle.tokens = _ from
    Parse.passTrivia_of_plain plain _]
  rfl

/-- Behind comments and joins the cursor is still on its line. -/
theorem Cursor.Within.settle {given : List Token} {cursor : Cursor} (within : cursor.Within given) :
    cursor.settle.Within given := by
  have suffix : cursor.settle.tokens <:+ cursor.tokens :=
    (Parse.passTrivia_spec cursor.trivia cursor.tokens).1
  obtain ⟨ending, ends, within_suffix⟩ := within.suffix
  refine ⟨⟨ending, ends, suffix.trans within_suffix⟩, fun some_token => within.last fun empty => ?_⟩
  rw [empty] at suffix
  exact some_token (List.suffix_nil.mp suffix)

namespace Parse

variable {given : List Token} {α : Type}

/-- The next symbol is that of the first token behind comments and joins. -/
theorem next_eq (cursor : Cursor) :
    next cursor = some ((cursor.settle.tokens.head?.map Token.symbol).getD .finish, cursor.settle) := by
  unfold next
  cases tokens : cursor.settle.tokens <;> simp [tokens]

/-- The place is that of the first token behind comments and joins. -/
theorem here_eq (cursor : Cursor) :
    here cursor =
      some ((cursor.settle.tokens.head?.map Token.start).getD cursor.settle.last, cursor.settle) := by
  unfold here
  cases tokens : cursor.settle.tokens <;> simp [tokens]

/-- A word or an operator comes next when the next symbol has its text. -/
theorem sees_eq (text : String) (cursor : Cursor) : sees text cursor =
    some (((cursor.settle.tokens.head?.map Token.symbol).getD .finish).text == text, cursor.settle) := by
  show (next cursor).bind _ = _
  rw [next_eq]
  rfl

/-- Looking at the next symbol takes nothing. -/
@[spec] theorem next_spec : Keeps given next fun _ => True := by
  refine keeps_iff.mpr fun cursor within symbol moved found => ⟨?_, trivial⟩
  cases (next_eq cursor).symm.trans found
  exact within.settle

/-- A token that is taken is a written one of the line, or its end. -/
@[spec] theorem take_spec :
    Keeps given take fun token => token.symbol ≠ .newline → token ∈ given ∧ token.isWritten = true := by
  refine keeps_iff.mpr fun cursor within token moved found => ?_
  have settled := within.settle
  have first := (passTrivia_spec cursor.trivia cursor.tokens).2
  obtain ⟨ending, ends, suffix⟩ := settled.suffix
  unfold take at found
  simp only at found
  split at found
  · cases found
  · rename_i other rest tokens
    cases found
    rw [tokens] at suffix
    have plain : token.symbol.isTrivia = false := first token (by
      rw [show (passTrivia cursor.trivia cursor.tokens).2 = token :: rest from tokens]
      rfl)
    have written : token.isWritten = true := by simp [Token.isWritten, plain]
    refine ⟨⟨⟨ending, ends, (List.suffix_cons token rest).trans suffix⟩, fun some_token => ?_⟩,
      fun inside => ⟨settled.first tokens (.inl inside), written⟩⟩
    exact ⟨token, settled.first tokens (.inr some_token), written, .inr rfl⟩

/-- Looking at the symbol behind the next one takes nothing. -/
@[spec] theorem afterNext_spec : Keeps given afterNext fun _ => True := by
  refine keeps_iff.mpr fun cursor within symbol moved found => ⟨?_, trivial⟩
  unfold afterNext at found
  simp only at found
  split at found <;> cases found <;> exact within.settle

/-- Asking for the place takes nothing. -/
@[spec] theorem here_spec : Keeps given here fun _ => True := by
  refine keeps_iff.mpr fun cursor within symbol moved found => ⟨?_, trivial⟩
  cases (here_eq cursor).symm.trans found
  exact within.settle

/-- The last token taken is a written one unless nothing is left. -/
@[spec] theorem behind_spec :
    Triple behind (fun cursor => ⌜cursor.Within given⌝)
      (PostCond.mayThrow fun mark cursor =>
        ⌜cursor.Within given ∧ (cursor.tokens ≠ [] → Beside given mark)⌝) :=
  triple_iff.mpr fun _ within _ _ found => by cases found; exact ⟨within, within.last⟩

/-- Asking for the number of repetitions takes nothing. -/
@[spec] theorem limit_spec : Keeps given limit fun _ => True :=
  keeps_iff.mpr fun _ within _ _ found => by cases found; exact ⟨within, trivial⟩

/-- A parser that fails finds nothing. -/
@[spec] theorem fail_spec :
    Triple (fail : Parse α) (fun _ => ⌜True⌝) (PostCond.mayThrow fun _ _ => ⌜False⌝) := by
  intro cursor _
  rw [wp_eq, fail, wp_none]
  trivial

/-- Asking for a word or an operator takes nothing. -/
@[spec] theorem sees_spec (text : String) : Keeps given (sees text) fun _ => True := by
  mvcgen [sees]

/-- Asking for several words or operators takes nothing. -/
@[spec] theorem seesAny_spec (texts : List String) : Keeps given (seesAny texts) fun _ => True := by
  mvcgen [seesAny]

/-- A word or an operator that is taken is one of the line. -/
@[spec] theorem expect_spec (text : String) : Keeps given (expect text) fun _ => True := by
  mvcgen [expect]
  all_goals grind

/-- A word or an operator is taken or not. -/
@[spec] theorem accept_spec (text : String) : Keeps given (accept text) fun _ => True := by
  mvcgen [accept]
  all_goals grind

/-- A symbol that is taken is one of the line. -/
@[spec] theorem symbol_spec (expected : Symbol) : Keeps given (symbol expected) fun _ => True := by
  mvcgen [symbol]
  all_goals grind

/-- What is tried is good when it is found. -/
theorem attempt_spec {parser : Parse α} {good : α → Prop} (keeps : Keeps given parser good) :
    Keeps given (attempt parser) fun found => ∀ value ∈ found, good value := by
  refine keeps_iff.mpr fun cursor within value moved found => ?_
  unfold attempt at found
  split at found
  · rename_i other further run
    cases found
    simpa using keeps_iff.mp keeps cursor within _ _ run
  · cases found
    exact ⟨within, by simp⟩

/-- Repetitions of what is good are good. -/
theorem repeatFrom_spec {condition : Parse Bool} {parser : Parse α} {good : α → Prop}
    (asks : Keeps given condition fun _ => True) (keeps : Keeps given parser good) (fuel : Nat)
    {done : List α} (before : ∀ value ∈ done, good value) :
    Keeps given (repeatFrom condition parser done fuel) fun found => ∀ value ∈ found, good value := by
  rw [keeps_iff] at asks keeps ⊢
  induction fuel generalizing done with
  | zero => exact fun _ _ _ _ found => by cases found
  | succ fuel ih =>
    intro cursor within values moved found
    unfold repeatFrom at found
    split at found
    · cases found
    · rename_i further asked
      cases found
      exact ⟨(asks cursor within _ _ asked).1, by simpa using before⟩
    · rename_i further asked
      split at found
      · cases found
      · rename_i value last run
        obtain ⟨kept, here⟩ := keeps further (asks cursor within _ _ asked).1 _ _ run
        exact ih (List.forall_mem_cons.mpr ⟨here, before⟩) last kept values moved found

/-- Repetitions of what is good are good. -/
theorem repeatWhile_spec {condition : Parse Bool} {parser : Parse α} {good : α → Prop}
    (asks : Keeps given condition fun _ => True) (keeps : Keeps given parser good) :
    Keeps given (repeatWhile condition parser) fun found => ∀ value ∈ found, good value :=
  keeps_iff.mpr fun cursor =>
    keeps_iff.mp (repeatFrom_spec asks keeps (cursor.limit + 1) (by simp)) cursor

/-- Items with commas between them are good when each item is. -/
theorem commaSeparated_spec {ends : Parse Bool} {item : Parse α} {good : α → Prop}
    (asks : Keeps given ends fun _ => True) (keeps : Keeps given item good) :
    Keeps given (commaSeparated ends item) fun found => ∀ value ∈ found.1, good value := by
  have more : Keeps given
      (do if ← accept "," then return !(← ends) else return false : Parse Bool) fun _ => True := by
    mvcgen [asks]
    all_goals grind
  have later := repeatWhile_spec more keeps
  mvcgen [commaSeparated, asks, keeps, later]
  all_goals grind

/-- A node of a plain kind is spelled when its parts are. -/
theorem node_spec {kind : Kind} {role : Role} {children : Parse (List Node)} (plain : kind.isPlain = true)
    (keeps : Keeps given children (AllSpelled given)) :
    Keeps given (node kind role children) (Node.Spelled given) := by
  mvcgen [node, keeps]
  all_goals grind

/-- An identifier is a written token. -/
@[spec] theorem identifier_spec :
    Keeps given identifier fun token => token ∈ given ∧ token.isWritten = true := by
  mvcgen [identifier]
  all_goals grind [Token.isWritten, Symbol.isIdentifier]

/-- The node of an identifier is spelled. -/
@[spec] theorem nameNode_spec (role : Role) :
    Keeps given (nameNode role) fun name =>
      name.Spelled given ∧ name.kind = .identifier ∧ name.role = role := by
  mvcgen [nameNode]
  rename_i token _ _ _ found
  exact ⟨found.1, .of_token found.2.1 found.2.2 rfl, rfl, rfl⟩

/-- The node of a spelled expression is spelled. -/
theorem expressionNode_spec (role : Role) {parser : Parse Expression}
    (keeps : Keeps given parser (Expression.Spelled given)) :
    Keeps given (expressionNode role parser) fun found => found.Spelled given ∧ found.role = role := by
  mvcgen [expressionNode, keeps]
  all_goals grind [Node.role]

/-- What is kept of a spelled expression is spelled. -/
theorem kept_spec {parser : Parse Expression} (keeps : Keeps given parser (Expression.Spelled given)) :
    Keeps given (kept parser) (AllSpelled given) := by
  mvcgen [kept, keeps]
  all_goals grind

/-- Asking for a clause of a comprehension takes nothing. -/
@[spec] theorem seesClause_spec : Keeps given seesClause fun _ => True := by
  mvcgen [seesClause]
  all_goals grind

end Parse

section Grammar

open Parse

variable {given : List Token} {inner items : Parse Expression}

/-- Asking for a replacement field takes nothing. -/
theorem seesField_spec : Keeps given (do return (← next) == .fieldOpen : Parse Bool) fun _ => True := by
  mvcgen

/-- A replacement field is spelled. -/
theorem replacementField_spec {nested : Parse Node} (fields : Keeps given nested (Node.Spelled given))
    (expressions : Keeps given items (Expression.Spelled given)) :
    Keeps given (replacementField nested items) (Node.Spelled given) := by
  have shown := kept_spec expressions
  have format := repeatWhile_spec seesField_spec fields
  refine node_spec rfl ?_
  mvcgen [shown, format]
  all_goals grind

/-- A replacement field with others in its format is spelled. -/
theorem fieldAt_spec (expressions : Keeps given items (Expression.Spelled given)) (depth : Nat) :
    Keeps given (fieldAt items depth) (Node.Spelled given) := by
  induction depth with
  | zero => exact keeps_iff.mpr fun _ _ _ _ found => by cases found
  | succ depth ih => exact replacementField_spec ih expressions

/-- A string literal is spelled. -/
theorem stringNode_spec (expressions : Keeps given items (Expression.Spelled given)) :
    Keeps given (stringNode items) (Node.Spelled given) := by
  have fields := fun depth => repeatWhile_spec seesField_spec (fieldAt_spec expressions depth)
  refine node_spec rfl ?_
  mvcgen [fields]
  all_goals grind [Token.isWritten, Node.Spelled.of_token, Kind.isToken, allSpelled_of_forall]

/-- Asking for a string literal takes nothing. -/
@[spec] theorem seesString_spec : Keeps given seesString fun _ => True := by
  mvcgen [seesString]

/-- String literals side by side are spelled. -/
theorem strings_spec (expressions : Keeps given items (Expression.Spelled given)) :
    Keeps given (strings items) (Expression.Spelled given) := by
  have first := stringNode_spec expressions
  have later := repeatWhile_spec seesString_spec first
  mvcgen [strings, first, later]
  all_goals grind [Expression.Spelled, Kind.isPlain, allSpelled_of_forall]

/-- Asking for what may follow an operand takes nothing. -/
@[spec] theorem seesTrailer_spec : Keeps given seesTrailer fun _ => True := seesAny_spec _

/-- An index or a slice is spelled. -/
theorem slice_spec (inners : Keeps given inner (Expression.Spelled given)) :
    Keeps given (slice inner) (Expression.Spelled given) := by
  mvcgen [slice, inners]
  all_goals grind

/-- An argument is spelled. -/
theorem argument_spec (inners : Keeps given inner (Expression.Spelled given)) :
    Keeps given (argument inner) (Node.Spelled given) := by
  have named : Keeps given (node .keywordArgument .part do
      let _ ← identifier
      expect "="
      kept inner) (Node.Spelled given) := by
    have value := kept_spec inners
    refine node_spec rfl ?_
    mvcgen [value]
    all_goals grind
  have starred : Keeps given (expressionNode .part do
      if ← seesAny ["*", "**"] then
        let _ ← take
        return .combine [← inner]
      else inner) fun found => found.Spelled given ∧ found.role = .part := by
    refine expressionNode_spec .part ?_
    mvcgen [inners]
    all_goals grind
  mvcgen [argument, named, starred]
  all_goals grind

end Grammar

section Operators

open Parse

variable {given : List Token} {primary : Parse Expression}
  (primaries : Keeps given primary (Expression.Spelled given))

include primaries

/-- An operand with signs is spelled. -/
theorem signed_spec : Keeps given (signed primary) (Expression.Spelled given) := by
  have signs : Keeps given (repeatWhile (seesAny ["+", "-", "~"]) take) _ :=
    repeatWhile_spec (seesAny_spec _) take_spec
  mvcgen [signed, signs, primaries]
  all_goals grind

/-- Operands with operators between them are spelled. -/
theorem arithmetic_spec : Keeps given (arithmetic primary) (Expression.Spelled given) := by
  have operand := signed_spec primaries
  have further : Keeps given (do let _ ← take; signed primary) (Expression.Spelled given) := by
    mvcgen [operand]
    all_goals grind
  have later := repeatWhile_spec (seesAny_spec binaryOperators) further
  mvcgen [arithmetic, operand, later]
  all_goals grind

omit primaries in
/-- Asking for a comparison takes nothing. -/
@[spec] theorem seesComparison_spec : Keeps given seesComparison fun _ => True := by
  mvcgen [seesComparison]
  all_goals grind

omit primaries in
/-- The operator of a comparison is one of the line. -/
@[spec] theorem comparisonOperator_spec : Keeps given comparisonOperator fun _ => True := by
  mvcgen [comparisonOperator]
  all_goals grind

/-- Operands with comparisons between them are spelled. -/
theorem comparison_spec : Keeps given (comparison primary) (Expression.Spelled given) := by
  have operand := arithmetic_spec primaries
  have further : Keeps given (do comparisonOperator; arithmetic primary) (Expression.Spelled given) := by
    mvcgen [operand]
    all_goals grind
  have later := repeatWhile_spec seesComparison_spec further
  mvcgen [comparison, operand, later]
  all_goals grind

/-- A negation is spelled. -/
theorem negation_spec : Keeps given (negation primary) (Expression.Spelled given) := by
  have signs : Keeps given (repeatWhile (sees "not") take) _ :=
    repeatWhile_spec (sees_spec _) take_spec
  have operand := comparison_spec primaries
  mvcgen [negation, signs, operand]
  all_goals grind

/-- Negations with logical operators between them are spelled. -/
theorem disjunction_spec : Keeps given (disjunction primary) (Expression.Spelled given) := by
  have operand := negation_spec primaries
  have further : Keeps given (do let _ ← take; negation primary) (Expression.Spelled given) := by
    mvcgen [operand]
    all_goals grind
  have later := repeatWhile_spec (seesAny_spec ["and", "or"]) further
  mvcgen [disjunction, operand, later]
  all_goals grind

/-- An expression that may stand behind a star is spelled. -/
theorem starOr_spec {plain : Parse Expression} (keeps : Keeps given plain (Expression.Spelled given)) :
    Keeps given (starOr primary plain) (Expression.Spelled given) := by
  have operand := arithmetic_spec primaries
  mvcgen [starOr, operand, keeps]
  all_goals grind

/-- Targets are spelled. -/
theorem targets_spec : Keeps given (targets primary) (AllSpelled given) := by
  have target := starOr_spec primaries (arithmetic_spec primaries)
  have found := commaSeparated_spec (seesAny_spec ["in", "="]) target
  mvcgen [targets, found]
  all_goals grind

/-- A clause of a comprehension is spelled. -/
theorem comprehensionClause_spec : Keeps given (comprehensionClause primary) (AllSpelled given) := by
  have bound := targets_spec primaries
  have value := kept_spec (disjunction_spec primaries)
  have condition : Keeps given (do expect "if"; kept (disjunction primary)) (AllSpelled given) := by
    mvcgen [value]
    all_goals grind
  have conditions := repeatWhile_spec (sees_spec "if") condition
  mvcgen [comprehensionClause, bound, value, conditions]
  all_goals grind

/-- A comprehension is spelled when what it collects is. -/
theorem comprehension_spec (collected : List Expression)
    (spelled : ∀ value ∈ collected, value.Spelled given) :
    Keeps given (comprehension primary collected) (Expression.Spelled given) := by
  have clauses := repeatWhile_spec seesClause_spec (comprehensionClause_spec primaries)
  mvcgen [comprehension, clauses]
  all_goals grind

end Operators

section Displays

open Parse

variable {given : List Token} {primary inner : Parse Expression}

/-- Items up to a closing bracket are spelled. -/
theorem furtherItems_spec (closing : String) {item : Parse Expression}
    (keeps : Keeps given item (Expression.Spelled given)) :
    Keeps given (furtherItems closing item) fun found => ∀ value ∈ found, value.Spelled given := by
  have found := commaSeparated_spec (sees_spec closing) keeps
  mvcgen [furtherItems, found]
  all_goals grind

variable (primaries : Keeps given primary (Expression.Spelled given))
  (inners : Keeps given inner (Expression.Spelled given))

include primaries inners

/-- What stands in parentheses is spelled. -/
theorem parenthesized_spec {yielded : Parse Expression}
    (yields : Keeps given yielded (Expression.Spelled given)) :
    Keeps given (parenthesized primary inner yielded) (Expression.Spelled given) := by
  have item := starOr_spec primaries inners
  have later := furtherItems_spec ")" item
  have generator := comprehension_spec primaries
  mvcgen [parenthesized, yields, item, later, generator]
  all_goals grind

/-- A list is spelled. -/
theorem bracketed_spec : Keeps given (bracketed primary inner) (Expression.Spelled given) := by
  have item := starOr_spec primaries inners
  have later := furtherItems_spec "]" item
  have collected := comprehension_spec primaries
  mvcgen [bracketed, item, later, collected]
  all_goals grind

/-- An entry of a dictionary is spelled. -/
theorem entry_spec : Keeps given (entry primary inner) (Expression.Spelled given) := by
  have operand := arithmetic_spec primaries
  mvcgen [entry, operand, inners]
  all_goals grind

/-- A dictionary or a set is spelled. -/
theorem braced_spec : Keeps given (braced primary inner) (Expression.Spelled given) := by
  have item := starOr_spec primaries inners
  have further := entry_spec primaries inners
  have either : ∀ isEntry : Bool, Keeps given
      (if isEntry then entry primary inner else starOr primary inner) (Expression.Spelled given) := by
    intro isEntry
    split
    · exact further
    · exact item
  have entries := furtherItems_spec "\x7d" further
  have later := fun isEntry => furtherItems_spec "\x7d" (either isEntry)
  have collected := comprehension_spec primaries
  mvcgen [braced, inners, item, further, entries, later, collected]
  all_goals grind

/-- The arguments of a call are spelled. -/
theorem callArguments_spec : Keeps given (callArguments primary inner) (AllSpelled given) := by
  have argument := argument_spec inners
  have generator := comprehension_spec primaries
  have later := commaSeparated_spec (sees_spec ")") argument
  mvcgen [callArguments, argument, generator, later]
  all_goals grind [Kind.isPlain, allSpelled_of_forall]

omit primaries in
/-- The arguments of a class are spelled. -/
theorem plainArguments_spec : Keeps given (plainArguments inner) (AllSpelled given) := by
  have found := commaSeparated_spec (sees_spec ")") (argument_spec inners)
  mvcgen [plainArguments, found]
  all_goals grind [allSpelled_of_forall]

/-- What follows an operand is spelled. -/
theorem trailer_spec : Keeps given (trailer primary inner) (Expression.Spelled given) := by
  have found := commaSeparated_spec (sees_spec "]") (slice_spec inners)
  have arguments := callArguments_spec primaries inners
  mvcgen [trailer, found, arguments]
  all_goals grind

end Displays

section Parameters

open Parse

variable {given : List Token} {primary inner : Parse Expression}
  (primaries : Keeps given primary (Expression.Spelled given))
  (inners : Keeps given inner (Expression.Spelled given))

include inners

/-- The node of a type is spelled. -/
theorem typeNode_spec (role : Role) :
    Keeps given (typeNode inner role) fun type => type.Spelled given ∧ type.role = role := by
  refine expressionNode_spec role ?_
  mvcgen [inners]
  all_goals grind

/-- A type behind a colon is spelled. -/
theorem typeBehind_spec (typed : Bool) : Keeps given (typeBehind inner typed) (AllSpelled given) := by
  have type := typeNode_spec inners
  mvcgen [typeBehind, type]
  all_goals grind

/-- A parameter behind stars is spelled. -/
theorem splat_spec (kind : Kind) (stars : kind = .listSplat ∨ kind = .dictionarySplat) (typed : Bool)
    (start : Mark) : Keeps given (splat inner kind typed start) (Node.Spelled given) := by
  have types := typeBehind_spec inners
  mvcgen [splat, types]
  all_goals grind [Kind.isPlain, Kind.opensTyped, Node.Spelled.of_typed, Node.kind]

omit inners in
/-- A parameter with a default value is spelled when its name and the other parts are. -/
theorem defaulted_spelled {start stop : Mark} {name value : Node} {types : List Node}
    (names : name.Spelled given) (role : name.role = .name)
    (target : types = [] → Beside given name.start ∧ Beside given name.stop)
    (isName : types ≠ [] → name.kind = .identifier) (typed : AllSpelled given types)
    (values : value.Spelled given) (part : value.role = .part) :
    (Node.mk (if types.isEmpty then .defaultParameter else .typedDefaultParameter) .part start stop
      (name :: types ++ [value])).Spelled given := by
  have first : ∀ parts : List Node,
      ((name :: parts).find? fun child => child.role == Role.name) = some name := by simp [role]
  refine .mk ?_ (List.forall_mem_append.mpr ⟨List.forall_mem_cons.mpr ⟨names, typed⟩, by simpa using values⟩)
  cases types with
  | nil =>
    refine ⟨fun kind => ?_, fun kind => ?_, fun kind => ?_, fun _ other found => ?_, fun _ => ?_, fun kind => ?_,
      fun _ => ⟨name, first _⟩⟩
    · cases kind
    · cases kind
    · cases kind
    · obtain rfl : name = other := Option.some.inj ((first _).symm.trans found)
      exact target rfl
    · simp [Node.child?, Node.children, role, part]
    · cases kind
  | cons type rest =>
    refine ⟨fun kind => ?_, fun kind => ?_, fun _ other found => ?_, fun kind => ?_, fun kind => ?_,
      fun kind => ?_, fun _ => ⟨name, first _⟩⟩
    · cases kind
    · cases kind
    · obtain rfl : name = other := Option.some.inj ((first _).symm.trans found)
      exact isName (List.cons_ne_nil type rest)
    · cases kind
    · cases kind
    · cases kind

/-- A parameter from its name on is spelled. -/
theorem parameterFrom_spec (typed : Bool) (start : Mark) (name : Node)
    (named : name.Spelled given ∧ name.kind = .identifier ∧ name.role = .name) :
    Keeps given (parameterFrom inner typed start name) (Node.Spelled given) := by
  obtain ⟨spelled, isName, role⟩ := named
  have types := typeBehind_spec inners
  have value := expressionNode_spec .part inners
  obtain ⟨token, member, written, starts, stops⟩ := spelled.formed.token (by rw [isName]; rfl)
  have target : Beside given name.start ∧ Beside given name.stop :=
    ⟨⟨token, member, written, .inl starts.symm⟩, ⟨token, member, written, .inr stops.symm⟩⟩
  mvcgen [parameterFrom, types, value]
  all_goals grind [defaulted_spelled, Node.Spelled.inRole, Node.kind_inRole, Node.Spelled.of_typed, Kind.opensTyped]

omit inners in
/-- An equals sign comes only when something is left. -/
theorem accept_equals_spec (mark : Mark) :
    Triple (accept "=")
      (fun cursor => ⌜cursor.Within given ∧ (cursor.tokens ≠ [] → Beside given mark)⌝)
      (PostCond.mayThrow fun found cursor => ⌜cursor.Within given ∧ (found = true → Beside given mark)⌝) := by
  refine triple_iff.mpr fun cursor ready found moved run => ?_
  refine ⟨(keeps_iff.mp (accept_spec "=") cursor ready.1 _ _ run).1, fun yes => ready.2 fun empty => ?_⟩
  subst yes
  obtain ⟨seen, middle, asked, run⟩ := bind_eq_some.mp run
  have nothing : cursor.settle.tokens = [] := by
    rw [Cursor.settle, empty]
    rfl
  rw [sees_eq, nothing] at asked
  cases asked
  cases run

/-- A parameter from its pattern on is spelled. -/
theorem patternFrom_spec (start stop : Mark) (parts : List Node)
    (formed : AllSpelled given parts ∧ Beside given start) :
    Triple (parameterFrom inner false start (.mk .tuplePattern .name start stop parts))
      (fun cursor => ⌜cursor.Within given ∧ (cursor.tokens ≠ [] → Beside given stop)⌝)
      (PostCond.mayThrow fun found cursor => ⌜cursor.Within given ∧ found.Spelled given⌝) := by
  obtain ⟨spelled, starts⟩ := formed
  have pattern : (Node.mk .tuplePattern .name start stop parts).Spelled given := .of_parts rfl spelled
  have equals := @accept_equals_spec given stop
  have value := expressionNode_spec .part inners
  mvcgen [parameterFrom, typeBehind, -accept_spec, equals, value]
  all_goals grind [defaulted_spelled, Node.Spelled.inRole, Node.role, Node.start, Node.stop]

omit inners in
/-- A place in front of an opening bracket is at the end of a written token. -/
theorem beside_of_here {cursor middle moved : Cursor} {start : Mark} (within : cursor.Within given)
    (asked : here cursor = some (start, middle)) (opens : sees "(" middle = some (true, moved)) :
    Beside given start := by
  have plain := (passTrivia_spec cursor.trivia cursor.tokens).2
  rw [here_eq] at asked
  cases asked
  rw [sees_eq, Cursor.settle_settle] at opens
  obtain ⟨same, rfl⟩ := Prod.mk.inj (Option.some.inj opens)
  cases tokens : cursor.settle.tokens with
  | nil => simp [tokens, Symbol.text] at same
  | cons token rest =>
    have opening : token.symbol.text = "(" := by simpa [tokens] using same
    have inside : token.symbol ≠ .newline := fun ends => by simp [ends, Symbol.text] at opening
    have plain : token.symbol.isTrivia = false := plain token (by
      rw [show (passTrivia cursor.trivia cursor.tokens).2 = token :: rest from tokens]
      rfl)
    exact ⟨token, within.settle.first tokens (.inl inside), by simp [Token.isWritten, plain], .inl (by simp)⟩

include primaries in
/-- A parameter with a name or a pattern is spelled. -/
theorem plainParameter_spec (typed : Bool) :
    Keeps given (plainParameter primary inner typed) (Node.Spelled given) := by
  refine keeps_iff.mpr fun cursor within node moved found => ?_
  obtain ⟨start, middle, asked, found⟩ := bind_eq_some.mp found
  obtain ⟨isPattern, further, seen, found⟩ := bind_eq_some.mp found
  have inside := (keeps_iff.mp here_spec cursor within _ _ asked).1
  have inside := (keeps_iff.mp (sees_spec _) middle inside _ _ seen).1
  cases isPattern with
  | true =>
    have starts := beside_of_here within asked seen
    refine keeps_iff.mp ?_ further inside _ _ found
    have behind := patternFrom_spec inners start
    mvcgen [primaries, behind]
    all_goals grind
  | false =>
    refine keeps_iff.mp ?_ further inside _ _ found
    have behind := parameterFrom_spec inners typed start
    mvcgen [behind]
    all_goals grind

include primaries in
/-- A parameter is spelled. -/
theorem parameter_spec (typed : Bool) :
    Keeps given (parameter primary inner typed) (Node.Spelled given) := by
  have dictionary := splat_spec inners .dictionarySplat (.inr rfl) typed
  have list := splat_spec inners .listSplat (.inl rfl) typed
  have plain := plainParameter_spec primaries inners typed
  mvcgen [parameter, dictionary, list, plain]
  all_goals grind [Kind.isPlain]

include primaries in
/-- An anonymous function is spelled. -/
theorem lambdaExpression_spec :
    Keeps given (lambdaExpression primary inner) (Expression.Spelled given) := by
  have found := commaSeparated_spec (sees_spec ":") (parameter_spec primaries inners false)
  have parameters : Keeps given (node .lambdaParameters .part do
      return (← commaSeparated (sees ":") (parameter primary inner false)).1) (Node.Spelled given) := by
    refine node_spec rfl ?_
    mvcgen [found]
  have body := kept_spec inners
  mvcgen [lambdaExpression, parameters, body]
  all_goals grind

end Parameters

section Expressions

open Parse

variable {given : List Token} {primary inner items : Parse Expression}

/-- Several items with commas between them are spelled. -/
theorem itemList_spec {item : Parse Expression} (keeps : Keeps given item (Expression.Spelled given)) :
    Keeps given (itemList item) (Expression.Spelled given) := by
  have ends : Keeps given (do return !(← next).startsItem : Parse Bool) fun _ => True := by
    mvcgen
  have found := commaSeparated_spec ends keeps
  mvcgen [itemList, found]
  all_goals grind

variable (inners : Keeps given inner (Expression.Spelled given))

include inners

/-- An expression that yields is spelled. -/
theorem yieldExpression_spec (values : Keeps given items (Expression.Spelled given)) :
    Keeps given (yieldExpression inner items) (Expression.Spelled given) := by
  mvcgen [yieldExpression, inners, values]
  all_goals grind

variable (primaries : Keeps given primary (Expression.Spelled given))

include primaries

/-- A value without operators is spelled. -/
theorem atom_spec : Keeps given (atom inner primary) (Expression.Spelled given) := by
  have items := itemList_spec (starOr_spec primaries inners)
  have yielded := yieldExpression_spec inners items
  have fields : Keeps given (do
      if ← sees "yield" then yieldExpression inner (itemList (starOr primary inner))
      else itemList (starOr primary inner)) (Expression.Spelled given) := by
    mvcgen [items, yielded]
    all_goals grind
  have literals := strings_spec fields
  have group := parenthesized_spec primaries inners yielded
  have list := bracketed_spec primaries inners
  have dictionary := braced_spec primaries inners
  mvcgen [atom, literals, group, list, dictionary]
  all_goals grind

/-- A value with what follows it is spelled. -/
theorem withTrailers_spec : Keeps given (withTrailers inner primary) (Expression.Spelled given) := by
  have value := atom_spec inners primaries
  have later := repeatWhile_spec seesTrailer_spec (trailer_spec primaries inners)
  mvcgen [withTrailers, value, later]
  all_goals grind

/-- A value that may be awaited is spelled. -/
theorem awaited_spec : Keeps given (awaited inner primary) (Expression.Spelled given) := by
  have value := withTrailers_spec inners primaries
  have awaits : Keeps given (do expect "await"; withTrailers inner primary)
      (Expression.Spelled given) := by
    mvcgen [value]
    all_goals grind
  have found := attempt_spec awaits
  mvcgen [awaited, value, found]
  all_goals grind

/-- An expression is spelled when those it holds are. -/
theorem expressionWith_spec : Keeps given (expressionWith inner primary) (Expression.Spelled given) := by
  have function := lambdaExpression_spec primaries inners
  have value := disjunction_spec primaries
  mvcgen [expressionWith, function, inners, value]
  all_goals grind

omit primaries in
/-- A value is spelled at every depth. -/
theorem primaryAt_spec (depth : Nat) : Keeps given (primaryAt inner depth) (Expression.Spelled given) := by
  induction depth with
  | zero => exact keeps_iff.mpr fun _ _ _ _ found => by cases found
  | succ depth ih => exact awaited_spec inners ih

omit inners primaries

/-- An expression is spelled at every depth. -/
theorem expressionAt_spec (depth : Nat) : Keeps given (expressionAt depth) (Expression.Spelled given) := by
  induction depth with
  | zero => exact keeps_iff.mpr fun _ _ _ _ found => by cases found
  | succ depth ih =>
    exact keeps_iff.mpr fun cursor =>
      keeps_iff.mp (expressionWith_spec ih (primaryAt_spec ih cursor.limit)) cursor

/-- An expression is spelled. -/
@[spec] theorem expression_spec : Keeps given expression (Expression.Spelled given) :=
  keeps_iff.mpr fun cursor => keeps_iff.mp (expressionAt_spec (cursor.limit + 1)) cursor

/-- A value is spelled. -/
@[spec] theorem primary_spec : Keeps given Python.primary (Expression.Spelled given) :=
  keeps_iff.mpr fun cursor => keeps_iff.mp (primaryAt_spec expression_spec (cursor.limit + 1)) cursor

/-- An expression that may stand behind a star is spelled. -/
@[spec] theorem item_spec : Keeps given item (Expression.Spelled given) :=
  starOr_spec primary_spec expression_spec

/-- Expressions with commas between them are spelled. -/
@[spec] theorem items_spec : Keeps given Python.items (Expression.Spelled given) := itemList_spec item_spec

end Expressions

end SourceOutline.Python
