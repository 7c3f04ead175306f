import SourceOutline.Proofs.Python.Spelling

/-! What lines are read as is built from their tokens: every name and every quote is one of them. -/

namespace SourceOutline.Python

open Std.Do

set_option mvcgen.warning false

section Patterns

open Parse

variable {given : List Token} {inner : Parse Unit}

/-- A number in a pattern is made of tokens of the line. -/
@[spec] theorem numberPattern_spec : Keeps given numberPattern fun _ => True := by
  mvcgen [numberPattern]
  all_goals grind

/-- A dotted name is made of tokens of the line. -/
@[spec] theorem dottedName_spec : Keeps given dottedName fun _ => True := by
  have later : Keeps given (repeatWhile (accept ".") identifier) _ :=
    repeatWhile_spec (accept_spec _) identifier_spec
  mvcgen [dottedName, later]
  all_goals grind

/-- A literal in a pattern is made of tokens of the line. -/
@[spec] theorem literalPattern_spec : Keeps given literalPattern fun _ => True := by
  have literals : Keeps given (strings expression) _ := strings_spec expression_spec
  mvcgen [literalPattern, literals]
  all_goals grind

variable (inners : Keeps given inner fun _ => True)

include inners

/-- A pattern for an argument is made of tokens of the line. -/
theorem argumentPattern_spec : Keeps given (argumentPattern inner) fun _ => True := by
  mvcgen [argumentPattern, inners]
  all_goals grind

/-- A name in a pattern is made of tokens of the line. -/
theorem namePattern_spec : Keeps given (namePattern inner) fun _ => True := by
  have arguments := commaSeparated_spec (sees_spec ")") (argumentPattern_spec inners)
  mvcgen [namePattern, arguments]
  all_goals grind

/-- An entry of a mapping is made of tokens of the line. -/
theorem entryPattern_spec : Keeps given (entryPattern inner) fun _ => True := by
  mvcgen [entryPattern, inners]
  all_goals grind

/-- A pattern behind a star is made of tokens of the line. -/
theorem itemPattern_spec : Keeps given (itemPattern inner) fun _ => True := by
  mvcgen [itemPattern, inners]
  all_goals grind

/-- Patterns in brackets are made of tokens of the line. -/
theorem patternsUntil_spec (closing : String) : Keeps given (patternsUntil closing inner) fun _ => True := by
  have found := commaSeparated_spec (sees_spec closing) inners
  mvcgen [patternsUntil, found]
  all_goals grind

/-- A pattern without alternatives is made of tokens of the line. -/
theorem closedPattern_spec : Keeps given (closedPattern inner) fun _ => True := by
  have items := patternsUntil_spec (itemPattern_spec inners)
  have entries := patternsUntil_spec (entryPattern_spec inners)
  have name := namePattern_spec inners
  mvcgen [closedPattern, items, entries, name]
  all_goals grind

/-- A pattern is made of tokens of the line. -/
theorem patternWith_spec : Keeps given (patternWith inner) fun _ => True := by
  have closed := closedPattern_spec inners
  have later := repeatWhile_spec (accept_spec "|") closed
  mvcgen [patternWith, closed, later]
  all_goals grind

omit inners

/-- A pattern is made of tokens of the line at every depth. -/
theorem patternAt_spec (depth : Nat) : Keeps given (patternAt depth) fun _ => True := by
  induction depth with
  | zero => exact keeps_iff.mpr fun _ _ _ _ found => by cases found
  | succ depth ih => exact patternWith_spec ih

/-- The patterns of a case are made of tokens of the line. -/
@[spec] theorem casePatterns_spec : Keeps given casePatterns fun _ => True := by
  have pattern : Keeps given pattern fun _ => True :=
    keeps_iff.mpr fun cursor => keeps_iff.mp (patternAt_spec (cursor.limit + 1)) cursor
  have found := commaSeparated_spec (seesAny_spec ["if", ":"]) (itemPattern_spec pattern)
  mvcgen [casePatterns, found]
  all_goals grind

end Patterns

section Statements

open Parse

variable {given : List Token}

/-- A name that may be renamed is made of tokens of the line. -/
theorem renamed_spec {name : Parse Unit} (keeps : Keeps given name fun _ => True) :
    Keeps given (renamed name) fun _ => True := by
  mvcgen [renamed, keeps]
  all_goals grind

/-- Names up to the end of a statement are made of tokens of the line. -/
theorem namesToEnd_spec {name : Parse Unit} (keeps : Keeps given name fun _ => True) :
    Keeps given (namesToEnd name) fun _ => True := by
  have ends : Keeps given (do return (← next) == .newline || (← sees ";") : Parse Bool) fun _ => True := by
    mvcgen
    all_goals grind
  have found := commaSeparated_spec ends keeps
  mvcgen [namesToEnd, found]
  all_goals grind

/-- An import of modules keeps no nodes. -/
@[spec] theorem importModules_spec : Keeps given importModules (AllSpelled given) := by
  have names : Keeps given (namesToEnd (renamed modulePath)) _ :=
    namesToEnd_spec (renamed_spec dottedName_spec)
  mvcgen [importModules, names]
  all_goals grind

/-- An import of names keeps no nodes. -/
@[spec] theorem importNames_spec : Keeps given importNames (AllSpelled given) := by
  have dots : Keeps given (repeatWhile (seesAny [".", "..."]) take) _ :=
    repeatWhile_spec (seesAny_spec _) take_spec
  have path : Keeps given modulePath fun _ => True := dottedName_spec
  have single : Keeps given (do let _ ← identifier : Parse Unit) fun _ => True := by
    mvcgen
    all_goals grind
  have name := renamed_spec single
  have grouped := commaSeparated_spec (sees_spec ")") name
  have names := namesToEnd_spec name
  -- The dots are tokens too, so the line must be named.
  have nexts : Keeps given next _ := next_spec
  have accepts : ∀ text, Keeps given (accept text) _ := accept_spec
  have expects : ∀ text, Keeps given (expect text) _ := expect_spec
  mvcgen [importNames, -next_spec, -accept_spec, -expect_spec, nexts, accepts, expects, dots, path, grouped,
    names]
  all_goals grind

/-- The values of an assignment are spelled. -/
@[spec] theorem assigned_spec : Keeps given assigned (Expression.Spelled given) := by
  have yielded : Keeps given (yieldExpression expression items) _ :=
    yieldExpression_spec expression_spec items_spec
  mvcgen [assigned, yielded]
  all_goals grind

/-- The values of several assignments are spelled. -/
@[spec] theorem assignments_spec : Keeps given assignments (AllSpelled given) := by
  have values : Keeps given (repeatWhile (accept "=") assigned) _ :=
    repeatWhile_spec (accept_spec _) assigned_spec
  mvcgen [assignments, values]
  all_goals grind

/-- The node of an expression of a statement is spelled. -/
@[spec] theorem formedNode_spec :
    Keeps given formedNode fun found => found.2.Spelled given ∧ found.2.kind.isPlain = true := by
  mvcgen [formedNode]
  all_goals grind [Expression.Spelled, Node.kind]

/-- What is kept of the expressions of a statement is spelled. -/
theorem formed_inside_spelled {found : List (Form × Node)}
    (spelled : ∀ value ∈ found, value.2.Spelled given ∧ value.2.kind.isPlain = true) :
    AllSpelled given
      (found.flatMap fun value => (Expression.mk value.1 value.2.kind value.2.children).inside) := by
  intro part member
  obtain ⟨value, above, member⟩ := List.mem_flatMap.mp member
  obtain ⟨node, plain⟩ := spelled value above
  exact Expression.Spelled.inside ⟨plain, node.children⟩ part member

/-- The nodes of the expressions of a statement are spelled. -/
theorem formed_nodes_spelled {found : List (Form × Node)}
    (spelled : ∀ value ∈ found, value.2.Spelled given ∧ value.2.kind.isPlain = true) :
    AllSpelled given (found.map Prod.snd) := by
  intro part member
  obtain ⟨value, above, rfl⟩ := List.mem_map.mp member
  exact (spelled value above).1

/-- A statement that consists of expressions is spelled. -/
@[spec] theorem expressions_spec : Keeps given expressions (AllSpelled given) := by
  have yielded : Keeps given (expressionNode .part (yieldExpression expression items)) _ :=
    expressionNode_spec .part (yieldExpression_spec expression_spec items_spec)
  have ends : Keeps given (do return !(← next).startsItem : Parse Bool) fun _ => True := by
    mvcgen
  have found := commaSeparated_spec ends formedNode_spec
  have type : Keeps given (typeNode expression .type) _ := typeNode_spec expression_spec .type
  have value : Keeps given (kept assigned) _ := kept_spec assigned_spec
  mvcgen [expressions, yielded, found, type, value]
  all_goals grind [Kind.isPlain, formed_inside_spelled, formed_nodes_spelled]

/-- A print statement is spelled. -/
@[spec] theorem printStatement_spec : Keeps given printStatement (AllSpelled given) := by
  have value : Keeps given (kept expression) _ := kept_spec expression_spec
  have ends : Keeps given (do return !(← next).startsExpression : Parse Bool) fun _ => True := by
    mvcgen
  have found := commaSeparated_spec ends expression_spec
  mvcgen [printStatement, value, found]
  all_goals grind

/-- An exec statement is spelled. -/
@[spec] theorem execStatement_spec : Keeps given execStatement (AllSpelled given) := by
  have literal : Keeps given (stringNode items) _ := stringNode_spec items_spec
  have spaces : Keeps given (kept items) _ := kept_spec items_spec
  mvcgen [execStatement, literal, spaces]
  all_goals grind

/-- The types that a definition is generic in are spelled. -/
@[spec] theorem typeParameters_spec : Keeps given typeParameters (AllSpelled given) := by
  have type : Keeps given (typeNode expression .part) _ := typeNode_spec expression_spec .part
  have bound : Keeps given (kept expression) _ := kept_spec expression_spec
  have parameter : Keeps given (do
      let type ← typeNode expression .part
      let bound ← if ← accept ":" then kept expression else pure []
      return type.children ++ bound) (AllSpelled given) := by
    mvcgen [type, bound]
    all_goals grind
  have found := commaSeparated_spec (sees_spec "]") parameter
  mvcgen [typeParameters, found]
  all_goals grind

/-- A name for a type is spelled. -/
@[spec] theorem typeAlias_spec : Keeps given typeAlias (AllSpelled given) := by
  have type : Keeps given (typeNode expression .part) _ := typeNode_spec expression_spec .part
  mvcgen [typeAlias, type]
  all_goals grind

/-- What is raised is spelled. -/
@[spec] theorem raiseStatement_spec : Keeps given raiseStatement (AllSpelled given) := by
  have raised : Keeps given (kept items) _ := kept_spec items_spec
  have cause : Keeps given (kept expression) _ := kept_spec expression_spec
  mvcgen [raiseStatement, raised, cause]
  all_goals grind

/-- What is asserted is spelled. -/
@[spec] theorem assertStatement_spec : Keeps given assertStatement (AllSpelled given) := by
  have condition : Keeps given (kept expression) _ := kept_spec expression_spec
  mvcgen [assertStatement, condition]
  all_goals grind

/-- What is deleted is spelled. -/
@[spec] theorem deleteStatement_spec : Keeps given deleteStatement (AllSpelled given) := by
  mvcgen [deleteStatement]
  all_goals grind

/-- A comment or a join is a spelled node. -/
theorem triviaNode_spelled (token : Token) : token.triviaNode.Spelled given := by
  refine .of_parts ?_ allSpelled_nil
  split <;> rfl

/-- A spelled node among spelled ones leaves them spelled. -/
theorem insertNode_spelled {node : Node} {nodes : List Node} (spelled : node.Spelled given)
    (others : AllSpelled given nodes) : AllSpelled given (insertNode node nodes) := by
  induction nodes with
  | nil => exact allSpelled_cons.mpr ⟨spelled, others⟩
  | cons other rest ih =>
    obtain ⟨here, later⟩ := allSpelled_cons.mp others
    rw [insertNode]
    split
    · exact allSpelled_cons.mpr ⟨spelled, others⟩
    · exact allSpelled_cons.mpr ⟨here, ih later⟩

/-- A node of a plain kind stays spelled when it gets its comments and joins. -/
theorem withTrivia_spelled {kind : Kind} {role : Role} {start stop : Mark} {parts : List Node}
    (plain : kind.isPlain = true) (spelled : AllSpelled given parts) (trivia : List Token) :
    ((Node.mk kind role start stop parts).withTrivia trivia).Spelled given := by
  refine .of_parts plain ?_
  generalize List.filter _ _ = inside
  revert spelled
  generalize parts = nodes
  intro spelled
  induction inside generalizing nodes with
  | nil => exact spelled
  | cons token rest ih => exact ih _ (insertNode_spelled (triviaNode_spelled token) spelled)

/-- A node of a plain kind with its comments and joins is spelled when its parts are. -/
theorem node_withTrivia_spec {kind : Kind} {role : Role} {children : Parse (List Node)}
    (plain : kind.isPlain = true) (keeps : Keeps given children (AllSpelled given)) :
    Keeps given (node kind role children).withTrivia (Node.Spelled given) := by
  mvcgen [Parse.withTrivia, node, keeps]
  all_goals grind [withTrivia_spelled]

/-- Asking for a print statement takes nothing. -/
@[spec] theorem seesPrint_spec : Keeps given seesPrint fun _ => True := by
  mvcgen [seesPrint]

/-- A statement without a body is spelled. -/
@[spec] theorem simpleStatement_spec : Keeps given simpleStatement (Node.Spelled given) := by
  have plain : Keeps given (node .expressionStatement .part expressions).withTrivia _ :=
    node_withTrivia_spec rfl expressions_spec
  have modules : Keeps given (node .importStatement .part importModules) _ := node_spec rfl importModules_spec
  have names : Keeps given (node .importStatement .part importNames) _ := node_spec rfl importNames_spec
  have raised : Keeps given (node .statement .part raiseStatement) _ := node_spec rfl raiseStatement_spec
  have asserted : Keeps given (node .statement .part assertStatement) _ := node_spec rfl assertStatement_spec
  have deleted : Keeps given (node .statement .part deleteStatement) _ := node_spec rfl deleteStatement_spec
  have printed : Keeps given (node .printStatement .part printStatement) _ := node_spec rfl printStatement_spec
  have tried := attempt_spec printed
  have executed : Keeps given (node .execStatement .part execStatement) _ := node_spec rfl execStatement_spec
  have aliased : Keeps given (node .statement .part typeAlias) _ := node_spec rfl typeAlias_spec
  have word : Keeps given (node .statement .part do
      let _ ← take
      return []) (Node.Spelled given) := by
    refine node_spec rfl ?_
    mvcgen
    all_goals grind
  have single : Keeps given (do let _ ← identifier : Parse Unit) fun _ => True := by
    mvcgen
    all_goals grind
  have listed := namesToEnd_spec single
  have declared : Keeps given (node .statement .part do
      let _ ← take
      namesToEnd (do let _ ← identifier)
      return []) (Node.Spelled given) := by
    refine node_spec rfl ?_
    mvcgen [listed]
    all_goals grind
  have values : Keeps given (kept items) _ := kept_spec items_spec
  have returned : Keeps given (node .statement .part do
      let _ ← take
      if (← next).startsItem then kept items else return []) (Node.Spelled given) := by
    refine node_spec rfl ?_
    mvcgen [values]
    all_goals grind
  mvcgen [simpleStatement, plain, modules, names, raised, asserted, deleted, tried, executed, aliased, word,
    declared, returned]
  all_goals grind

/-- The statements of a line are spelled. -/
@[spec] theorem simpleLine_spec : Keeps given simpleLine (AllSpelled given) := by
  have more : Keeps given
      (do if ← accept ";" then return (← next) != .newline else return false : Parse Bool) fun _ => True := by
    mvcgen
    all_goals grind
  have later := repeatWhile_spec more simpleStatement_spec
  mvcgen [simpleLine, later]
  all_goals grind [allSpelled_of_forall]

end Statements

/-- The first of some parts that is a name is an identifier. -/
def StartsNamed (parts : List Node) : Prop :=
  ∃ name, (parts.find? fun part => part.role == .name) = some name ∧ name.kind = .identifier

/-- Parts that start with an identifier as name have one. -/
theorem startsNamed_cons {name : Node} {rest : List Node} (role : name.role = .name)
    (isName : name.kind = .identifier) : StartsNamed (name :: rest) := ⟨name, by simp [role], isName⟩

/-- A part that is no name does not matter. -/
theorem StartsNamed.cons {other : Node} {rest : List Node} (named : StartsNamed rest)
    (role : other.role ≠ .name) : StartsNamed (other :: rest) := by
  obtain ⟨name, found, isName⟩ := named
  exact ⟨name, by simp [role, found], isName⟩

/-- A header whose parts are spelled; a definition has a name. -/
structure Head.Spelled (given : List Token) (head : Head) : Prop where
  /-- The parts before the body are spelled. -/
  parts : AllSpelled given head.parts
  /-- A body on the line is spelled, and nothing else is asked of it. -/
  body : ∀ body ∈ head.body, body.kind.isPlain = true ∧ body.Spelled given
  /-- Definitions have names, and nothing is asked of other statements. -/
  named : head.kind.isPlain = true ∨
    (head.kind = .functionDefinition ∨ head.kind = .classDefinition) ∧ StartsNamed head.parts

/-- What stands on a line is made of spelled nodes. -/
inductive Content.Spelled (given : List Token) : Content → Prop where
  /-- The statements are spelled. -/
  | simple {statements : List Node} (spelled : AllSpelled given statements) :
    Content.Spelled given (.simple statements)
  /-- What is applied is spelled. -/
  | decorator {applied : List Node} (spelled : AllSpelled given applied) :
    Content.Spelled given (.decorator applied)
  /-- The header is spelled. -/
  | header {head : Head} (spelled : head.Spelled given) : Content.Spelled given (.header head)

section Headers

open Parse

variable {given : List Token}

/-- A body on the line of its header is spelled. -/
@[spec] theorem lineBody_spec :
    Keeps given lineBody fun found => ∀ body ∈ found, body.kind.isPlain = true ∧ body.Spelled given := by
  mvcgen [lineBody, node]
  all_goals grind [Kind.isPlain, Node.kind]

/-- The header of a statement that is no definition is spelled when its parts are. -/
theorem header_spec {kind : Kind} (plain : kind.isPlain = true) (stage : Stage)
    {parts : Parse (List Node)} (keeps : Keeps given parts (AllSpelled given)) :
    Keeps given (header kind stage parts) (Content.Spelled given) := by
  mvcgen [header, keeps]
  all_goals grind [Content.Spelled, Head.Spelled]

/-- The header of a definition is spelled when its parts are and start with a name. -/
theorem header_named_spec {kind : Kind} (defines : kind = .functionDefinition ∨ kind = .classDefinition)
    (stage : Stage) {parts : Parse (List Node)}
    (keeps : Keeps given parts fun found => AllSpelled given found ∧ StartsNamed found) :
    Keeps given (header kind stage parts) (Content.Spelled given) := by
  mvcgen [header, keeps]
  all_goals grind [Content.Spelled, Head.Spelled]

/-- Statements without a body are spelled. -/
@[spec] theorem simpleContent_spec : Keeps given simpleContent (Content.Spelled given) := by
  mvcgen [simpleContent]
  all_goals grind [Content.Spelled]

/-- The condition of a statement is spelled. -/
theorem conditionParts_spec (word : String) : Keeps given (conditionParts word) (AllSpelled given) := by
  have value : Keeps given (kept expression) _ := kept_spec expression_spec
  mvcgen [conditionParts, value]
  all_goals grind

/-- What a loop runs over is spelled. -/
theorem forParts_spec : Keeps given forParts (AllSpelled given) := by
  have bound : Keeps given (targets primary) _ := targets_spec primary_spec
  have values : Keeps given (kept items) _ := kept_spec items_spec
  mvcgen [forParts, bound, values]
  all_goals grind

/-- A word alone keeps no nodes. -/
theorem wordParts_spec (word : String) : Keeps given (wordParts word) (AllSpelled given) := by
  mvcgen [wordParts]
  all_goals grind

/-- What a clause handles is spelled. -/
theorem exceptParts_spec : Keeps given exceptParts (AllSpelled given) := by
  have value : Keeps given (kept expression) _ := kept_spec expression_spec
  mvcgen [exceptParts, value]
  all_goals grind

/-- A resource is spelled. -/
@[spec] theorem withItem_spec : Keeps given withItem (AllSpelled given) := by
  have value : Keeps given (kept expression) _ := kept_spec expression_spec
  have target : Keeps given (starOr primary primary) _ := starOr_spec primary_spec primary_spec
  mvcgen [withItem, value, target]
  all_goals grind

/-- Resources in parentheses are spelled. -/
theorem groupedItems_spec : Keeps given groupedItems (AllSpelled given) := by
  have found : Keeps given (commaSeparated (sees ")") withItem) _ :=
    commaSeparated_spec (sees_spec _) withItem_spec
  mvcgen [groupedItems, found]
  all_goals grind

/-- The resources that a statement holds are spelled. -/
theorem withParts_spec : Keeps given withParts (AllSpelled given) := by
  have tried : Keeps given (attempt groupedItems) _ := attempt_spec groupedItems_spec
  have found : Keeps given (commaSeparated (sees ":") withItem) _ :=
    commaSeparated_spec (sees_spec _) withItem_spec
  mvcgen [withParts, tried, found]
  all_goals grind

/-- The header of a match statement is spelled. -/
theorem matchContent_spec : Keeps given matchContent (Content.Spelled given) := by
  have subject : Keeps given (kept items) _ := kept_spec items_spec
  mvcgen [matchContent, subject]
  all_goals grind [Content.Spelled, Head.Spelled, Kind.isPlain]

/-- A case of a match statement is spelled. -/
theorem caseParts_spec : Keeps given caseParts (AllSpelled given) := by
  have condition : Keeps given (kept expression) _ := kept_spec expression_spec
  mvcgen [caseParts, condition]
  all_goals grind

/-- The parts of a function are spelled and start with its name. -/
theorem functionParts_spec :
    Keeps given functionParts fun found => AllSpelled given found ∧ StartsNamed found := by
  have found : Keeps given (commaSeparated (sees ")") (parameter primary expression true)) _ :=
    commaSeparated_spec (sees_spec _) (parameter_spec primary_spec expression_spec true)
  have parameters : Keeps given (Parse.withTrivia <| node .parameters .parameters do
      expect "("
      let found ← commaSeparated (sees ")") (parameter primary expression true)
      expect ")"
      return found.1) (Node.Spelled given) := by
    refine node_withTrivia_spec rfl ?_
    mvcgen [found]
    all_goals grind [allSpelled_of_forall]
  have returns : Keeps given (typeNode expression .returns) _ := typeNode_spec expression_spec .returns
  mvcgen [functionParts, parameters, returns]
  all_goals grind [startsNamed_cons, StartsNamed.cons, Node.role, Kind.isPlain]

/-- The parts of a class are spelled and start with its name. -/
theorem classParts_spec :
    Keeps given classParts fun found => AllSpelled given found ∧ StartsNamed found := by
  have bases : Keeps given (node .arguments .bases (plainArguments expression)).withTrivia _ :=
    node_withTrivia_spec rfl (plainArguments_spec expression_spec)
  mvcgen [classParts, bases]
  all_goals grind [startsNamed_cons]

/-- A decorator is spelled. -/
@[spec] theorem decoratorContent_spec : Keeps given decoratorContent (Content.Spelled given) := by
  have applied : Keeps given (kept expression) _ := kept_spec expression_spec
  mvcgen [decoratorContent, applied]
  all_goals grind [Content.Spelled]

/-- What stands on a line is spelled. -/
theorem lineContent_spec : Keeps given lineContent (Content.Spelled given) := by
  have conditional : Keeps given (header .statement .condition (conditionParts "if")) _ :=
    header_spec rfl _ (conditionParts_spec _)
  have conditionLoop : Keeps given (header .statement .loop (conditionParts "while")) _ :=
    header_spec rfl _ (conditionParts_spec _)
  have loop : Keeps given (header .statement .loop forParts) _ := header_spec rfl _ forParts_spec
  have guarded : Keeps given (header .statement (.guarded false) (wordParts "try")) _ :=
    header_spec rfl _ (wordParts_spec _)
  have resources : Keeps given (header .statement .closed withParts) _ := header_spec rfl _ withParts_spec
  have function : Keeps given (header .functionDefinition .closed functionParts) _ :=
    header_named_spec (.inl rfl) _ functionParts_spec
  have owner : Keeps given (header .classDefinition .closed classParts) _ :=
    header_named_spec (.inr rfl) _ classParts_spec
  have tried : Keeps given (attempt matchContent) _ := attempt_spec matchContent_spec
  mvcgen [lineContent, conditional, conditionLoop, loop, guarded, resources, function, owner, tried]
  all_goals grind

/-- What stands on a line of a match statement is spelled. -/
theorem caseContent_spec : Keeps given caseContent (Content.Spelled given) :=
  header_spec rfl _ caseParts_spec

/-- What stands on a line of a clause is spelled. -/
theorem clauseContent_spec (word : String) : Keeps given (clauseContent word) (Content.Spelled given) := by
  unfold clauseContent
  split
  · exact header_spec rfl _ (conditionParts_spec _)
  · exact header_spec rfl _ exceptParts_spec
  · exact header_spec rfl _ (wordParts_spec _)

end Headers

end SourceOutline.Python
