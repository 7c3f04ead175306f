import SourceOutline.Python.Line
import SourceOutline.Python.Simple

/-! The grammar of single lines: statements without a body, and headers of those with one. -/

namespace SourceOutline.Python

/-- Which clauses may follow the parts of a statement read so far. -/
inductive Stage where
  /-- None. -/
  | closed
  /-- Further conditions, and an alternative. -/
  | condition
  /-- An alternative. -/
  | loop
  /-- Handlers of exceptions, a final clause and, once there is a handler, an alternative. -/
  | guarded (handled : Bool)
  /-- A final clause. -/
  | final
  deriving DecidableEq, Repr

namespace Stage

/-- The stage behind a clause that starts with a word, when such a clause may follow. -/
def follow : Stage → String → Option Stage
  | .condition, "elif" => some .condition
  | .condition, "else" => some .closed
  | .loop, "else" => some .closed
  | .guarded _, "except" => some (.guarded true)
  | .guarded true, "else" => some .final
  | .guarded _, "finally" => some .closed
  | .final, "finally" => some .closed
  | _, _ => none

/-- The statement may end here. -/
def mayEnd : Stage → Bool
  | .guarded handled => handled
  | _ => true

end Stage

/-- The header of a statement or clause with a body. -/
structure Head where
  /-- The kind of the node. -/
  kind : Kind
  /-- Which clauses may follow. -/
  stage : Stage
  /-- The lines of the body are cases. -/
  holdsCases : Bool
  /-- The parts before the body. -/
  parts : List Node
  /-- The body, when it stands on the same line. -/
  body : Option Node

/-- What stands on a line. -/
inductive Content where
  /-- Statements without a body. -/
  | simple (statements : List Node)
  /-- A decorator. -/
  | decorator (applied : List Node)
  /-- A header. -/
  | header (head : Head)

open Parse

/-- The body behind a colon, when it stands on the same line, which is taken with its end. -/
def lineBody : Parse (Option Node) := do
  -- A comment may stand behind the colon.
  expect ":"
  if (← next) == .newline then
    symbol .newline
    return none
  else return some (← node .block .body simpleLine)

/-- The header of a statement or clause with a body. -/
def header (kind : Kind) (stage : Stage) (parts : Parse (List Node)) : Parse Content := do
  -- The body is made of statements.
  let parts ← parts
  return .header ⟨kind, stage, false, parts, ← lineBody⟩

/-- Statements without a body. -/
def simpleContent : Parse Content := do
  return .simple (← simpleLine)

/-- The condition of a conditional statement or of a loop. -/
def conditionParts (word : String) : Parse (List Node) := do
  expect word
  kept expression

/-- What a loop runs over. -/
def forParts : Parse (List Node) := do
  -- The loop may be asynchronous.
  let _ ← accept "async"
  expect "for"
  let bound ← targets primary
  expect "in"
  return bound ++ (← kept items)

/-- A word that stands alone before its colon. -/
def wordParts (word : String) : Parse (List Node) := do
  expect word
  return []

/-- What a clause that handles exceptions handles. -/
def exceptParts : Parse (List Node) := do
  -- The second expression may also stand behind a comma.
  expect "except"
  let _ ← accept "*"
  if ← sees ":" then return []
  let handled ← kept expression
  if ← accept "as" then
    let _ ← identifier
    return handled
  else if ← accept "," then return handled ++ (← kept expression)
  else return handled

/-- A resource with the target it is bound to. -/
def withItem : Parse (List Node) := do
  -- The target is optional.
  let value ← kept expression
  if ← accept "as" then
    let target ← starOr primary primary
    if target.form.isTarget then return value ++ target.inside else fail
  else return value

/-- Resources in parentheses of their own. -/
def groupedItems : Parse (List Node) := do
  -- A comma may stand behind the last one, and a colon must follow.
  expect "("
  let found ← commaSeparated (sees ")") withItem
  expect ")"
  if (← sees ":") && !found.1.isEmpty then return found.1.flatten else fail

/-- The resources that a statement holds. -/
def withParts : Parse (List Node) := do
  -- Parentheses around all resources are tried before parentheses of the first one.
  let _ ← accept "async"
  expect "with"
  match ← attempt groupedItems with
  | some held => return held
  | none =>
    let found ← commaSeparated (sees ":") withItem
    if found.1.isEmpty then fail
    return found.1.flatten

/-- The header of a match statement. -/
def matchContent : Parse Content := do
  -- Unless a block follows, the word is a name.
  expect "match"
  let subject ← kept items
  expect ":"
  symbol .newline
  return .header ⟨.statement, .closed, true, subject, none⟩

/-- A case of a match statement. -/
def caseParts : Parse (List Node) := do
  -- A condition may follow the patterns.
  expect "case"
  casePatterns
  if ← accept "if" then kept expression else return []

/-- The parts of the definition of a function. -/
def functionParts : Parse (List Node) := do
  -- Every part has its role.
  let start ← here
  let async ← if ← accept "async" then
      pure [Node.mk .asyncKeyword .part start (← behind) []]
    else pure []
  expect "def"
  let name ← nameNode .name
  let generics ← typeParameters
  let parameters ← Parse.withTrivia <| node .parameters .parameters do
    expect "("
    let found ← commaSeparated (sees ")") (parameter primary expression true)
    expect ")"
    return found.1
  let returns ← if ← accept "->" then pure [← typeNode expression .returns] else pure []
  return async ++ [name] ++ generics ++ [parameters] ++ returns

/-- The parts of the definition of a class. -/
def classParts : Parse (List Node) := do
  -- Every part has its role.
  expect "class"
  let name ← nameNode .name
  let generics ← typeParameters
  let bases ← if ← sees "(" then do
      pure [← Parse.withTrivia (node .arguments .bases (plainArguments expression))]
    else pure []
  return [name] ++ generics ++ bases

/-- A decorator. -/
def decoratorContent : Parse Content := do
  expect "@"
  let applied ← kept expression
  symbol .newline
  return .decorator applied

/-- What stands on a line of a block or of a module. -/
def lineContent : Parse Content := do
  -- A line holds the header of one statement with a body, or several statements without.
  match ← next with
  | .word "if" => header .statement .condition (conditionParts "if")
  | .word "while" => header .statement .loop (conditionParts "while")
  | .word "for" => header .statement .loop forParts
  | .word "try" => header .statement (.guarded false) (wordParts "try")
  | .word "with" => header .statement .closed withParts
  | .word "def" => header .functionDefinition .closed functionParts
  | .word "class" => header .classDefinition .closed classParts
  | .operator "@" => decoratorContent
  | .word "async" =>
    match (← afterNext).text with
    | "def" => header .functionDefinition .closed functionParts
    | "for" => header .statement .loop forParts
    | "with" => header .statement .closed withParts
    | _ => simpleContent
  | .word "match" =>
    match ← attempt matchContent with
    | some content => return content
    | none => simpleContent
  | _ => simpleContent

/-- What stands on a line of a match statement. -/
def caseContent : Parse Content := header .clause .closed caseParts

/-- What stands on a line that starts with the word of a clause. -/
def clauseContent (word : String) : Parse Content :=
  -- The stage of the statement decides what may follow.
  match word with
  | "elif" => header .clause .closed (conditionParts "elif")
  | "except" => header .clause .closed exceptParts
  | _ => header .clause .closed (wordParts word)

end SourceOutline.Python
