import SourceOutline.Python.Pattern

/-! The grammar of statements without a body of their own. -/

namespace SourceOutline.Python

open Parse

/-- The names in a dotted name are taken. -/
def modulePath : Parse Unit := dottedName

/-- A name under another name, maybe. -/
def renamed (name : Parse Unit) : Parse Unit := do
  -- The other name is a single one.
  name
  if ← accept "as" then
    let _ ← identifier

/-- Names with commas between them up to the end of a statement. -/
def namesToEnd (name : Parse Unit) : Parse Unit := do
  -- A comma may stand behind the last one.
  let ends : Parse Bool := do return (← next) == .newline || (← sees ";")
  let found ← commaSeparated ends name
  if found.1.isEmpty then fail

/-- An import of whole modules. -/
def importModules : Parse (List Node) := do
  -- Nothing is kept but the text.
  expect "import"
  namesToEnd (renamed modulePath)
  return []

/-- An import of names from a module. -/
def importNames : Parse (List Node) := do
  -- Dots before the module count packages upward, and without a module stand for it.
  expect "from"
  let dots ← repeatWhile (seesAny [".", "..."]) take
  let named := (← next).isIdentifier
  if named then modulePath
  if !named && dots.isEmpty then fail
  expect "import"
  let name := renamed (do let _ ← identifier)
  if ← accept "*" then return []
  if ← accept "(" then
    let found ← commaSeparated (sees ")") name
    expect ")"
    if found.1.isEmpty then fail
  else namesToEnd name
  return []

/-- The values of an assignment: several expressions or one that yields. -/
def assigned : Parse Expression := do
  -- What yields cannot be assigned to.
  if ← sees "yield" then yieldExpression expression items else items

/-- The operators that assign and compute at once. -/
def augmentedOperators : List String :=
  ["+=", "-=", "*=", "/=", "//=", "%=", "@=", "&=", "|=", "^=", ">>=", "<<=", "**="]

/-- The values behind the first equals sign of an assignment. -/
def assignments : Parse (List Node) := do
  -- Each value but the last one is assigned to as well.
  let values ← repeatWhile (accept "=") assigned
  if values.dropLast.all fun value => value.form.isTarget then
    return values.flatMap Expression.inside
  else fail

/-- An expression of a statement with its form. -/
def formedNode : Parse (Form × Node) := do
  -- The form decides whether it may be assigned to.
  let start ← here
  let value ← item
  return (value.form, .mk value.kind .part start (← behind) value.parts)

/-- A statement that consists of expressions, with or without assignment. -/
def expressions : Parse (List Node) := do
  -- An assignment is one part; otherwise each expression is a part.
  let start ← here
  if ← sees "yield" then
    let value ← expressionNode .part (yieldExpression expression items)
    return [value]
  let found ← commaSeparated (do return !(← next).startsItem) formedNode
  let parts := found.1.flatMap fun value =>
    (Expression.mk value.1 value.2.kind value.2.children).inside
  let whole (later : List Node) : Parse (List Node) := do
    return [.mk .expression .part start (← behind) (parts ++ later)]
  let isSingle := !found.2 && found.1.all fun value => value.1.isSingle
  if found.1.isEmpty then fail
  if ← sees "=" then
    if found.1.all fun value => value.1.isTarget then whole (← assignments) else fail
  else if ← seesAny augmentedOperators then
    let _ ← take
    if isSingle then whole (← kept assigned) else fail
  else if ← accept ":" then
    if !isSingle then fail
    let type ← typeNode expression .type
    let value ← if ← accept "=" then kept assigned else pure []
    whole (type.children ++ value)
  else return found.1.map Prod.snd

/-- A print statement of the old form. -/
def printStatement : Parse (List Node) := do
  -- The target, if any, stands behind two angles.
  expect "print"
  let target ← if ← accept ">>" then do
      let value ← kept expression
      let _ ← accept ","
      pure value
    else pure []
  let found ← commaSeparated (do return !(← next).startsExpression) expression
  if (← next) == .newline || (← sees ";") then
    return target ++ found.1.flatMap Expression.inside
  else fail

/-- An exec statement of the old form. -/
def execStatement : Parse (List Node) := do
  -- The code is a literal or a name, which may be run in other name spaces.
  expect "exec"
  let code ← if ← seesString then pure (← stringNode items).children else pure [← nameNode .part]
  let spaces ← if ← accept "in" then kept items else pure []
  return code.flatMap Node.children ++ spaces

/-- The types in brackets that a definition is generic in. -/
def typeParameters : Parse (List Node) := do
  -- A type may have a bound behind a colon.
  if !(← accept "[") then return []
  let found ← commaSeparated (sees "]") do
    let type ← typeNode expression .part
    let bound ← if ← accept ":" then kept expression else pure []
    return type.children ++ bound
  expect "]"
  if found.1.isEmpty then fail
  return found.1.flatten

/-- A name for a type. -/
def typeAlias : Parse (List Node) := do
  -- The name may be generic.
  expect "type"
  let _ ← identifier
  let parameters ← typeParameters
  expect "="
  return parameters ++ (← typeNode expression .part).children

/-- What is raised and from which cause. -/
def raiseStatement : Parse (List Node) := do
  -- Several values with commas between them are accepted.
  expect "raise"
  if !(← next).startsItem then return []
  let raised ← kept items
  let cause ← if ← accept "from" then kept expression else pure []
  return raised ++ cause

/-- A condition that is asserted, with a message maybe. -/
def assertStatement : Parse (List Node) := do
  -- The message stands behind a comma.
  expect "assert"
  let condition ← kept expression
  let message ← if ← accept "," then kept expression else pure []
  return condition ++ message

/-- What is deleted. -/
def deleteStatement : Parse (List Node) := do
  -- Only what may be assigned to may be deleted.
  expect "del"
  let deleted ← items
  if deleted.form.isTarget then return deleted.inside else fail

/-- A print statement of the old form comes next, as far as two tokens tell. -/
def seesPrint : Parse Bool := do
  -- Brackets and signs behind the word continue an expression.
  let second ← afterNext
  let continues := ["(", "[", "+", "-"].contains second.text
  return second.text == ">>" || (second.startsExpression && !continues)

/-- A statement that starts with a word of its own, or consists of expressions. -/
def simpleStatement : Parse Node := do
  -- Words that are only sometimes keywords are looked at together with what follows.
  let plain := (node .expressionStatement .part expressions).withTrivia
  match ← next with
  | .word "import" => node .importStatement .part importModules
  | .word "from" => node .importStatement .part importNames
  | .word "pass" | .word "break" | .word "continue" =>
    node .statement .part do
      let _ ← take
      return []
  | .word "global" | .word "nonlocal" =>
    node .statement .part do
      let _ ← take
      namesToEnd (do let _ ← identifier)
      return []
  | .word "return" =>
    node .statement .part do
      let _ ← take
      if (← next).startsItem then kept items else return []
  | .word "raise" => node .statement .part raiseStatement
  | .word "assert" => node .statement .part assertStatement
  | .word "del" => node .statement .part deleteStatement
  | .word "print" =>
    if ← seesPrint then
      match ← attempt (node .printStatement .part printStatement) with
      | some statement => return statement
      | none => plain
    else plain
  | .word "exec" =>
    let second ← afterNext
    let isString := match second with
      | .stringOpen _ => true
      | _ => false
    if isString || second.isIdentifier then node .execStatement .part execStatement else plain
  | .word "type" =>
    if (← afterNext).isIdentifier then node .statement .part typeAlias else plain
  | _ => plain

/-- The statements of a line, which is taken with its end. -/
def simpleLine : Parse (List Node) := do
  -- A semicolon may stand behind the last one.
  let first ← simpleStatement
  let more : Parse Bool := do
    if ← accept ";" then return (← next) != .newline else return false
  let later ← repeatWhile more simpleStatement
  symbol .newline
  return first :: later

end SourceOutline.Python
