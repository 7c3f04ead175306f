import SourceOutline.Python.Cursor

/-! The grammar of expressions. -/

namespace SourceOutline.Python

/-- What an expression looks like from outside, which decides where it may be assigned to. -/
inductive Form where
  /-- A name. -/
  | name
  /-- An attribute, an item, or a name in parentheses. -/
  | access
  /-- Several expressions, of which all may be assigned to or not. -/
  | sequence (assignable : Bool)
  /-- An expression behind a star, which may be assigned to or not. -/
  | starred (assignable : Bool)
  /-- Any other expression. -/
  | other
  deriving DecidableEq, Repr

namespace Form

/-- The expression may be assigned to. -/
def isTarget : Form → Bool
  | .name | .access => true
  | .sequence assignable | .starred assignable => assignable
  | .other => false

/-- The expression stands behind a star. -/
def isStarred : Form → Bool
  | .starred _ => true
  | _ => false

/-- The expression may be assigned to as a single target. -/
def isSingle : Form → Bool
  | .name | .access => true
  | _ => false

end Form

/-- An expression: its form, the kind of its node and the parts that are kept of it. -/
structure Expression where
  /-- What it looks like from outside. -/
  form : Form := .other
  /-- The kind of its node. -/
  kind : Kind := .expression
  /-- The children of its node. -/
  parts : List Node := []

namespace Expression

/-- What is kept of an expression inside a larger one. -/
def inside (expression : Expression) : List Node :=
  -- Of string literals only the replacement fields hold anything worth keeping.
  match expression.kind with
  | .string => expression.parts.flatMap Node.children
  | .concatenatedString => expression.parts.flatMap fun part => part.children.flatMap Node.children
  | _ => expression.parts

/-- A larger expression made of others. -/
def combine (operands : List Expression) : Expression :=
  -- What is kept of the operands is kept of the whole.
  { parts := operands.flatMap inside }

/-- Several expressions side by side. -/
def sequence (items : List Expression) : Expression :=
  -- They may be assigned to when each of them may.
  { combine items with form := .sequence (items.all fun item => item.form.isTarget) }

/-- An expression in parentheses. -/
def grouped (expression : Expression) : Expression :=
  -- Parentheses around a single target leave it a target but no plain name.
  { combine [expression] with
    form := if expression.form.isSingle then .access else expression.form }

end Expression

/-- The words that are not identifiers. -/
def reservedWords : List String :=
  ["False", "None", "True", "and", "as", "assert", "break", "class", "continue", "def", "del",
    "elif", "else", "except", "finally", "for", "from", "global", "if", "import", "in", "is",
    "lambda", "nonlocal", "not", "or", "pass", "raise", "return", "try", "while", "with", "yield"]

/-- The reserved words that are values. -/
def constantWords : List String := ["False", "None", "True"]

/-- The symbol is an identifier. -/
def Symbol.isIdentifier : Symbol → Bool
  | .word text => !reservedWords.contains text
  | _ => false

/-- An operand may start with the symbol. -/
def Symbol.startsOperand : Symbol → Bool
  | .word text => !reservedWords.contains text || constantWords.contains text
  | .number | .stringOpen _ => true
  | .operator text => ["(", "[", "\x7b", "..."].contains text
  | _ => false

/-- An expression may start with the symbol. -/
def Symbol.startsExpression : Symbol → Bool
  | .word text => text == "not" || text == "lambda" || (Symbol.word text).startsOperand
  | .operator text => ["+", "-", "~"].contains text || (Symbol.operator text).startsOperand
  | symbol => symbol.startsOperand

/-- An expression or one behind a star may start with the symbol. -/
def Symbol.startsItem (symbol : Symbol) : Bool :=
  -- The star takes a value apart.
  symbol.text == "*" || symbol.startsExpression

namespace Parse

/-- An identifier is taken. -/
def identifier : Parse Token := do
  -- Reserved words are refused.
  let token ← take
  if token.symbol.isIdentifier then return token else fail

/-- An identifier as a node. -/
def nameNode (role : Role) : Parse Node := do
  -- It has no parts.
  let token ← identifier
  return .mk .identifier role token.start token.stop []

/-- An expression as a node. -/
def expressionNode (role : Role) (parser : Parse Expression) : Parse Node := do
  -- The node has the kind and the parts of the expression.
  let start ← here
  let expression ← parser
  return .mk expression.kind role start (← behind) expression.parts

/-- What is kept of an expression. -/
def kept (parser : Parse Expression) : Parse (List Node) := do
  -- The expression itself is not needed.
  return (← parser).inside

/-- The clause of a comprehension comes next. -/
def seesClause : Parse Bool := do
  -- The first clause may be asynchronous.
  if ← sees "for" then return true
  if ← sees "async" then return (← afterNext).text == "for"
  return false

end Parse

section Grammar

open Parse

variable (inner : Parse Expression)

/-- A replacement field of a string literal, given the parser of fields in its format. -/
def replacementField (nested : Parse Node) (items : Parse Expression) : Parse Node :=
  -- An equals sign asks for the expression to be shown too.
  node .interpolation .part do
    symbol .fieldOpen
    let shown ← kept items
    let _ ← accept "="
    if (← next) == .fieldConversion then symbol .fieldConversion
    let format ←
      if (← next) == .fieldFormat then do
        symbol .fieldFormat
        repeatWhile (do return (← next) == .fieldOpen) nested
      else pure []
    symbol .fieldClose
    return shown ++ format.flatMap Node.children

/-- A replacement field whose format nests fields up to a depth. -/
def fieldAt (items : Parse Expression) : Nat → Cursor → Option (Node × Cursor)
  | 0, _ => none
  | depth + 1, cursor => replacementField (fieldAt items depth) items cursor

/-- A string literal. -/
def stringNode (items : Parse Expression) : Parse Node :=
  -- Between its quotes only the replacement fields are parsed.
  node .string .part do
    let opening ← take
    match opening.symbol with
    | .stringOpen _ => pure ()
    | _ => fail
    let depth ← limit
    let fields ← repeatWhile (do return (← next) == .fieldOpen) (fieldAt items depth)
    let closing ← take
    if closing.symbol != .stringClose then fail
    return .mk .stringStart .part opening.start opening.stop [] :: fields ++
      [.mk .stringEnd .part closing.start closing.stop []]

/-- A string literal comes next. -/
def seesString : Parse Bool := do
  -- Its style does not matter.
  match ← next with
  | .stringOpen _ => return true
  | _ => return false

/-- String literals side by side. -/
def strings (items : Parse Expression) : Parse Expression := do
  -- A single literal is not wrapped.
  let first ← stringNode items
  let later ← repeatWhile seesString (stringNode items)
  if later.isEmpty then return { kind := .string, parts := first.children }
  return { kind := .concatenatedString, parts := first :: later }

/-- The attributes, calls and items that may follow an operand. -/
def seesTrailer : Parse Bool := seesAny [".", "(", "["]

/-- An index or a slice. -/
def slice : Parse Expression := do
  -- Each of the three parts of a slice may be missing.
  if ← accept "*" then return .combine [← inner]
  let first ← if ← sees ":" then pure [] else pure [← inner]
  if !(← accept ":") then return .combine first
  let second ← if ← seesAny [":", "]", ","] then pure [] else pure [← inner]
  if !(← accept ":") then return .combine (first ++ second)
  let third ← if ← seesAny ["]", ","] then pure [] else pure [← inner]
  return .combine (first ++ second ++ third)

/-- An argument of a call or of a class. -/
def argument : Parse Node := do
  -- A name before an equals sign makes it a keyword argument.
  if (← next).isIdentifier && (← afterNext).text == "=" then
    node .keywordArgument .part do
      let _ ← identifier
      expect "="
      kept inner
  else
    expressionNode .part do
      if ← seesAny ["*", "**"] then
        let _ ← take
        return .combine [← inner]
      else inner

end Grammar

/-- The operators between two operands. -/
def binaryOperators : List String :=
  ["+", "-", "*", "/", "//", "%", "@", "**", "<<", ">>", "&", "|", "^"]

/-- The operators of comparisons that are one word or mark. -/
def comparisonOperators : List String := ["==", "!=", "<", "<=", ">", ">=", "<>", "in", "is"]

section Operators

open Parse

variable (primary : Parse Expression)

/-- An operand with the signs in front of it. -/
def signed : Parse Expression := do
  -- A sign makes it impossible to assign to.
  let signs ← repeatWhile (seesAny ["+", "-", "~"]) take
  let operand ← primary
  return if signs.isEmpty then operand else .combine [operand]

/-- Operands with operators between them. -/
def arithmetic : Parse Expression := do
  -- How the operators bind does not matter for what is kept.
  let first ← signed primary
  let later ← repeatWhile (seesAny binaryOperators) do
    let _ ← take
    signed primary
  return if later.isEmpty then first else .combine (first :: later)

/-- A comparison goes on. -/
def seesComparison : Parse Bool := do
  -- One operator starts with a word that means something else alone.
  if ← seesAny comparisonOperators then return true
  if ← sees "not" then return (← afterNext).text == "in"
  return false

/-- The operator of a comparison is taken. -/
def comparisonOperator : Parse Unit := do
  -- Two of the operators consist of two words.
  if ← accept "not" then expect "in"
  else if ← accept "is" then
    let _ ← accept "not"
  else
    let _ ← take

/-- Operands with comparisons between them. -/
def comparison : Parse Expression := do
  -- Comparisons may be chained.
  let first ← arithmetic primary
  let later ← repeatWhile seesComparison do
    comparisonOperator
    arithmetic primary
  return if later.isEmpty then first else .combine (first :: later)

/-- A comparison that may be negated. -/
def negation : Parse Expression := do
  -- Negations may be repeated.
  let signs ← repeatWhile (sees "not") take
  let operand ← comparison primary
  return if signs.isEmpty then operand else .combine [operand]

/-- Negations with logical operators between them. -/
def disjunction : Parse Expression := do
  -- How the operators bind does not matter for what is kept.
  let first ← negation primary
  let later ← repeatWhile (seesAny ["and", "or"]) do
    let _ ← take
    negation primary
  return if later.isEmpty then first else .combine (first :: later)

/-- An expression, maybe behind a star, which then is an operand. -/
def starOr (plain : Parse Expression) : Parse Expression := do
  -- What stands behind the star decides whether the whole may be assigned to.
  if ← accept "*" then
    let operand ← arithmetic primary
    return { Expression.combine [operand] with form := .starred operand.form.isTarget }
  else plain

/-- Targets with commas between them, which must all be assignable. -/
def targets : Parse (List Node) := do
  -- The word behind them ends the list.
  let found ← commaSeparated (seesAny ["in", "="]) (starOr primary (arithmetic primary))
  if !found.1.isEmpty && found.1.all fun target => target.form.isTarget then
    return found.1.flatMap Expression.inside
  else fail

/-- A clause of a comprehension with the conditions behind it. -/
def comprehensionClause : Parse (List Node) := do
  -- Neither what is run over nor a condition is a choice between two values.
  let _ ← accept "async"
  expect "for"
  let bound ← targets primary
  expect "in"
  let iterated ← kept (disjunction primary)
  let conditions ← repeatWhile (sees "if") do
    expect "if"
    kept (disjunction primary)
  return bound ++ iterated ++ conditions.flatten

/-- The clauses of a comprehension behind what it collects. -/
def comprehension (collected : List Expression) : Parse Expression := do
  -- There is at least one clause, and nothing that is collected stands behind a star.
  if collected.any fun value => value.form.isStarred then fail
  let clauses ← repeatWhile seesClause (comprehensionClause primary)
  return { parts := collected.flatMap Expression.inside ++ clauses.flatten }

end Operators

section Displays

open Parse

variable (primary inner : Parse Expression)

/-- The items behind the first one up to a closing bracket, which is taken. -/
def furtherItems (closing : String) (item : Parse Expression) : Parse (List Expression) := do
  -- A comma may stand behind the last item.
  let found ← if ← accept "," then commaSeparated (sees closing) item else pure ([], false)
  expect closing
  return found.1

/-- What stands in parentheses. -/
def parenthesized (yielded : Parse Expression) : Parse Expression := do
  -- Without a comma the parentheses only group.
  expect "("
  if ← accept ")" then return .sequence []
  if ← sees "yield" then
    let value ← yielded
    expect ")"
    return .combine [value]
  let item := starOr primary inner
  let first ← item
  if ← seesClause then
    let generator ← comprehension primary [first]
    expect ")"
    return generator
  let comma ← sees ","
  let later ← furtherItems ")" item
  if comma then return .sequence (first :: later)
  if first.form.isStarred then fail
  return first.grouped

/-- A list display or a list comprehension. -/
def bracketed : Parse Expression := do
  -- Only displays may be assigned to.
  expect "["
  if ← accept "]" then return .sequence []
  let item := starOr primary inner
  let first ← item
  if ← seesClause then
    let collected ← comprehension primary [first]
    expect "]"
    return collected
  return .sequence (first :: (← furtherItems "]" item))

/-- An entry of a dictionary. -/
def entry : Parse Expression := do
  -- All entries of another dictionary may stand in place of one.
  if ← accept "**" then return .combine [← arithmetic primary]
  let key ← inner
  expect ":"
  let value ← inner
  return .combine [key, value]

/-- A dictionary or a set, as a display or as a comprehension. -/
def braced : Parse Expression := do
  -- A colon behind the first item makes it a dictionary.
  expect "\x7b"
  if ← accept "\x7d" then return {}
  if ← sees "**" then
    let first ← entry primary inner
    return .combine (first :: (← furtherItems "\x7d" (entry primary inner)))
  let item := starOr primary inner
  let first ← item
  let isEntry ← accept ":"
  let held ← if isEntry then pure [first, ← inner] else pure [first]
  if ← seesClause then
    let collected ← comprehension primary held
    expect "\x7d"
    return collected
  let further := if isEntry then entry primary inner else item
  return .combine (held ++ (← furtherItems "\x7d" further))

/-- The arguments in parentheses, as nodes. -/
def callArguments : Parse (List Node) := do
  -- A generator without parentheses of its own must be the only argument.
  expect "("
  if ← accept ")" then return []
  let first ← argument inner
  if ← seesClause then
    if first.kind == .keywordArgument then fail
    let generator ← comprehension primary []
    expect ")"
    return [first, .mk .expression .part first.start (← behind) generator.parts]
  let later ← if ← accept "," then commaSeparated (sees ")") (argument inner) else pure ([], false)
  expect ")"
  return first :: later.1

/-- Arguments in parentheses, of which none is a generator, as nodes. -/
def plainArguments : Parse (List Node) := do
  -- A comma may stand behind the last one.
  expect "("
  let found ← commaSeparated (sees ")") (argument inner)
  expect ")"
  return found.1

/-- An attribute, a call or an item behind an operand. -/
def trailer : Parse Expression := do
  -- The result of a call may not be assigned to.
  if ← accept "." then
    let _ ← identifier
    return { form := .access }
  else if ← accept "[" then
    let found ← commaSeparated (sees "]") (slice inner)
    expect "]"
    if found.1.isEmpty then fail
    return { Expression.combine found.1 with form := .access }
  else
    let found ← callArguments primary inner
    return { parts := found.flatMap Node.children }

end Displays

section Parameters

open Parse

variable (primary inner : Parse Expression)

/-- A type as a node. -/
def typeNode (role : Role) : Parse Node :=
  -- A type may stand behind stars.
  expressionNode role do
    if ← seesAny ["*", "**"] then
      let _ ← take
      return .combine [← inner]
    else inner

/-- The type behind a colon, when types are allowed and one is given. -/
def typeBehind (typed : Bool) : Parse (List Node) := do
  -- At most one node comes out.
  if typed then
    if ← accept ":" then return [← typeNode inner .type] else return []
  else return []

/-- A parameter that takes all remaining arguments, behind its stars. -/
def splat (kind : Kind) (typed : Bool) (start : Mark) : Parse Node := do
  -- With a type it is the first part of a typed parameter.
  let name ← nameNode .part
  let plain := Node.mk kind .part start name.stop [name]
  let types ← typeBehind inner typed
  if types.isEmpty then return plain
  return .mk .typedParameter .part start (← behind) (plain :: types)

/-- A parameter from the name or the pattern on, which has been taken: it may have a type and a default
value. -/
def parameterFrom (typed : Bool) (start : Mark) (name : Node) : Parse Node := do
  -- The kind of the node tells which of the two it has.
  let types ← typeBehind inner typed
  if ← accept "=" then
    let value ← expressionNode .part inner
    let kind := if types.isEmpty then Kind.defaultParameter else .typedDefaultParameter
    return .mk kind .part start (← behind) (name :: types ++ [value])
  if types.isEmpty then return name.inRole .part
  return .mk .typedParameter .part start (← behind) (name.inRole .part :: types)

/-- A parameter with a name, or with a pattern, which has no type. -/
def plainParameter (typed : Bool) : Parse Node := do
  -- Patterns stand in parentheses.
  let start ← here
  if ← sees "(" then
    let pattern ← primary
    if !pattern.form.isTarget then fail
    parameterFrom inner false start (.mk .tuplePattern .name start (← behind) pattern.parts)
  else parameterFrom inner typed start (← nameNode .name)

/-- A parameter in any of its forms. -/
def parameter (typed : Bool) : Parse Node := do
  -- Stars and slashes may also stand alone.
  let start ← here
  if ← accept "/" then return .mk .positionalSeparator .part start (← behind) []
  if ← accept "**" then splat inner .dictionarySplat typed start
  else if ← accept "*" then
    if (← next).isIdentifier then splat inner .listSplat typed start
    else return .mk .keywordSeparator .part start (← behind) []
  else plainParameter primary inner typed

/-- An anonymous function. -/
def lambdaExpression : Parse Expression := do
  -- Its parameters have no types, because a colon ends them.
  expect "lambda"
  let parameters ← if ← sees ":" then pure [] else do
    let list ← node .lambdaParameters .part do
      return (← commaSeparated (sees ":") (parameter primary inner false)).1
    pure [list]
  expect ":"
  let body ← kept inner
  return { parts := parameters ++ body }

end Parameters

section Expressions

open Parse

variable (inner : Parse Expression)

/-- An expression that yields. -/
def yieldExpression (items : Parse Expression) : Parse Expression := do
  -- It may yield nothing, one or several values, or all those of another generator.
  expect "yield"
  if ← accept "from" then return .combine [← inner]
  if (← next).startsItem then return .combine [← items]
  return {}

/-- Expressions with commas between them and maybe one behind. -/
def itemList (item : Parse Expression) : Parse Expression := do
  -- A single one without a comma stands for itself.
  let found ← commaSeparated (do return !(← next).startsItem) item
  match found with
  | ([], _) => fail
  | ([single], false) => return single
  | (items, _) => return .sequence items

/-- A value without operators: a name, a literal or something in brackets. -/
def atom (primary : Parse Expression) : Parse Expression := do
  -- The first token tells which.
  let items := itemList (starOr primary inner)
  let yielded := yieldExpression inner items
  match ← next with
  | .word text =>
    let _ ← take
    if constantWords.contains text then return {}
    if reservedWords.contains text then fail
    return { form := .name }
  | .number =>
    let _ ← take
    return {}
  | .stringOpen _ => strings (do if ← sees "yield" then yielded else items)
  | .operator "(" => parenthesized primary inner yielded
  | .operator "[" => bracketed primary inner
  | .operator "\x7b" => braced primary inner
  | .operator "..." =>
    let _ ← take
    return {}
  | _ => fail

/-- A value with the attributes, calls and items behind it. -/
def withTrailers (primary : Parse Expression) : Parse Expression := do
  -- The last one decides whether the whole may be assigned to.
  let value ← atom inner primary
  let later ← repeatWhile seesTrailer (trailer primary inner)
  match later.getLast? with
  | none => return value
  | some last => return { Expression.combine (value :: later) with form := last.form }

/-- A value that may be awaited. -/
def awaited (primary : Parse Expression) : Parse Expression := do
  -- Without a value behind it the word is a name.
  if (← sees "await") && (← afterNext).startsOperand then
    let found ← attempt do
      expect "await"
      withTrailers inner primary
    match found with
    | some value => return .combine [value]
    | none => withTrailers inner primary
  else withTrailers inner primary

/-- A value whose parts in brackets are parsed with `inner` and whose operands nest up to a depth. -/
def primaryAt : Nat → Cursor → Option (Expression × Cursor)
  | 0, _ => none
  | depth + 1, cursor => awaited inner (primaryAt depth) cursor

/-- An expression, given the parser of those it holds. -/
def expressionWith (primary : Parse Expression) : Parse Expression := do
  -- A name before a colon and an equals sign names the value.
  if ← sees "lambda" then lambdaExpression primary inner
  else if (← next).isIdentifier && (← afterNext).text == ":=" then
    let _ ← identifier
    expect ":="
    return .combine [← inner]
  else
    let value ← disjunction primary
    if ← accept "if" then
      let condition ← disjunction primary
      expect "else"
      return .combine [value, condition, ← inner]
    else return value

end Expressions

/-- An expression that holds others up to a depth. -/
def expressionAt : Nat → Cursor → Option (Expression × Cursor)
  | 0, _ => none
  | depth + 1, cursor =>
    expressionWith (expressionAt depth) (primaryAt (expressionAt depth) cursor.limit) cursor

/-- An expression. -/
def expression : Parse Expression := fun cursor =>
  -- Each level takes a token, so the number of tokens is depth enough.
  expressionAt (cursor.limit + 1) cursor

/-- A value without operators around it. -/
def primary : Parse Expression := fun cursor =>
  -- Operands of items take a token each as well.
  primaryAt expression (cursor.limit + 1) cursor

/-- An expression or one behind a star. -/
def item : Parse Expression := starOr primary expression

/-- Expressions with commas between them. -/
def items : Parse Expression := itemList item

end SourceOutline.Python
