import SourceOutline.Python.Expression

/-! The grammar of the patterns that values are matched against. -/

namespace SourceOutline.Python

section Grammar

open Parse

variable (inner : Parse Unit)

/-- A number with a sign, or the sum of two numbers. -/
def numberPattern : Parse Unit := do
  -- Only the first number may have a sign.
  let _ ← accept "-"
  symbol .number
  if ← seesAny ["+", "-"] then
    let _ ← take
    symbol .number

/-- A name with the attributes behind it. -/
def dottedName : Parse Unit := do
  -- Each dot must be followed by a name.
  let _ ← identifier
  let _ ← repeatWhile (accept ".") identifier

/-- A pattern for an argument of a class. -/
def argumentPattern : Parse Unit := do
  -- A name before an equals sign tells which attribute is matched.
  if (← next).isIdentifier && (← afterNext).text == "=" then
    let _ ← identifier
    expect "="
  inner

/-- A name, maybe that of a class with patterns for its arguments. -/
def namePattern : Parse Unit := do
  -- Without arguments the name is bound or compared.
  dottedName
  if ← accept "(" then
    let _ ← commaSeparated (sees ")") (argumentPattern inner)
    expect ")"

/-- A literal. -/
def literalPattern : Parse Unit := do
  -- The first token tells which.
  match ← next with
  | .stringOpen _ =>
    let _ ← strings expression
  | .word text =>
    let _ ← take
    if !constantWords.contains text then fail
  | _ => numberPattern

/-- A key of a mapping with the pattern for its value. -/
def entryPattern : Parse Unit := do
  -- A name behind two stars takes all other entries.
  if ← accept "**" then
    let _ ← identifier
  else
    if (← next).isIdentifier then dottedName else literalPattern
    expect ":"
    inner

/-- A pattern or a name that takes all remaining values. -/
def itemPattern : Parse Unit := do
  -- The star stands only in front of a name.
  if ← accept "*" then
    let _ ← identifier
  else inner

/-- Patterns with commas between them up to a closing bracket, which is taken. -/
def patternsUntil (closing : String) (pattern : Parse Unit) : Parse Unit := do
  -- There may be none at all.
  let _ ← commaSeparated (sees closing) pattern
  expect closing

/-- A pattern without alternatives. -/
def closedPattern : Parse Unit := do
  -- Brackets enclose sequences and mappings.
  if ← accept "(" then patternsUntil ")" (itemPattern inner)
  else if ← accept "[" then patternsUntil "]" (itemPattern inner)
  else if ← accept "\x7b" then patternsUntil "\x7d" (entryPattern inner)
  else if (← next).isIdentifier then namePattern inner
  else literalPattern

/-- A pattern, given the parser of those it holds. -/
def patternWith : Parse Unit := do
  -- Alternatives come before the name that the value is bound to.
  closedPattern inner
  let _ ← repeatWhile (accept "|") (closedPattern inner)
  if ← accept "as" then
    let _ ← identifier

end Grammar

/-- A pattern that holds others up to a depth. -/
def patternAt : Nat → Cursor → Option (Unit × Cursor)
  | 0, _ => none
  | depth + 1, cursor => patternWith (patternAt depth) cursor

/-- A pattern. -/
def pattern : Parse Unit := fun cursor =>
  -- Each level takes a token, so the number of tokens is depth enough.
  patternAt (cursor.limit + 1) cursor

/-- The patterns of a case, with commas between them and maybe one behind. -/
def casePatterns : Parse Unit := do
  -- A condition or a colon ends them.
  let found ← Parse.commaSeparated (Parse.seesAny ["if", ":"]) (itemPattern pattern)
  if found.1.isEmpty then Parse.fail

end SourceOutline.Python
