import SourceOutline.Toml.Document
import SourceOutline.Toml.Number

/-! Settings read from text. -/

namespace SourceOutline.Toml

/-- A reader, which fails or moves along the text. -/
abbrev Scan (α : Type) : Type := StateT (List Char) Option α

namespace Scan

variable {α : Type}

/-- The text is not acceptable. -/
def fail : Scan α := fun _ => none

/-- The rest of the text. -/
def rest : Scan (List Char) := fun cs => some (cs, cs)

/-- As many characters are passed as a text has. -/
def skip (text : List Char) : Scan Unit := fun cs => some ((), cs.drop text.length)

/-- The text starts with another one. -/
def sees (text : String) : Scan Bool := fun cs => some (text.toList.isPrefixOf cs, cs)

/-- A text is passed if it comes next. -/
def accept (text : String) : Scan Bool := fun cs =>
  -- Otherwise nothing is passed.
  match text.toList.isPrefixOf? cs with
  | some later => some (true, later)
  | none => some (false, cs)

/-- A text must come next and is passed. -/
def expect (text : String) : Scan Unit := do
  -- Anything else is refused.
  if ← accept text then return () else fail

/-- The longest run of characters of a kind is passed. -/
def run (kind : Char → Bool) : Scan (List Char) := fun cs =>
  -- The run may be empty.
  some (cs.takeWhile kind, cs.dropWhile kind)

/-- Spaces and tabs are passed. -/
def blanks : Scan Unit := do
  -- Line breaks stay.
  let _ ← run fun c => c == ' ' || c == '\t'

/-- A line break is passed if it comes next. -/
def lineBreak : Scan Bool := do
  -- A carriage return counts only together with a line feed.
  if ← accept "\n" then return true else accept "\r\n"

/-- What a reader finds, repeated as long as it finds something; `done` are those found before, the
last one first. -/
def repeatFrom (reader : Scan (Option α)) (done : List α) :
    Nat → List Char → Option (List α × List Char)
  | 0, _ => none
  | fuel + 1, cs =>
    -- A failure of the reader is not the end of the repetition but of everything.
    match reader cs with
    | none => none
    | some (none, later) => some (done.reverse, later)
    | some (some value, later) => repeatFrom reader (value :: done) fuel later

/-- What a reader finds, repeated as long as it finds something. -/
def repeated (reader : Scan (Option α)) : Scan (List α) := fun cs =>
  -- Each round passes a character, so the length of the text is rounds enough.
  repeatFrom reader [] (cs.length + 2) cs

end Scan

open Scan

/-- A character that may stand in a comment. -/
def isCommentChar (c : Char) : Bool :=
  -- Of the control characters only the tab is accepted.
  c == '\t' || (c.toNat ≥ 0x20 && c.toNat != 0x7F)

/-- A comment is passed if it comes next. -/
def comment : Scan Unit := do
  -- It ends before the line break.
  if ← accept "#" then
    let _ ← run isCommentChar

/-- Blanks, comments and line breaks are passed. -/
def gap : Scan Unit := do
  -- Inside brackets line breaks do not matter.
  blanks
  let _ ← repeated do
    comment
    if ← lineBreak then
      blanks
      return some ()
    else return none

/-- The end of a line is passed: blanks, a comment, and a line break or the end of the text. -/
def lineEnd : Scan Unit := do
  -- Anything else behind a value is refused.
  blanks
  comment
  if (← rest).isEmpty then return ()
  if ← lineBreak then return () else fail

/-- The character of a code point given by exactly `width` digits. -/
def codePoint (width : Nat) : Scan Char := do
  -- Halves of pairs and numbers beyond the last code point are refused.
  let digits := (← rest).take width
  let code := numberIn 16 digits
  if digits.length = width && digits.all fun c => (digitIn 16 c).isSome then
    skip digits
    if h : code.isValidChar then return Char.ofNatAux code h else fail
  else fail

/-- The character that a backslash and what follows it stand for; the backslash has been passed. -/
def escaped : Scan Char := do
  -- All other letters are refused.
  match ← rest with
  | [] => fail
  | c :: later =>
    set later
    match c with
    | 'b' => return '\x08'
    | 't' => return '\t'
    | 'n' => return '\n'
    | 'f' => return '\x0c'
    | 'r' => return '\r'
    | '"' => return '"'
    | '\\' => return '\\'
    | 'u' => codePoint 4
    | 'U' => codePoint 8
    | _ => fail

/-- The content of a text on one line, whose opening quote has been passed. -/
def basicBody : Scan (List Char) := do
  -- The closing quote is passed as well.
  let content ← repeated do
    match ← rest with
    | [] => fail
    | c :: later =>
      set later
      if c == '"' then return none
      else if c == '\\' then return some (← escaped)
      else if isCommentChar c then return some c
      else fail
  return content

/-- The content of a text on one line without escapes, whose opening quote has been passed. -/
def literalBody : Scan (List Char) := do
  -- The closing quote is passed as well.
  let content ← run fun c => c != '\'' && isCommentChar c
  expect "'"
  return content

/-- A backslash at the end of a line swallows the blanks and line breaks behind it. -/
def lineJoin : Scan Bool := fun cs =>
  -- Only blanks may stand between the backslash and the line break.
  let later := cs.dropWhile fun c => c == ' ' || c == '\t'
  match later with
  | '\n' :: _ | '\r' :: '\n' :: _ =>
    match gapOnly later.length later with
    | some rest => some (true, rest)
    | none => none
  | _ => some (false, cs)
where
  /-- What follows blanks and line breaks. -/
  gapOnly : Nat → List Char → Option (List Char)
    | _, [] => some []
    | 0, cs => some cs
    | fuel + 1, c :: rest =>
      -- A carriage return counts only together with a line feed.
      if c == ' ' || c == '\t' || c == '\n' then gapOnly fuel rest
      else if c == '\r' then
        match rest with
        | '\n' :: later => gapOnly fuel later
        | _ => some (c :: rest)
      else some (c :: rest)

/-- The quotes at the end of a text over several lines: up to two of them belong to the text. -/
def closingQuotes (quote : Char) : Scan (Option (List Char)) := do
  -- Fewer than three quotes do not end the text, more than five are too many.
  let quotes := (← rest).takeWhile (· == quote)
  if quotes.length < 3 then return none
  if quotes.length > 5 then fail
  skip quotes
  return some (quotes.drop 3)

/-- One piece of a text over several lines, or nothing at its end. -/
def multilinePiece (quote : Char) (escapes : Bool) : Scan (Option (List Char)) := do
  -- Line breaks are read as line feeds.
  if ← sees (String.ofList [quote, quote, quote]) then return none
  if ← lineBreak then return some ['\n']
  match ← rest with
  | [] => fail
  | c :: later =>
    set later
    if escapes && c == '\\' then
      if ← lineJoin then return some [] else return some [← escaped]
    else if isCommentChar c then return some [c]
    else fail

/-- The content of a text over several lines, whose opening quotes have been passed. -/
def multilineBody (quote : Char) (escapes : Bool) : Scan (List Char) := do
  -- A line break directly behind the opening quotes does not count.
  let _ ← lineBreak
  let pieces ← repeated (multilinePiece quote escapes)
  match ← closingQuotes quote with
  | some extra => return pieces.flatten ++ extra
  | none => fail

/-- A text of any of the four forms, when one comes next. -/
def text : Scan (Option (List Char)) := do
  -- Three quotes are tried before one.
  if ← accept "\"\"\"" then return some (← multilineBody '"' true)
  if ← accept "'''" then return some (← multilineBody '\'' false)
  if ← accept "\"" then return some (← basicBody)
  if ← accept "'" then return some (← literalBody)
  return none

/-- A character of a name without quotes. -/
def isNameChar (c : Char) : Bool :=
  -- Only letters of ASCII are accepted.
  c.isAlphanum || c == '_' || c == '-'

/-- A single name, with or without quotes. -/
def name : Scan String := do
  -- Names are written on one line.
  if ← accept "\"" then return String.ofList (← basicBody)
  if ← accept "'" then return String.ofList (← literalBody)
  let found ← run isNameChar
  if found.isEmpty then fail else return String.ofList found

/-- A path of names with dots between them. -/
def path : Scan (List String) := do
  -- Blanks may stand around the dots.
  blanks
  let first ← name
  blanks
  let later ← repeated do
    if ← accept "." then
      blanks
      let next ← name
      blanks
      return some next
    else return none
  return first :: later

/-- A character of a number or of a moment. -/
def isPlainChar (c : Char) : Bool :=
  -- The set covers all spellings of both.
  c.isAlphanum || ['+', '-', '_', '.', ':'].contains c

/-- A number, a moment or a word. -/
def plain : Scan Value := do
  -- A blank may stand between a date and a time.
  let first ← run isPlainChar
  match String.ofList first with
  | "true" => return .boolean true
  | "false" => return .boolean false
  | _ =>
    let later := (← rest).drop 1
    let time := later.takeWhile isPlainChar
    let whole := first ++ [' '] ++ time
    if (← sees " ") && !time.isEmpty && dateRest first == some [] && isMoment whole then
      set (later.drop time.length)
      return .moment
    match plainValue first with
    | some value => return value
    | none => fail

section Nested

variable (inner : Scan Value)

/-- The items of an array whose opening bracket has been passed. -/
def arrayBody : Scan Value := do
  -- A comma may stand behind the last item.
  gap
  let items ← repeated do
    if ← sees "]" then return none
    let item ← inner
    gap
    if ← accept "," then gap
    else if !(← sees "]") then fail
    return some item
  expect "]"
  return .array items

/-- An entry of an inline table. -/
def inlineEntry : Scan (List String × Value) := do
  -- Blanks may stand around all parts.
  let names ← path
  expect "="
  blanks
  let value ← inner
  blanks
  return (names, value)

/-- The entries of an inline table whose opening brace has been passed. -/
def inlineBody : Scan Value := do
  -- There is neither a line break between the braces nor a comma behind the last entry.
  blanks
  if ← accept "\x7d" then return .table []
  let first ← inlineEntry inner
  let later ← repeated do
    if ← accept "," then return some (← inlineEntry inner) else return none
  expect "\x7d"
  match inlineTable (first :: later) with
  | some value => return value
  | none => fail

/-- A value, given the reader of those it holds. -/
def valueWith : Scan Value := do
  -- The first character tells which kind of value follows.
  match ← text with
  | some content => return .string (String.ofList content)
  | none =>
    if ← accept "[" then arrayBody inner
    else if ← accept "\x7b" then inlineBody inner
    else plain

end Nested

/-- A value that holds others up to a depth. -/
def valueAt : Nat → List Char → Option (Value × List Char)
  | 0, _ => none
  | depth + 1, cs => valueWith (valueAt depth) cs

/-- How deeply values may be nested. -/
def deepest : Nat := 128

/-- A header behind its opening bracket. -/
def header : Scan Line := do
  -- Two brackets open one more table of an array.
  if ← accept "[" then
    let names ← path
    expect "]]"
    return .arrayHeader names
  else
    let names ← path
    expect "]"
    return .header names

/-- A line with something on it, or nothing at the end of the text. -/
def line : Scan (Option Line) := do
  -- Empty lines and comments in front of it are passed.
  gap
  if (← rest).isEmpty then return none
  if ← accept "[" then
    let found ← header
    lineEnd
    return some found
  else
    let names ← path
    expect "="
    blanks
    let value ← valueAt deepest
    lineEnd
    return some (.entry names value)

/-- The table that a text describes, unless it is not acceptable. -/
def read (source : List Char) : Option (List (String × Value)) := do
  -- A byte order mark in front does not count.
  let cs := match source with
    | '\ufeff' :: rest => rest
    | cs => cs
  let (lines, _) ← repeated line cs
  assemble lines

end SourceOutline.Toml
