import SourceOutline.Python.Number
import SourceOutline.Python.Token
import SourceOutline.Text.IdentifierChar

/-! A source cut into pieces: tokens, and what stands between them. -/

namespace SourceOutline.Python

open Text

/-- What a piece of a source is. -/
inductive Part where
  /-- A token, a comment or a join. -/
  | token (symbol : Symbol)
  /-- A character that separates tokens. -/
  | blank
  /-- A line feed that ends a logical line. -/
  | lineFeed
  /-- A line feed inside brackets, or a join that is passed over. -/
  | silent
  /-- Text of a string literal. -/
  | content
  deriving DecidableEq, Repr

/-- A piece of a source. -/
structure Piece where
  /-- What it is. -/
  part : Part
  /-- Its characters. -/
  text : List Char
  deriving DecidableEq, Repr

/-- What encloses the place that has been reached. -/
inductive Mode where
  /-- A bracket, which the given character closes. -/
  | bracket (closing : Char)
  /-- The text of a string literal. -/
  | text (style : StringStyle)
  /-- The expression of a replacement field, inside a literal that may run over lines or not. -/
  | field (triple : Bool)
  /-- The format of a replacement field. -/
  | format (triple : Bool)
  deriving DecidableEq, Repr

/-- How the next piece is cut off. -/
structure Cut where
  /-- What the piece is. -/
  part : Part
  /-- How many characters it has behind its first one. -/
  further : Nat
  /-- What encloses the place behind it, the innermost first. -/
  modes : List Mode
  deriving DecidableEq, Repr

/-- Characters that separate tokens and mean nothing else, line feeds aside. -/
def isSpace (c : Char) : Bool :=
  -- Some characters without width count as well.
  c == ' ' || c == '\t' || c == '\r' || c == '\x0b' || c == '\x0c' || c == '\ufeff' ||
    c == '\u2060' || c == '\u200b'

/-- A character that encloses string literals. -/
def isQuote (c : Char) : Bool :=
  -- The grave accent is accepted too.
  c == '\'' || c == '"' || c == '\x60'

/-- A letter that may stand before the quotes of a string literal. -/
def isStringLetter (c : Char) : Bool :=
  -- Any mixture of these letters is accepted.
  ['f', 'r', 'b', 'u'].contains c.toLower

/-- The style of the string literal at the start of a text and the length of its opening. -/
def stringStart (cs : List Char) : Option (StringStyle × Nat) :=
  -- Three quotes are taken before one; grave accents never come in threes.
  let letters := cs.takeWhile isStringLetter
  let behind := cs.drop letters.length
  match behind with
  | [] => none
  | quote :: _ =>
    if isQuote quote then
      let triple := quote != '\x60' && behind.take 3 == [quote, quote, quote]
      let lower := letters.map Char.toLower
      some (⟨quote, triple, lower.contains 'r', lower.contains 'f'⟩,
        letters.length + if triple then 3 else 1)
    else none

/-- How many characters belong to the line break behind a backslash, which joins two lines. -/
def joinLength (behind : List Char) : Option Nat :=
  -- A carriage return before the line feed belongs to the line break.
  match behind with
  | '\n' :: _ => some 1
  | '\r' :: '\n' :: _ => some 2
  | _ => none

/-- The operators, longer ones before those they start with. -/
def operators : List String :=
  ["**=", "//=", ">>=", "<<=", "...", "**", "//", ">>", "<<", "<=", ">=", "==", "!=", "<>", "->",
    "+=", "-=", "*=", "/=", "%=", "&=", "|=", "^=", "@=", ":=", "+", "-", "*", "/", "%", "@", "&",
    "|", "^", "~", "<", ">", "=", ".", ",", ":", ";"]

/-- The operator at the start of a text. -/
def operatorStart (cs : List Char) : Option String :=
  -- The first match is the longest.
  operators.find? fun operator => operator.toList.isPrefixOf cs

/-- The character that closes a bracket. -/
def closingOf (c : Char) : Option Char :=
  -- There are three kinds of brackets.
  match c with
  | '(' => some ')'
  | '[' => some ']'
  | '\x7b' => some '\x7d'
  | _ => none

/-- A closing bracket or brace. -/
def closeCut (modes : List Mode) (c : Char) : Option Cut :=
  -- It must close the innermost thing that is open.
  match modes with
  | .bracket closing :: outer =>
    if closing == c then some ⟨.token (.operator (String.singleton c)), 0, outer⟩ else none
  | .field _ :: outer => if c == '\x7d' then some ⟨.token .fieldClose, 0, outer⟩ else none
  | _ => none

/-- A mark that has a meaning of its own in a replacement field. -/
def fieldCut (modes : List Mode) (c : Char) (rest : List Char) : Option Cut :=
  -- Inside brackets the marks have their usual meaning.
  match modes with
  | .field triple :: outer =>
    if c == ':' then some ⟨.token .fieldFormat, 0, .format triple :: outer⟩
    else if c == '!' && rest.head?.any (fun letter => 'a' ≤ letter && letter ≤ 'z') then
      some ⟨.token .fieldConversion, 1, modes⟩
    else none
  | _ => none

/-- An operator or a bracket. -/
def operatorCut (modes : List Mode) (c : Char) (rest : List Char) : Option Cut :=
  -- Replacement fields are asked first, operators last.
  match fieldCut modes c rest with
  | some cut => some cut
  | none =>
    match closingOf c with
    | some closing => some ⟨.token (.operator (String.singleton c)), 0, .bracket closing :: modes⟩
    | none =>
      if c == ')' || c == ']' || c == '\x7d' then closeCut modes c
      else
        (operatorStart (c :: rest)).map fun operator =>
          ⟨.token (.operator operator), operator.length - 1, modes⟩

/-- A token that is no comment. -/
def tokenCut (modes : List Mode) (c : Char) (rest : List Char) : Option Cut :=
  -- Strings come before words, because their letters look like words.
  match stringStart (c :: rest) with
  | some (style, length) => some ⟨.token (.stringOpen style), length - 1, .text style :: modes⟩
  | none =>
    if isIdentifierStart c then
      let later := rest.takeWhile isIdentifierContinue
      some ⟨.token (.word (String.ofList (c :: later))), later.length, modes⟩
    else
      let digits := numberRun (c :: rest)
      if digits.isEmpty then operatorCut modes c rest
      else some ⟨.token .number, digits.length - 1, modes⟩

/-- The next piece outside the text of strings. -/
def codeCut (modes : List Mode) (c : Char) (rest : List Char) : Option Cut :=
  -- Line feeds end logical lines only outside all brackets.
  if c == '\n' then some ⟨if modes.isEmpty then .lineFeed else .silent, 0, modes⟩
  else if isSpace c then some ⟨.blank, 0, modes⟩
  else if c == '#' then some ⟨.token .comment, (rest.takeWhile (· != '\n')).length, modes⟩
  else if c == '\\' then (joinLength rest).map fun length => ⟨.token .lineJoin, length, modes⟩
  else tokenCut modes c rest

/-- How many characters a backslash in a string literal takes along behind itself. -/
def escapeLength (style : StringStyle) (behind : List Char) : Nat :=
  -- Quotes, backslashes and line breaks are taken, and so is a character given by name.
  match behind with
  | '\r' :: '\n' :: _ => 2
  | 'N' :: '\x7b' :: name =>
    if style.format && !style.raw then 2 + (name.takeWhile (· != '\x7d')).length + 1 else 0
  | c :: _ => if c == '\'' || c == '"' || c == '\\' || c == '\n' then 1 else 0
  | [] => 0

/-- The next piece inside the text of a string. -/
def textCut (style : StringStyle) (modes : List Mode) (c : Char) (rest : List Char) : Option Cut :=
  -- Doubled braces stand for themselves, single ones enclose replacement fields.
  if c == '\\' then some ⟨.content, escapeLength style rest, modes⟩
  else if c == style.quote then
    if !style.triple then some ⟨.token .stringClose, 0, modes.drop 1⟩
    else if rest.take 2 == [c, c] then some ⟨.token .stringClose, 2, modes.drop 1⟩
    else some ⟨.content, 0, modes⟩
  else if style.format && c == '\x7b' then
    if rest.head? == some c then some ⟨.content, 1, modes⟩
    else some ⟨.token .fieldOpen, 0, .field style.triple :: modes⟩
  else if style.format && c == '\x7d' then
    if rest.head? == some c then some ⟨.content, 1, modes⟩ else none
  else if c == '\n' && !style.triple then none
  else some ⟨.content, 0, modes⟩

/-- The next piece inside the format of a replacement field. -/
def formatCut (triple : Bool) (modes : List Mode) (c : Char) : Option Cut :=
  -- A format may itself hold replacement fields.
  if c == '\x7b' then some ⟨.token .fieldOpen, 0, .field triple :: modes⟩
  else if c == '\x7d' then some ⟨.token .fieldClose, 0, modes.drop 1⟩
  else if c == '\n' && !triple then none
  else some ⟨.content, 0, modes⟩

/-- The next piece of a text that starts with a character. -/
def nextCut (modes : List Mode) (c : Char) (rest : List Char) : Option Cut :=
  -- What encloses the place decides how characters are read.
  match modes with
  | .text style :: _ => textCut style modes c rest
  | .format triple :: _ => formatCut triple modes c
  | _ => codeCut modes c rest

/-- The pieces of a text behind some characters that have been cut off already. -/
def cutBehind (modes : List Mode) : Nat → List Char → Option (List Piece)
  | _, [] => if modes.isEmpty then some [] else none
  | passed + 1, _ :: rest => cutBehind modes passed rest
  | 0, c :: rest =>
    -- Nothing may be left open at the end.
    match nextCut modes c rest with
    | none => none
    | some cut =>
      (cutBehind cut.modes cut.further rest).map (⟨cut.part, c :: rest.take cut.further⟩ :: ·)

/-- The pieces of a source, or nothing when it cannot be cut. -/
def pieces (source : List Char) : Option (List Piece) :=
  -- Nothing encloses the start.
  cutBehind [] 0 source

end SourceOutline.Python
