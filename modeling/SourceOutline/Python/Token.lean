/-! The tokens of a source and their places in it. -/

namespace SourceOutline.Python

/-- A place between two characters of a source. -/
structure Mark where
  /-- How many characters stand before it. -/
  offset : Nat := 0
  /-- How many line feeds stand before it. -/
  row : Nat := 0
  /-- How many bytes stand between the start of its line and it. -/
  column : Nat := 0
  deriving DecidableEq, Repr

namespace Mark

/-- The place behind one more character. -/
def step (mark : Mark) (c : Char) : Mark :=
  -- A line feed starts a new row, any other character takes its bytes.
  if c == '\n' then ⟨mark.offset + 1, mark.row + 1, 0⟩
  else ⟨mark.offset + 1, mark.row, mark.column + c.utf8Size⟩

/-- The place behind a text. -/
def pass (mark : Mark) (text : List Char) : Mark :=
  -- The characters are passed one by one.
  text.foldl step mark

end Mark

/-- The text between two places of a source. -/
def textBetween (source : List Char) (start stop : Mark) : List Char :=
  -- Places count characters, so the text is cut by counting.
  (source.drop start.offset).take (stop.offset - start.offset)

/-- How a string literal is written. -/
structure StringStyle where
  /-- The character that encloses it. -/
  quote : Char
  /-- It is enclosed by three of them and may run over lines. -/
  triple : Bool
  /-- Its backslashes stand for themselves. -/
  raw : Bool
  /-- It may hold replacement fields. -/
  format : Bool
  deriving DecidableEq, Repr

/-- What a token is. -/
inductive Symbol where
  /-- An identifier or a keyword. -/
  | word (text : String)
  /-- A number. -/
  | number
  /-- An operator or a bracket. -/
  | operator (text : String)
  /-- The opening quotes of a string literal with the letters before them. -/
  | stringOpen (style : StringStyle)
  /-- The closing quotes of a string literal. -/
  | stringClose
  /-- The brace that opens a replacement field. -/
  | fieldOpen
  /-- The brace that closes a replacement field. -/
  | fieldClose
  /-- The colon before the format of a replacement field. -/
  | fieldFormat
  /-- The conversion of a replacement field. -/
  | fieldConversion
  /-- A comment. -/
  | comment
  /-- A backslash that joins two lines. -/
  | lineJoin
  /-- The end of a logical line. -/
  | newline
  /-- What lies behind the last token. -/
  | finish
  deriving DecidableEq, Repr

namespace Symbol

/-- Comments and joins may stand between any two tokens. -/
def isTrivia : Symbol → Bool
  | .comment | .lineJoin => true
  | _ => false

/-- The text of a word or an operator, empty for all other tokens. -/
def text : Symbol → String
  | .word text | .operator text => text
  | _ => ""

end Symbol

/-- A token and the places where it starts and ends. -/
structure Token where
  /-- What it is. -/
  symbol : Symbol
  /-- Where it starts. -/
  start : Mark
  /-- Where it ends. -/
  stop : Mark
  deriving DecidableEq, Repr

end SourceOutline.Python
