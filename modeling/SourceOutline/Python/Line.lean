import SourceOutline.Python.Lexer
import SourceOutline.Python.Tree

/-! The logical lines of a source: their indentation, their tokens and the comments above them. -/

namespace SourceOutline.Python

/-- How far a line is indented behind one more separating character. -/
def indentBehind (indent : Nat) (c : Char) : Nat :=
  -- A tab counts for eight columns, and returns and form feeds start anew.
  if c == ' ' then indent + 1
  else if c == '\t' then indent + 8
  else if c == '\r' || c == '\x0c' then 0
  else indent

namespace Piece

/-- The piece is a token and neither a comment nor a join. -/
def isCode (piece : Piece) : Bool :=
  match piece.part with
  | .token symbol => !symbol.isTrivia
  | _ => false

/-- The piece is a token and no join. -/
def isSolid (piece : Piece) : Bool :=
  match piece.part with
  | .token symbol => symbol != .lineJoin
  | _ => false

/-- How far a line is indented behind one more piece. -/
def indentBehind (indent : Nat) (piece : Piece) : Nat :=
  -- Comments and joins do not count.
  match piece.part with
  | .blank => piece.text.foldl Python.indentBehind indent
  | _ => indent

end Piece

/-- How far a line is indented that starts with the given pieces. -/
def indentation (lead : List Piece) : Nat :=
  -- The pieces count one after the other.
  lead.foldl Piece.indentBehind 0

/-- The place behind some pieces. -/
def Mark.behind (mark : Mark) (pieces : List Piece) : Mark :=
  -- Nothing stands between the pieces.
  pieces.foldl (fun mark piece => mark.pass piece.text) mark

/-- The tokens among some pieces that start at a place. -/
def tokensFrom (mark : Mark) : List Piece → List Token
  | [] => []
  | piece :: rest =>
    -- Other pieces only move the place.
    let stop := mark.pass piece.text
    match piece.part with
    | .token symbol => ⟨symbol, mark, stop⟩ :: tokensFrom stop rest
    | _ => tokensFrom stop rest

/-- A comment or a join outside all logical lines. -/
structure Note where
  /-- The comment or the join. -/
  token : Token
  /-- How far it is indented. -/
  indent : Nat
  deriving DecidableEq, Repr

namespace Note

/-- The note is a comment that is indented at least as far as a level. -/
def reaches (level : Nat) (note : Note) : Bool :=
  -- Joins never are.
  note.token.symbol == .comment && level ≤ note.indent

end Note

/-- A logical line. -/
structure Line where
  /-- The comments and joins between the line before and this one. -/
  notes : List Note
  /-- The text between the line feed before it and its first token. -/
  lead : List Char
  /-- How far it is indented. -/
  margin : Nat
  /-- Its tokens, with the comments and joins between and behind them. -/
  tokens : List Token
  deriving DecidableEq, Repr

namespace Line

/-- The symbol that the line starts with. -/
def firstSymbol (line : Line) : Symbol :=
  -- A line is never empty.
  (line.tokens.head?.map Token.symbol).getD .finish

/-- Where the line starts. -/
def start (line : Line) : Mark :=
  -- Blanks in front do not count.
  (line.tokens.head?.map Token.start).getD {}

/-- Where the line ends: behind its last token or comment. -/
def stop (line : Line) : Mark :=
  -- A line is never empty.
  (line.tokens.getLast?.map Token.stop).getD {}

/-- The line with more notes above it. -/
def below (line : Line) (notes : List Note) : Line :=
  { line with notes := notes ++ line.notes }

end Line

/-- The lines of a source and the notes behind the last one. -/
structure Layout where
  /-- The logical lines. -/
  lines : List Line
  /-- The comments and joins behind the last line. -/
  notes : List Note
  deriving DecidableEq, Repr

namespace Layout

/-- More notes in front of everything. -/
def below (layout : Layout) (notes : List Note) : Layout :=
  -- They stand above the first line, or behind the last one when there is no line.
  match layout.lines with
  | [] => { layout with notes := notes ++ layout.notes }
  | line :: rest => { layout with lines := line.below notes :: rest }

end Layout

/-- A string literal follows before anything else that counts. -/
def stringFollows : List Piece → Bool
  | [] => false
  | piece :: rest =>
    -- Line feeds that end logical lines count.
    match piece.part with
    | .token (.stringOpen _) => true
    | .token .lineJoin | .blank | .silent | .content => stringFollows rest
    | .token _ | .lineFeed => false

/-- The pieces with joins passed over before string literals. -/
def hushJoins : List Piece → List Piece
  | [] => []
  | piece :: rest =>
    -- All other pieces stay as they are.
    if piece.part = .token .lineJoin ∧ stringFollows rest then
      { piece with part := .silent } :: hushJoins rest
    else piece :: hushJoins rest

/-- The pieces of a source between the line feeds that end logical lines. -/
def rowsBetween : List Piece → List (List Piece)
  | [] => [[]]
  | piece :: rest =>
    -- There is always one more row than line feeds.
    if piece.part = .lineFeed then [] :: rowsBetween rest
    else match rowsBetween rest with
      | [] => [[piece]]
      | row :: later => (piece :: row) :: later

/-- The pieces of a row in front of its first code. -/
def leadOf (row : List Piece) : List Piece :=
  -- A row without code has nothing else.
  row.takeWhile fun piece => !piece.isCode

/-- The pieces of a row from its first code to its last token or comment. -/
def coreOf (row : List Piece) : List Piece :=
  -- Blanks and joins at the end of a line do not belong to it.
  let behind := row.drop (leadOf row).length
  (behind.reverse.dropWhile fun piece => !piece.isSolid).reverse

/-- The lines that rows make up, the first of which starts at a place. -/
def layoutFrom (mark : Mark) : List (List Piece) → Layout
  | [] => ⟨[], []⟩
  | row :: rest =>
    -- A row without code holds a comment at most, which belongs to what follows.
    let lead := leadOf row
    let indent := indentation lead
    let notes := (tokensFrom mark lead).map fun token => ⟨token, indent⟩
    let later := layoutFrom ((mark.behind row).step '\n') rest
    match coreOf row with
    | [] => later.below notes
    | core =>
      let line : Line :=
        ⟨notes, lead.flatMap Piece.text, indent, tokensFrom (mark.behind lead) core⟩
      { later with lines := line :: later.lines }

/-- The lines of a source, or nothing when it cannot be cut. -/
def layoutOf (source : List Char) : Option Layout :=
  -- The first row starts at the first place.
  (pieces source).map fun found => layoutFrom {} (rowsBetween (hushJoins found))

end SourceOutline.Python
