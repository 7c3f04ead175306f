import SourceOutline.DocComment.Basic
import SourceOutline.Text.Blank
import SourceOutline.Text.Lines

/-! Documentation in string literals, freed of the indentation of the code around it. -/

namespace SourceOutline.DocComment

open Text

/-- The column of the tab stop behind a column, as a distance. -/
def toTabStop (column : Nat) : Nat :=
  -- There is a stop at every eighth column.
  8 - column % 8

/-- A line that starts at a column, with spaces in place of its tabs. -/
def expandFrom (column : Nat) : List Char → List Char
  | [] => []
  | c :: rest =>
    -- A tab reaches to the next stop, any other character takes one column.
    if c == '\t' then
      List.replicate (toTabStop column) ' ' ++ expandFrom (column + toTabStop column) rest
    else c :: expandFrom (column + 1) rest

/-- A line with spaces in place of its tabs. -/
def expandTabs (line : List Char) : List Char :=
  -- Lines start at column zero.
  expandFrom 0 line

/-- How many blanks a line starts with. -/
def indentWidth (line : List Char) : Nat :=
  -- Blanks are counted as characters.
  (line.takeWhile isBlank).length

/-- The indentation shared by all lines that are not blank. -/
def margin (lines : List (List Char)) : Nat :=
  -- Without such a line nothing is shared.
  (((lines.filter fun line => !isAllBlank line).map indentWidth).min?).getD 0

/-- A line behind the first one, shifted left by a margin. -/
def shiftLine (margin : Nat) (line : List Char) : List Char :=
  -- Blank lines become empty.
  if isAllBlank line then [] else line.drop margin

/-- Lines without the blank ones at either end. -/
def trimLines (lines : List (List Char)) : List (List Char) :=
  -- Blank lines between others stay.
  ((lines.dropWhile isAllBlank).reverse.dropWhile isAllBlank).reverse

/-- The lines of a text, the first one trimmed in front and the others shifted left together. -/
def alignedLines (text : List Char) : List (List Char) :=
  -- The first line starts behind the quotes, so its indentation says nothing.
  match (splitLines text).map expandTabs with
  | [] => []
  | first :: later => trimStart first :: later.map (shiftLine (margin later))

/-- A text without the indentation of the code around it, absent when nothing is left. -/
def cleanText (text : List Char) : Option (List Char) :=
  -- Blank lines around the text are dropped once all lines are aligned.
  let cleaned := ['\n'].intercalate (trimLines (alignedLines text))
  if cleaned.isEmpty then none else some cleaned

/-- What the string literal of this content says. -/
def ofDocstring (content : List Char) : DocComment :=
  -- Such texts have no tags.
  { description := (cleanText content).map String.ofList }

end SourceOutline.DocComment
