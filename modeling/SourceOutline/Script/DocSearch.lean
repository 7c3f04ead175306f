import SourceOutline.DocComment.Block
import SourceOutline.Script.Source

/-! The comment block that documents a declaration, searched in the lines above it. -/

namespace SourceOutline.Script

open Text

/-- A line that may stand between a declaration and its comment block. -/
def isSkipped (line : List Char) : Bool :=
  -- Blank lines, decorators and line comments may.
  let text := trim line
  text.isEmpty || ['@'].isPrefixOf text || ['/', '/'].isPrefixOf text

/-- The lines of a comment block from its opening, cut behind the last closing delimiter. -/
def blockText (opening : List Char) (below : List (List Char)) : List Char :=
  -- Only the last line is cut; text behind it does not belong to the block.
  let lines := opening :: below
  let last := lines.getLast?.getD []
  ['\n'].intercalate (lines.dropLast ++ [(throughLast ['*', '/'] last).getD last])

/-- The comment block that opens on the nearest line with an opening delimiter. -/
def findBlock (below : List (List Char)) : List (List Char) → Option (List Char)
  | [] => none
  | line :: above =>
    -- The first delimiter of that line must be one of documentation.
    match fromFirst ['/', '*'] line with
    | none => findBlock (line :: below) above
    | some opening =>
      if ['/', '*', '*'].isPrefixOf opening && !(['/', '*', '*', '/'].isPrefixOf opening) then
        some (blockText opening below)
      else none

/-- The comment block that ends on the nearest line that is not skipped, searching upward. -/
def blockAbove : List (List Char) → Option (List Char)
  | [] => none
  | line :: above =>
    -- The line that ends the search must end with the closing delimiter.
    if isSkipped line then blockAbove above
    else if ['*', '/'].isSuffixOf (trim line) then findBlock [] (line :: above)
    else none

/-- The lines above a line, the nearest first, as far as a window reaches. -/
def linesAbove (lines : List (List Char)) (window line : Nat) : List (List Char) :=
  -- A line beyond the end of the source has all lines above it.
  ((lines.take (line - 1)).reverse).take window

/-- What the comment block above a line says. -/
def docAbove (lines : List (List Char)) (window line : Nat) : Option DocComment :=
  -- The block is searched within the window only.
  (blockAbove (linesAbove lines window line)).map DocComment.ofBlock

end SourceOutline.Script
