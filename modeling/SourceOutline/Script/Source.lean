import SourceOutline.Script.Node
import SourceOutline.Text.Blank
import SourceOutline.Text.Lines
import SourceOutline.Text.Search

/-! The lines of a source and the stretches of text that the engine's positions address. -/

namespace SourceOutline.Script

open Text

/-- The lines of a source, whichever terminators they end in. -/
def sourceLines (source : List Char) : List (List Char) :=
  -- A source is never without a line.
  splitLines (unifyTerminators source)

/-- How many columns a character takes. -/
def charUnits (c : Char) : Nat :=
  -- Characters beyond the first plane take two units of sixteen bits.
  if c.toNat < 0x10000 then 1 else 2

/-- The characters of a line that start before a column. -/
def takeColumns : Nat → List Char → List Char
  | 0, _ => []
  | _, [] => []
  | columns + 1, c :: rest => c :: takeColumns (columns + 1 - charUnits c) rest

/-- The characters of a line that start at a column or behind it. -/
def dropColumns : Nat → List Char → List Char
  | 0, line => line
  | _, [] => []
  | columns + 1, c :: rest => dropColumns (columns + 1 - charUnits c) rest

/-- The text between two columns of a line. -/
def sliceLine (start stop : Nat) (line : List Char) : List Char :=
  -- An end before the start makes the text empty.
  dropColumns start (takeColumns (max stop start) line)

/-- The text from a column of the first line to a column of the last one, with the lines between. -/
def sliceLines (start stop : Nat) : List (List Char) → List Char
  | [] => []
  | [line] => sliceLine start stop line
  | first :: later =>
    -- Lines are joined by line feeds, whatever separated them in the source.
    let last := takeColumns stop (later.getLast?.getD [])
    ['\n'].intercalate (dropColumns start first :: later.dropLast ++ [last])

/-- The text that a stretch of source covers, when its lines exist and are in order. -/
def slice (lines : List (List Char)) (span : Span) : Option (List Char) :=
  -- Lines are counted from one, and columns beyond a line mean its end.
  if span.start.line = 0 || span.stop.line < span.start.line || lines.length < span.stop.line then
    none
  else
    let covered := (lines.drop (span.start.line - 1)).take (span.stop.line - span.start.line + 1)
    some (sliceLines span.start.column span.stop.column covered)

end SourceOutline.Script
