import SourceOutline.DocComment.Basic
import SourceOutline.Text.Blank
import SourceOutline.Text.IdentifierChar
import SourceOutline.Text.Lines
import SourceOutline.Text.Search

/-! Documentation in comment blocks, whose lines may open tags. -/

namespace SourceOutline.DocComment

open Text

/-- The text between the delimiters of a comment block. -/
def blockBody (block : List Char) : List Char :=
  -- The opening delimiter is taken with both asterisks when it has them.
  let inside := trim block
  let opened := match ['/', '*', '*'].isPrefixOf? inside with
    | some rest => rest
    | none => dropOpening ['/', '*'] inside
  dropClosing ['*', '/'] opened

/-- A line without the blanks around it and without its leading asterisk. -/
def lineText (line : List Char) : List Char :=
  -- Only one asterisk is a marker; any further one belongs to the text.
  match trim line with
  | '*' :: rest => trim rest
  | text => text

/-- A tag name goes on with characters of words, dots and hyphens. -/
def isTagChar (c : Char) : Bool :=
  -- A name may therefore be dotted.
  isWordChar c || c == '.' || c == '-'

/-- The name and the text of the tag that a line opens, when it opens one. -/
def tagLine (text : List Char) : Option (List Char × List Char) :=
  -- The first letter of a name is one of ASCII or an underscore.
  match text with
  | '@' :: first :: rest =>
    if first.isAlpha || first == '_' then
      some (first :: rest.takeWhile isTagChar, trim (rest.dropWhile isTagChar))
    else none
  | _ => none

/-- What a line of a comment block contributes. -/
inductive BlockLine where
  /-- A tag with the text behind its name. -/
  | tag (name text : List Char)
  /-- Text that belongs to what stands above it. -/
  | text (text : List Char)
  deriving DecidableEq

/-- The contribution of a line, unless it is blank. -/
def BlockLine.ofLine (line : List Char) : Option BlockLine :=
  -- Whether a line is blank is seen after its marker is gone.
  let text := lineText line
  match tagLine text with
  | some (name, rest) => some (.tag name rest)
  | none => if text.isEmpty then none else some (.text text)

/-- The text lines up to the next tag. -/
def leadingTexts : List BlockLine → List (List Char)
  | .text text :: later => text :: leadingTexts later
  | _ => []

/-- Lines joined by single spaces. -/
def joined (lines : List (List Char)) : String :=
  -- Blank lines have been left out before.
  String.ofList ([' '].intercalate lines)

/-- Each tag with the text on its own line and on the text lines below it. -/
def tagTexts : List BlockLine → List (String × String)
  | [] => []
  | .tag name rest :: later =>
    -- A tag line without text adds no line of its own.
    let own := if rest.isEmpty then [] else [rest]
    (String.ofList name, joined (own ++ leadingTexts later)) :: tagTexts later
  | .text _ :: later => tagTexts later

/-- What a comment block says. -/
def ofBlock (block : List Char) : DocComment :=
  -- The lines above the first tag describe, those below belong to their tags.
  let lines := (textLines (blockBody block)).filterMap BlockLine.ofLine
  let described := leadingTexts lines
  { description := if described.isEmpty then none else some (joined described)
    tags := NameMap.ofList (tagTexts lines) }

end SourceOutline.DocComment
