import SourceOutline.Outline.Codec

/-! What a documentation comment says. -/

namespace SourceOutline

/-- The free text of a documentation comment and the texts of its tags. -/
structure DocComment where
  /-- The text before the first tag, absent when there is none. -/
  description : Option String := none
  /-- The text of each tag, for a repeated tag that of the last one. -/
  tags : NameMap String := .empty
  deriving DecidableEq

namespace DocComment

/-- Nothing is said. -/
def isEmpty (comment : DocComment) : Bool :=
  -- A tag without text still says something.
  comment.description.isNone && comment.tags.entries.isEmpty

/-- A documentation comment as a value. -/
def encode (comment : DocComment) : Json :=
  -- Both parts are always written.
  .object [
    ("description", .stringOrNull comment.description),
    ("tags", comment.tags.encode)]

end DocComment

end SourceOutline
