/-! Occurrences of one text in another. -/

namespace SourceOutline.Text

/-- The rest of a text from the first occurrence of a pattern on. -/
def fromFirst (pattern : List Char) : List Char → Option (List Char)
  | [] => if pattern.isEmpty then some [] else none
  | c :: rest =>
    -- The earliest place wins, so this one is tried before any later one.
    if pattern.isPrefixOf (c :: rest) then some (c :: rest) else fromFirst pattern rest

/-- The beginning of a text up to the end of the last occurrence of a pattern. -/
def throughLast (pattern : List Char) (cs : List Char) : Option (List Char) :=
  -- The last occurrence is the first one of the reversed pattern in the reversed text.
  (fromFirst pattern.reverse cs.reverse).map List.reverse

/-- The text without the given beginning, unchanged when it begins otherwise. -/
def dropOpening (opening cs : List Char) : List Char :=
  -- A text that begins otherwise keeps all its characters.
  (opening.isPrefixOf? cs).getD cs

/-- The text without the given end, unchanged when it ends otherwise. -/
def dropClosing (closing cs : List Char) : List Char :=
  -- A text that ends otherwise keeps all its characters.
  (closing.isSuffixOf? cs).getD cs

end SourceOutline.Text
