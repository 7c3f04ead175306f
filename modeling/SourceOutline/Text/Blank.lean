import SourceOutline.Text.CharRanges

/-! Blank characters, and texts trimmed of them or reduced to the words between them. -/

namespace SourceOutline.Text

/-- Code points of the white space property. -/
def blankRanges : List (Nat × Nat) :=
  [(0x9, 0xD), (0x20, 0x20), (0x85, 0x85), (0xA0, 0xA0), (0x1680, 0x1680), (0x2000, 0x200A),
    (0x2028, 0x2029), (0x202F, 0x202F), (0x205F, 0x205F), (0x3000, 0x3000)]

/-- A blank character separates words in some script. -/
def isBlank (c : Char) : Bool :=
  -- The property has too few ranges to deserve a shortcut.
  inRanges blankRanges c.toNat

/-- The text without the blanks in front of it. -/
def trimStart (cs : List Char) : List Char :=
  -- Only the leading run is dropped.
  cs.dropWhile isBlank

/-- The text without the blanks behind it. -/
def trimEnd (cs : List Char) : List Char :=
  -- The trailing run is the leading one of the reversed text.
  (cs.reverse.dropWhile isBlank).reverse

/-- The text without the blanks around it. -/
def trim (cs : List Char) : List Char :=
  -- Both ends are trimmed independently.
  trimEnd (trimStart cs)

/-- The text holds nothing but blanks. -/
def isAllBlank (cs : List Char) : Bool :=
  -- The empty text qualifies.
  cs.all isBlank

/-- A finished word joins the words after it unless it is empty. -/
def keepWord (word : List Char) (later : List (List Char)) : List (List Char) :=
  -- Neighbouring blanks enclose an empty word, which does not count.
  if word.isEmpty then later else word :: later

/-- The maximal runs of characters that are not blank, in order. -/
def words (cs : List Char) : List (List Char) :=
  -- Reading from the right, the word under way is completed by the next blank to its left.
  let pieces := cs.foldr
    (fun c (pieces : List Char × List (List Char)) =>
      if isBlank c then ([], keepWord pieces.1 pieces.2) else (c :: pieces.1, pieces.2))
    ([], [])
  keepWord pieces.1 pieces.2

/-- The words of a text with single spaces between them. -/
def collapse (cs : List Char) : List Char :=
  -- Line breaks are blanks too, so the result is one line.
  [' '].intercalate (words cs)

end SourceOutline.Text
