/-! Sets of characters given by ranges of code points. -/

namespace SourceOutline.Text

/-- The code point lies in one of the inclusive ranges, which stand in ascending order. -/
def inRanges : List (Nat × Nat) → Nat → Bool
  | [], _ => false
  | (first, last) :: rest, n =>
    -- A code point below the first range left is in none of the later ones either.
    if n < first then false else if n ≤ last then true else inRanges rest n

end SourceOutline.Text
