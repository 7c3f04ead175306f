/-! Texts taken apart at line breaks. -/

namespace SourceOutline.Text

/-- A character added in front of the first line. -/
def consLine (c : Char) : List (List Char) → List (List Char)
  | [] => [[c]]
  | line :: rest => (c :: line) :: rest

/-- The pieces between line feeds, of which there is always one more than line feeds. -/
def splitLines (cs : List Char) : List (List Char) :=
  -- A line feed opens an empty line in front of the lines already read.
  cs.foldr (fun c lines => if c == '\n' then [] :: lines else consLine c lines) [[]]

/-- There is always a line. -/
theorem splitLines_ne_nil (cs : List Char) : splitLines cs ≠ [] := by
  -- Each character either opens a line or goes into the first one.
  cases cs with
  | nil => simp [splitLines]
  | cons c rest =>
    simp only [splitLines, List.foldr_cons]
    split
    · simp
    · cases h : List.foldr _ [[]] rest <;> simp [consLine]

/-- No line holds a line feed. -/
theorem not_mem_of_mem_splitLines {cs line : List Char} (member : line ∈ splitLines cs) :
    '\n' ∉ line := by
  -- Only characters that are no line feeds are added to lines.
  induction cs generalizing line with
  | nil => simp_all [splitLines]
  | cons c rest ih =>
    simp only [splitLines, List.foldr_cons] at member ih
    split at member
    · rcases List.mem_cons.mp member with same | later
      · simp [same]
      · exact ih later
    · rename_i other
      have apart : c ≠ '\n' := by simpa using other
      cases pieces : List.foldr _ [[]] rest with
      | nil => exact absurd pieces (splitLines_ne_nil rest)
      | cons first later =>
        rw [pieces] at member ih
        rcases List.mem_cons.mp member with same | below
        · subst same
          intro found
          rcases List.mem_cons.mp found with here | inside
          · exact apart here.symm
          · exact ih List.mem_cons_self inside
        · exact ih (List.mem_cons_of_mem _ below)

/-- Line feeds between the lines restore the text. -/
theorem intercalate_splitLines (cs : List Char) : ['\n'].intercalate (splitLines cs) = cs := by
  -- A line feed opens an empty line, and any other character goes into the first one.
  induction cs with
  | nil => rfl
  | cons c rest ih =>
    have some_line := splitLines_ne_nil rest
    simp only [splitLines, List.foldr_cons] at ih some_line ⊢
    cases pieces : List.foldr _ [[]] rest with
    | nil => exact absurd pieces some_line
    | cons first later =>
      rw [pieces] at ih
      split
      · rename_i same
        have newline : c = '\n' := by simpa using same
        subst newline
        simpa [List.intercalate] using ih
      · cases later <;> simpa [List.intercalate, consLine] using ih

/-- A line without the carriage return that belongs to its line break. -/
def dropReturn (line : List Char) : List Char :=
  -- Only the last character can be part of the line break.
  if line.getLast? == some '\r' then line.dropLast else line

/-- The lines of a text: each ends at a line feed, a carriage return before it counts to the break,
and nothing follows the last line feed. -/
def textLines (cs : List Char) : List (List Char) :=
  -- The piece behind the last line feed is a line only when it holds something.
  let pieces := splitLines cs
  let last := pieces.getLast?.getD []
  pieces.dropLast.map dropReturn ++ if last.isEmpty then [] else [last]

/-- Line feed, carriage return, and the separators of lines and paragraphs end a line. -/
def isTerminator (c : Char) : Bool :=
  -- A carriage return with a line feed behind it is one terminator and not two.
  c == '\n' || c == '\r' || c == '\u2028' || c == '\u2029'

/-- The same text with a line feed for every line terminator. -/
def unifyTerminators (cs : List Char) : List Char :=
  -- Reading from the right, a carriage return is silent when a line feed was read just before.
  (cs.foldr
    (fun c (unified : List Char × Bool) =>
      if c == '\r' && unified.2 then (unified.1, false)
      else if isTerminator c then ('\n' :: unified.1, c == '\n')
      else (c :: unified.1, false))
    ([], false)).1

end SourceOutline.Text
