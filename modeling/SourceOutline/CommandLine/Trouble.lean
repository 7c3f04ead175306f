import SourceOutline.Failure
import SourceOutline.Text.Lines

/-! Failures as the command line tells them: what was attempted, and why it failed. -/

namespace SourceOutline

/-- A failure and what it was caused by, in words. -/
def Failure.causes (failure : Failure) : List String :=
  -- What the file tree refuses is told again on its own.
  match failure with
  | .file problem => [failure.message, problem.message]
  | failure => [failure.message]

namespace CommandLine

/-- What went wrong and its causes, the nearest first. -/
structure Trouble where
  /-- What went wrong. -/
  message : String
  /-- Why it went wrong. -/
  causes : List String
  deriving DecidableEq, Repr

namespace Trouble

/-- A failure that speaks for itself. -/
def ofFailure (failure : Failure) : Trouble :=
  -- The failure is the message, and only what it was caused by is left.
  ⟨failure.message, failure.causes.tail⟩

/-- A failure of something that was attempted. -/
def during (attempt : String) (failure : Failure) : Trouble :=
  -- The attempt is the message, and the failure is its cause.
  ⟨attempt, failure.causes⟩

/-- A text behind a label, with its later lines indented to the same column. -/
def labelled (label indent text : String) : String :=
  -- A text of one line only gets its label.
  label ++ String.intercalate ("\n" ++ indent) ((Text.splitLines text.toList).map String.ofList)

/-- Causes with numbers from zero on. -/
def numbered (causes : List String) : List String :=
  -- Numbers are set in a column of five.
  causes.zipIdx.map fun entry =>
    let number := toString entry.2
    labelled (String.ofList (List.replicate (5 - number.length) ' ') ++ number ++ ": ") "       "
      entry.1

/-- Trouble in words. -/
def render (trouble : Trouble) : String :=
  -- A single cause needs no number.
  let lines := match trouble.causes with
    | [] => []
    | [cause] => ["", "Caused by:", labelled "    " "    " cause]
    | causes => ["", "Caused by:"] ++ numbered causes
  String.intercalate "\n" (("Error: " ++ trouble.message) :: lines)

end Trouble

end CommandLine

end SourceOutline
