import SourceOutline.Json.Decode

/-! The failures of parsing and their reports. -/

namespace SourceOutline

/-- What the file tree refuses. -/
inductive FileProblem where
  /-- Nothing has this path. -/
  | missing
  /-- A file was expected and a directory is there. -/
  | isDirectory
  /-- A directory was expected and a file is there. -/
  | notDirectory
  /-- The entry is already there. -/
  | exists
  /-- The content of a file is no text. -/
  | notText
  /-- The entry is no program. -/
  | notProgram
  /-- A name is longer than names may be. -/
  | nameTooLong
  /-- A path holds the character that ends paths. -/
  | nulInPath
  /-- Any other reason in words. -/
  | other (text : String)
  deriving DecidableEq, Repr

/-- A problem in words. -/
def FileProblem.message : FileProblem → String
  | .missing => "No such file or directory (os error 2)"
  | .isDirectory => "Is a directory (os error 21)"
  | .notDirectory => "Not a directory (os error 20)"
  | .exists => "File exists (os error 17)"
  | .notText => "stream did not contain valid UTF-8"
  | .notProgram => "Permission denied (os error 13)"
  | .nameTooLong => "File name too long (os error 36)"
  | .nulInPath => "file name contained an unexpected NUL byte"
  | .other text => text

/-- The reason why a source cannot be turned into an outline. -/
inductive Failure where
  /-- The source is not a program of its language; line and column count from one. -/
  | syntaxFailure (line column : Nat) (text : String)
  /-- The engine cannot be found, installed or started. -/
  | engineUnavailable (text : String)
  /-- The engine did not answer in time. -/
  | engineTimeout (milliseconds : Nat)
  /-- No supported language has this name or extension. -/
  | unsupportedLanguage (name : String)
  /-- The engine answered with something else than a tree. -/
  | malformedTree (text : String)
  /-- The settings are not acceptable. -/
  | invalidSettings (text : String)
  /-- The file tree refuses. -/
  | file (problem : FileProblem)
  deriving DecidableEq, Repr

namespace Failure

/-- A failure in words. -/
def message : Failure → String
  | .syntaxFailure line column text =>
    "Syntax error: " ++ text ++ " (line " ++ toString line ++ ", column " ++ toString column ++ ")"
  | .engineUnavailable text => "JS/TS parsing engine unavailable: " ++ text
  | .engineTimeout milliseconds =>
    "JS/TS parsing engine timed out after " ++ toString milliseconds ++ " ms"
  | .unsupportedLanguage name => "Unsupported language: " ++ name
  | .malformedTree text => "Malformed syntax tree: " ++ text
  | .invalidSettings text => "Invalid configuration: " ++ text
  | .file problem => "IO error: " ++ problem.message

/-- The short name of a kind of failure. -/
def kind : Failure → String
  | .syntaxFailure .. => "syntax_failure"
  | .engineUnavailable _ => "tooling_unavailable"
  | .engineTimeout _ => "tooling_timeout"
  | .unsupportedLanguage _ => "unsupported_language"
  | .malformedTree _ => "malformed_tree"
  | .invalidSettings _ => "invalid_config"
  | .file _ => "io"

/-- The failure concerns one file only, so that others are worth trying. -/
def isRecoverable : Failure → Bool
  | .engineUnavailable _ | .invalidSettings _ => false
  | _ => true

/-- The line that a failure points at. -/
def line? : Failure → Option Nat
  | .syntaxFailure line .. => some line
  | _ => none

end Failure

/-- A note about a file or a part of it that was left out. -/
structure Omission where
  /-- The short name of the reason. -/
  kind : String
  /-- The reason in words. -/
  message : String
  /-- The line of what was left out, counted from one, when it is known. -/
  line : Option Nat
  deriving DecidableEq, Repr

namespace Omission

/-- The note about a part that does not have the expected form. -/
def ofPart (line : Option Nat) (message : String) : Omission :=
  -- All such notes have the same kind.
  ⟨"node_extraction_skipped", message, line⟩

/-- The note about a file that failed. -/
def ofFailure (failure : Failure) : Omission :=
  -- Only failures of the source itself have a line.
  ⟨failure.kind, failure.message, failure.line?⟩

/-- A note as a value, without its line when that is unknown. -/
def encode (omission : Omission) : Json :=
  -- An unknown line is left out and not written as null.
  .object ([("kind", .string omission.kind), ("message", .string omission.message)] ++
    (omission.line.map fun line => ("line", Json.nat line)).toList)

/-- The fields of a note. -/
def shape {whole : Json} : Shape whole Omission :=
  -- The line may be null or left out, also at the end of a sequence.
  mk <$> .required "kind" .string <*> .required "message" .string
    <*> .defaulted "line" none (.nullable .count)

end Omission

end SourceOutline
