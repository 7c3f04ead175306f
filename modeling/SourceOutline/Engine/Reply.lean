import SourceOutline.Engine.Machine
import SourceOutline.Json.Reader
import SourceOutline.Script.Decode
import SourceOutline.Text.Blank

/-! What the engine answers and what it means. -/

namespace SourceOutline.Engine

/-- A fault of a source as the engine reports it. -/
structure Diagnostic where
  /-- The fault in words. -/
  message : String
  /-- The line of the fault. -/
  line : Nat
  /-- The column of the fault. -/
  column : Nat
  deriving DecidableEq, Repr

namespace Diagnostic

/-- A fault inside a reply. -/
def part {whole : Json} : Decoder whole Diagnostic := fun value small =>
  -- A place that is not told is the start of the source.
  (mk <$> .required "message" .string <*> .defaulted "line" 1 .count
    <*> .defaulted "column" 1 .count : Shape whole Diagnostic).decode
    "struct EngineDiagnostic" .outer value (Json.sizeOf_le small)

/-- The fault that a reply reports. -/
def decode (value : Json) : Except DecodeError Diagnostic :=
  -- The fault is the only field that matters.
  (Shape.required "error" part : Shape value Diagnostic).decode
    "struct EngineFailure" .outer value (Json.sizeOf_le_self value)

/-- A fault as a failure. -/
def failure (diagnostic : Diagnostic) : Failure :=
  -- The place is taken as it is told.
  .syntaxFailure diagnostic.line diagnostic.column diagnostic.message

end Diagnostic

/-- The value that an output consists of, if it is one. -/
def replyOf (output : ByteArray) : Option Json :=
  -- The output must be a text before it can be a value.
  (String.fromUTF8? output).bind fun text => Json.read text.toList

/-- What an output that is no value means. -/
def unreadable (report : ProgramReport) : Failure :=
  -- A program that failed is not blamed for its output.
  if report.status.isSuccess then .malformedTree "engine output is not JSON"
  else .engineUnavailable ("engine exited with " ++ report.status.message ++ ": " ++
    String.ofList (Text.trim report.complaint.toList))

/-- What a reply means: the fault that it reports, or else a tree. -/
def understood (reply : Json) : Except Failure Script.SyntaxTree :=
  -- A reply that does not have the form it should have is no tree.
  if (reply.get? "error").isSome then
    match Diagnostic.decode reply with
    | .ok diagnostic => .error diagnostic.failure
    | .error error => .error (.malformedTree error.message)
  else (Script.SyntaxTree.decode reply).mapError fun error => .malformedTree error.message

/-- What a report of the engine means. -/
def interpret (report : ProgramReport) : Except Failure Script.SyntaxTree :=
  -- A reply counts however the program ended.
  match replyOf report.output with
  | none => .error (unreadable report)
  | some reply => understood reply

end SourceOutline.Engine
