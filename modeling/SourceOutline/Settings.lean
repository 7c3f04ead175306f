import SourceOutline.Failure
import SourceOutline.Text.Blank

/-! The settings of the parser and of the engine it calls. -/

namespace SourceOutline

/-- How the external engine is started. -/
structure EngineSettings where
  /-- The program that runs the engine. -/
  program : String := "node"
  /-- The program that installs the engine. -/
  installer : String := "npm"
  /-- The directory that the engine is installed in and runs from. -/
  directory : String := ".codedoc/engine"
  /-- A missing engine is installed. -/
  autoInstall : Bool := false
  /-- How many milliseconds one call may take. -/
  timeout : Nat := 30000
  /-- Where sources are stored for the engine, the usual place for temporary files when absent. -/
  scratch : Option String := none
  deriving DecidableEq, Repr

/-- The settings of the parser. -/
structure Settings where
  /-- Functions, classes and methods with private names are kept. -/
  includePrivate : Bool := false
  /-- How many lines above a declaration are searched for its documentation. -/
  docWindow : Nat := 10
  /-- The size in bytes above which a scan passes over a file. -/
  maxFileBytes : Nat := 1048576
  /-- How the external engine is started. -/
  engine : EngineSettings := {}
  deriving DecidableEq, Repr

namespace EngineSettings

/-- The engine settings are usable, or else what is wrong with them. -/
def validate (settings : EngineSettings) : Except Failure Unit :=
  -- The time limit is checked first.
  if settings.timeout = 0 then .error (.invalidSettings "engine.timeout_ms must be > 0")
  else if Text.isAllBlank settings.program.toList then
    .error (.invalidSettings "engine.node_program must not be empty")
  else .ok ()

/-- Engine settings as a value. -/
def encode (settings : EngineSettings) : Json :=
  -- Every field is written, an absent directory as null.
  .object [
    ("node_program", .string settings.program),
    ("npm_program", .string settings.installer),
    ("engine_dir", .string settings.directory),
    ("auto_install", .bool settings.autoInstall),
    ("timeout_ms", .nat settings.timeout),
    ("scratch_dir", .stringOrNull settings.scratch)]

/-- The fields of engine settings. -/
def shape {whole : Json} : Shape whole EngineSettings :=
  -- A field left out has its usual value, and no others are accepted.
  let usual : EngineSettings := {}
  Shape.closed (mk <$> .defaulted "node_program" usual.program .string
    <*> .defaulted "npm_program" usual.installer .string
    <*> .defaulted "engine_dir" usual.directory .path
    <*> .defaulted "auto_install" usual.autoInstall .bool
    <*> .defaulted "timeout_ms" usual.timeout .wide
    <*> .defaulted "scratch_dir" usual.scratch (.nullable .path))

/-- Engine settings read from a value. -/
def decode {whole : Json} : Decoder whole EngineSettings := fun value small =>
  -- Settings are never parts of tagged values.
  shape.decode "struct EngineConfig" .outer value (Json.sizeOf_le small)

end EngineSettings

namespace Settings

/-- The settings are usable, or else what is wrong with them. -/
def validate (settings : Settings) : Except Failure Unit :=
  -- The engine is checked last.
  if settings.docWindow = 0 then .error (.invalidSettings "doc_window_lines must be > 0")
  else if settings.maxFileBytes = 0 then .error (.invalidSettings "max_file_bytes must be > 0")
  else settings.engine.validate

/-- Settings as a value. -/
def encode (settings : Settings) : Json :=
  -- Every field is written.
  .object [
    ("include_private", .bool settings.includePrivate),
    ("doc_window_lines", .nat settings.docWindow),
    ("max_file_bytes", .nat settings.maxFileBytes),
    ("engine", settings.engine.encode)]

/-- The fields of settings. -/
def shape {whole : Json} : Shape whole Settings :=
  -- A field left out has its usual value, and no others are accepted.
  let usual : Settings := {}
  Shape.closed (mk <$> .defaulted "include_private" usual.includePrivate .bool
    <*> .defaulted "doc_window_lines" usual.docWindow .count
    <*> .defaulted "max_file_bytes" usual.maxFileBytes .wide
    <*> .defaulted "engine" usual.engine EngineSettings.decode)

/-- Settings read from a value. -/
def decode (value : Json) : Except DecodeError Settings :=
  -- Every part is smaller than the whole.
  shape.decode "struct ParserConfig" .outer value (Json.sizeOf_le_self value)

end Settings

end SourceOutline
