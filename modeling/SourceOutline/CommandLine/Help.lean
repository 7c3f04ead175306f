import SourceOutline.CommandLine.Arguments

/-! What the command line says about itself. -/

namespace SourceOutline.CommandLine

/-- The name of the program. -/
def programName : String := "codedoc"

/-- The version of the program. -/
def programVersion : String := "0.1.0"

/-- What the program is for. -/
def purpose : String := "Structural source parser for Python, JavaScript and TypeScript"

/-- What the command of a section does. -/
def Section.purpose : Section → String
  | .top => CommandLine.purpose
  | .parse => "Parse a file or every supported file under a directory, printing JSON"
  | .install => "Install @babel/parser into the engine directory"

/-- How the command of a section is called. -/
def Section.usage : Section → String
  | .top => "codedoc [OPTIONS] <COMMAND>"
  | .parse => "codedoc parse [OPTIONS] <PATH>"
  | .install => "codedoc install-engine [OPTIONS]"

/-- How an option is written. -/
def Choice.usage : Choice → String
  | .verbose => "-v, --verbose"
  | .quiet => "    --quiet"
  | .config => "    --config <CONFIG>"
  | .engineDirectory => "    --engine-dir <ENGINE_DIR>"
  | .program => "    --node <NODE>"
  | .autoInstall => "    --auto-install"
  | .timeout => "    --timeout-ms <TIMEOUT_MS>"
  | .language => "    --language <LANGUAGE>"
  | .includePrivate => "    --include-private"
  | .pretty => "    --pretty"
  | .help => "-h, --help"
  | .version => "-V, --version"

/-- What an option does. -/
def Choice.purpose : Choice → String
  | .verbose => "Enable verbose logging"
  | .quiet => "Quiet mode: log only warnings/errors"
  | .config => "TOML configuration file"
  | .engineDirectory => "Directory holding node_modules/@babel/parser"
  | .program => "Node.js executable"
  | .autoInstall => "Install the JS/TS engine when it is missing"
  | .timeout => "Upper bound for one engine invocation (ms)"
  | .language =>
    "Force the language (python, javascript, typescript); for a directory, parse only that language"
  | .includePrivate => "Keep functions, classes and methods whose name starts with \x60_\x60"
  | .pretty => "Pretty-print JSON output"
  | .help => "Print help"
  | .version => "Print version"

/-- The options of a section in the order in which they are explained. -/
def Section.explained : Section → List Choice
  | .top =>
    [.verbose, .quiet, .config, .engineDirectory, .program, .autoInstall, .timeout, .help, .version]
  | .parse =>
    [.verbose, .language, .quiet, .config, .includePrivate, .engineDirectory, .pretty, .program,
      .autoInstall, .timeout, .help]
  | .install =>
    [.pretty, .verbose, .quiet, .config, .engineDirectory, .program, .autoInstall, .timeout, .help]

/-- Lines of two columns. -/
def columns (rows : List (String × String)) : List String :=
  -- The second column starts two blanks behind the longest entry of the first.
  let width := (rows.map fun row => row.1.length).foldl max 0
  rows.map fun row =>
    "  " ++ row.1 ++ String.ofList (List.replicate (width - row.1.length) ' ') ++ "  " ++ row.2

/-- The lines that explain the options of a section. -/
def Section.optionLines (place : Section) : List String :=
  -- Options stand in the same columns.
  "Options:" :: columns (place.explained.map fun choice => (choice.usage, choice.purpose))

/-- The lines that explain what else belongs to a section. -/
def Section.bodyLines : Section → List String
  | .top => "Commands:" :: columns [("parse", Section.purpose .parse),
      ("install-engine", Section.purpose .install),
      ("help", "Print this message or the help of the given subcommand(s)")] ++ [""]
  | .parse => ["Arguments:", "  <PATH>  Source file or directory", ""]
  | .install => []

/-- The explanation of a section. -/
def Section.explanation (place : Section) : String :=
  -- Its parts are set apart by empty lines.
  String.intercalate "\n"
    ([place.purpose, "", "Usage: " ++ place.usage, ""] ++ place.bodyLines ++ place.optionLines)

end SourceOutline.CommandLine
