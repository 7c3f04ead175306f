import SourceOutline.CommandLine.Help
import SourceOutline.CommandLine.Trouble
import SourceOutline.Json.Writer
import SourceOutline.Parser
import SourceOutline.Settings.Reader

/-! The commands of the command line. -/

namespace SourceOutline.CommandLine

/-- What a call of the program leaves behind. -/
structure Output where
  /-- The number it ends with. -/
  code : Nat
  /-- What it printed. -/
  text : String
  /-- What it complained about. -/
  complaint : String
  deriving DecidableEq, Repr

namespace Output

/-- A text as the only line printed. -/
def printed (text : String) : Output := ⟨0, text ++ "\n", ""⟩

/-- The end of a command that failed. -/
def failed (trouble : Trouble) : Output := ⟨1, "", trouble.render ++ "\n"⟩

/-- The end of a call with faulty arguments. -/
def refused (fault : UsageFault) : Output := ⟨2, "", "error: " ++ fault.message ++ "\n"⟩

end Output

/-- A command on the machine, which may end in trouble. -/
abbrev Command : Type := ExceptT Trouble (StateM Machine) Json

/-- A computation in which every failure is told in a given way. -/
def telling {α : Type} (tell : Failure → Trouble) (action : OnMachine α) :
    ExceptT Trouble (StateM Machine) α :=
  -- Success is passed on unchanged.
  ExceptT.adapt tell action

/-- A result in which every failure is told in a given way. -/
def tellingOf {α : Type} (tell : Failure → Trouble) (result : Except Failure α) :
    ExceptT Trouble (StateM Machine) α :=
  -- Such a result does not depend on the machine.
  ExceptT.mk (pure (result.mapError tell))

/-- The settings with what an invocation says instead. -/
def Invocation.override (invocation : Invocation) (settings : Settings) : Settings :=
  -- A switch can only be turned on.
  let engine := settings.engine
  { settings with
    engine := { engine with
      directory := (invocation.value? .engineDirectory).getD engine.directory
      program := (invocation.value? .program).getD engine.program
      autoInstall := invocation.has .autoInstall || engine.autoInstall
      timeout := ((invocation.value? .timeout).bind wholeNumber).getD engine.timeout } }

/-- The settings that a file holds. -/
def settingsIn (path : String) : OnMachine Settings := do
  -- Settings of a file are checked before anything overrides them.
  let text ← Machine.look fun disk => disk.readText path
  ExceptT.mk (pure (Settings.read text.toList))

/-- The settings of an invocation. -/
def Invocation.settings (invocation : Invocation) : ExceptT Trouble (StateM Machine) Settings := do
  -- What the invocation says is checked together with what it leaves alone.
  let base ← match invocation.value? .config with
    | some path => telling (.during ("Failed to load config " ++ path)) (settingsIn path)
    | none => pure {}
  let settings := invocation.override base
  tellingOf (.during "Invalid configuration") settings.validate
  return settings

/-- The engine is brought up if it is needed, and a failure is left to the files that need it. -/
def prepared (parser : Parser) (paths : List String) : StateM Machine Parser := do
  -- Without scripts no program is started.
  if Parser.needEngine paths then
    let (_, parser) ← parser.startEngine
    return parser
  else return parser

/-- The report on the sources of a directory. -/
def parseDirectory (parser : Parser) (path : String) (only : Option Language) : Command := do
  -- The search comes first, because it tells whether the engine is needed.
  let paths := (parser.scanner path only).scan (← get).disk
  let parser ← prepared parser paths
  return (← parser.batch paths).encode

/-- The language of a file, given the one that was asked for. -/
def languageFor (path : String) (asked : Option Language) :
    ExceptT Trouble (StateM Machine) Language :=
  -- A file of unknown language is refused before the engine is touched.
  match asked with
  | some language => return language
  | none => tellingOf .ofFailure (Parser.languageOf path)

/-- The parser ready for a language. -/
def readyFor (parser : Parser) (language : Language) :
    ExceptT Trouble (StateM Machine) Parser := do
  -- Only scripts need the engine, and then they need it at once.
  if language.usesEngine then
    let (outcome, parser) ← parser.startEngine
    tellingOf (.during "JS/TS parsing engine is not available") outcome
    return parser
  else return parser

/-- The outline of a file. -/
def parseFile (parser : Parser) (path : String) (asked : Option Language) : Command := do
  -- The engine is brought up before the file is read.
  let language ← languageFor path asked
  let parser ← readyFor parser language
  let outline ← telling (.during ("Failed to parse " ++ path)) (parser.fileOutlineAs path language)
  return outline.encode

/-- A path is parsed. -/
def parsePath (settings : Settings) (path : String) (asked : Option Language) : Command := do
  -- Directories and files are reported on differently.
  let parser ← tellingOf (.during "Failed to create parser") (Parser.ofSettings settings)
  if (← get).disk.isDirectory path then parseDirectory parser path asked
  else parseFile parser path asked

/-- The engine is installed unless it is there already. -/
def installEngine (settings : Settings) : Command := do
  -- This command is the wish to install it.
  let engine := { settings.engine with autoInstall := true }
  telling (.during "Failed to install the JS/TS parsing engine") (Engine.bringUp engine)
  let disk := (← get).disk
  return .object [
    ("engine_dir", .string ((disk.canonical engine.directory).toOption.getD engine.directory)),
    ("node", .string engine.program),
    ("installed", .bool (Engine.isInstalled disk engine.directory))]

/-- The command of an invocation. -/
def Invocation.command (invocation : Invocation) : Command := do
  -- The settings are read whatever the command is.
  let settings ← invocation.settings
  match invocation.place with
  | .install => installEngine settings
  | _ =>
    let settings := { settings with
      includePrivate := invocation.has .includePrivate || settings.includePrivate }
    parsePath settings (invocation.behind.paths.headD "")
      ((invocation.value? .language).bind languageNamed)

/-- An invocation is carried out. -/
def Invocation.run (invocation : Invocation) : StateM Machine Output := do
  -- The result is written the way that was asked for.
  match ← invocation.command.run with
  | .error trouble => return .failed trouble
  | .ok value =>
    return .printed (if invocation.has .pretty then value.pretty else value.compact)

/-- A call of the program. -/
def run (arguments : List String) : StateM Machine Output :=
  -- Faulty arguments have no effect.
  match readArguments arguments with
  | .error (.fault fault) => return .refused fault
  | .error (.help place) => return .printed place.explanation
  | .error .version => return .printed (programName ++ " " ++ programVersion)
  | .ok invocation => invocation.run

end SourceOutline.CommandLine
