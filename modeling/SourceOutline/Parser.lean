import SourceOutline.Engine.Call
import SourceOutline.Outline.Batch
import SourceOutline.Python.Extract
import SourceOutline.Scanner
import SourceOutline.Script.Extract

/-! The parser: it turns sources, files and directories into outlines. -/

namespace SourceOutline

/-- Where the trees of scripts come from. -/
inductive TreeSource where
  /-- The external engine, which has been brought up with some settings. -/
  | engine (settings : EngineSettings)
  /-- A function of the source and its dialect. -/
  | canned (answer : String → Dialect → Except Failure Script.SyntaxTree)

/-- How far the parser is able to parse scripts. -/
inductive Readiness where
  /-- The engine has not been brought up. -/
  | notStarted
  /-- Trees can be had. -/
  | ready (trees : TreeSource)
  /-- The engine could not be brought up, for a reason in words. -/
  | unavailable (reason : String)

/-- A parser with its settings. -/
structure Parser where
  /-- The settings. -/
  settings : Settings
  /-- How far scripts can be parsed. -/
  readiness : Readiness := .notStarted

/-- The tree of a source. -/
def TreeSource.tree (trees : TreeSource) (source : String) (dialect : Dialect) :
    OnMachine Script.SyntaxTree :=
  -- The machine remembers what it was asked, by a program or without one.
  match trees with
  | .engine settings => Engine.parse settings source dialect
  | .canned answer => fun machine =>
    (answer source dialect, { machine with asked := machine.asked ++ [dialect] })

namespace Parser

/-- A parser with usable settings. -/
def ofSettings (settings : Settings) : Except Failure Parser := do
  -- Settings are checked once and for all.
  settings.validate
  return { settings := settings }

/-- The parser with its trees from somewhere. -/
def withTrees (parser : Parser) (trees : TreeSource) : Parser :=
  -- What was known about the engine is forgotten.
  { parser with readiness := .ready trees }

/-- The parser with a reason why scripts cannot be parsed. -/
def withoutTrees (parser : Parser) (reason : String) : Parser :=
  -- What was known about the engine is forgotten.
  { parser with readiness := .unavailable reason }

/-- Scripts can be parsed. -/
def isReady (parser : Parser) : Bool :=
  -- Whether they will be is up to where the trees come from.
  match parser.readiness with
  | .ready _ => true
  | _ => false

/-- The engine is brought up, and the parser remembers what came of it. -/
def startEngine (parser : Parser) : StateM Machine (Except Failure Unit × Parser) := do
  -- A failure is kept in words.
  match ← (Engine.bringUp parser.settings.engine).run with
  | .ok () => return (.ok (), parser.withTrees (.engine parser.settings.engine))
  | .error failure => return (.error failure, parser.withoutTrees failure.message)

/-- The tree of a script. -/
def scriptTree (parser : Parser) (source : String) (dialect : Dialect) :
    OnMachine Script.SyntaxTree :=
  -- Without an engine nothing is asked.
  match parser.readiness with
  | .ready trees => trees.tree source dialect
  | .unavailable reason => throw (.engineUnavailable reason)
  | .notStarted => throw (.engineUnavailable
      "JS/TS engine not initialized; call SourceParser::initialize_engine first")

/-- The outline of a source in a dialect. -/
def outlineIn (parser : Parser) (source : String) (dialect : Dialect) : OnMachine ModuleOutline :=
  -- Python is parsed here and everything else by way of its tree.
  match dialect with
  | .python => ExceptT.mk (pure (Python.outline source.toList))
  | dialect => do
    let tree ← parser.scriptTree source dialect
    return Script.outline source.toList parser.settings.docWindow tree

/-- The outline of a source in a language. -/
def outline (parser : Parser) (source : String) (language : Language) : OnMachine ModuleOutline :=
  -- The usual dialect of the language is taken.
  parser.outlineIn source (.ofLanguage language)

/-- The language of a path, or the failure that it has none. -/
def languageOf (path : String) : Except Failure Language :=
  -- Only the extension matters.
  (Language.ofPath path).mapError .unsupportedLanguage

/-- The outline of what a file in a language holds. -/
def outlineFileAs (parser : Parser) (path : String) (language : Language) :
    OnMachine ModuleOutline := do
  -- The extension may still choose the dialect of the language.
  let source ← Machine.look fun disk => disk.readText path
  parser.outlineIn source (.ofPath path language)

/-- The outline of what a file holds. -/
def outlineFile (parser : Parser) (path : String) : OnMachine ModuleOutline := do
  -- A file in no supported language is not even read.
  parser.outlineFileAs path (← ExceptT.mk (pure (languageOf path)))

/-- The outline of a file in a language. -/
def fileOutlineAs (parser : Parser) (path : String) (language : Language) :
    OnMachine FileOutline := do
  -- The settings tell what of the outline is shown.
  let outline ← parser.outlineFileAs path language
  return FileOutline.ofModule outline path language parser.settings.includePrivate

/-- The outline of a file. -/
def fileOutline (parser : Parser) (path : String) : OnMachine FileOutline := do
  -- A file in no supported language is not even read.
  parser.fileOutlineAs path (← ExceptT.mk (pure (languageOf path)))

/-- The report on one file. -/
def reportOn (parser : Parser) (path : String) : StateM Machine BatchReport := do
  -- Every failure is caught.
  return .ofFile path (← (parser.fileOutline path).run)

/-- The report on files, one after the other. -/
def batch (parser : Parser) : List String → StateM Machine BatchReport
  | [] => return {}
  | path :: rest => do
    -- The report on the file comes before the report on those behind it.
    let first ← parser.reportOn path
    return first ++ (← parser.batch rest)

/-- The search for the sources of a directory under the settings of the parser. -/
def scanner (parser : Parser) (root : String) (only : Option Language) : Scanner :=
  -- The settings limit the size of files.
  { root := root, maxFileBytes := parser.settings.maxFileBytes, only := only }

/-- The failure of a directory that is not there. -/
def noDirectory (root : String) : Failure :=
  -- The path is named as it was given.
  .file (.other (root ++ " does not exist"))

/-- The report on the sources of a directory, of one language if that is wanted. -/
def batchDirectory (parser : Parser) (root : String) (only : Option Language) :
    OnMachine BatchReport := do
  -- Only a directory that is not there is a failure of the whole.
  let disk := (← get).disk
  if !disk.has root then throw (noDirectory root)
  parser.batch ((parser.scanner root only).scan disk)

/-- One of some paths leads to a script. -/
def needEngine (paths : List String) : Bool :=
  -- Paths without a language do not count.
  paths.any fun path =>
    match Language.ofPath path with
    | .ok language => language.usesEngine
    | .error _ => false

end Parser

end SourceOutline
