import SourceOutline.Engine.Reply
import SourceOutline.Settings

/-! The engine that parses scripts: how it is brought up and how it is asked. -/

namespace SourceOutline.Engine

/-- The package that the engine consists of. -/
def package : String := "@babel/parser"

/-- The name of the engine in reports. -/
def engineName : String := "babel"

/-- How many milliseconds an installation may take. -/
def installLimit : Nat := 300000

/-- The arguments of the program that installs the engine into a directory. -/
def installArguments (directory : String) : List String :=
  -- Only the package itself is wanted.
  ["install", "--prefix", directory, "--no-audit", "--no-fund", package]

/-- The failure of an engine that is not there and may not be installed. -/
def notFound (settings : EngineSettings) : Failure :=
  -- The advice repeats the settings as they are.
  .engineUnavailable (package ++ " not found for \x60" ++ settings.program ++ "\x60 in " ++
    settings.directory ++ "; run \x60" ++ settings.installer ++ " install --prefix " ++
    settings.directory ++ " " ++ package ++ "\x60 or enable engine.auto_install")

/-- The failure of an engine that is not there even after its installation. -/
def stillMissing (settings : EngineSettings) : Failure :=
  -- The installation itself did not fail.
  .engineUnavailable (package ++ " still unavailable after installing into " ++ settings.directory)

/-- The engine can be loaded from its directory. -/
def probe (settings : EngineSettings) : StateM Machine Bool := fun machine =>
  -- Without the directory nothing is started, and a program that fails is an answer.
  if machine.disk.isDirectory settings.directory then
    match Machine.launch ⟨settings.program, some settings.directory, .probe⟩ settings.timeout machine with
    | (.ok report, later) => (report.status.isSuccess, later)
    | (.error _, later) => (false, later)
  else (false, machine)

/-- The failure of an installation. -/
def installFailure : Failure → Failure
  | .engineTimeout _ => .engineUnavailable "npm install timed out"
  | failure => failure

/-- The engine is installed into its directory. -/
def install (settings : EngineSettings) : OnMachine Unit := do
  -- The directory is made first, and then the installer must succeed.
  Machine.alter fun disk => disk.createDirectories settings.directory
  let report ← ExceptT.adapt installFailure
    (Machine.launch ⟨settings.installer, none, .install settings.directory⟩ installLimit)
  if !report.status.isSuccess then
    throw (.engineUnavailable ("npm install failed: " ++
      String.ofList (Text.trim report.complaint.toList)))

/-- The engine is brought up, which is the only time that it may be installed. -/
def bringUp (settings : EngineSettings) : OnMachine Unit := do
  -- An installation must be wanted, and it counts only when the engine can be loaded after it.
  ExceptT.mk (pure settings.validate)
  if ← probe settings then return ()
  if !settings.autoInstall then throw (notFound settings)
  install settings
  if !(← probe settings) then throw (stillMissing settings)

/-- A name for a temporary file that is not taken. -/
def freshName (taken : List String) (suffix : String) : String :=
  -- Among more numbers than there are names, one is free.
  let names := (List.range (taken.length + 1)).map fun number =>
    "codedoc-" ++ toString number ++ suffix
  (names.find? fun name => !taken.contains name).getD suffix

/-- The disk with a new temporary file in a directory, and its path. -/
def stage (directory : String) (suffix : String) (content : ByteArray) (disk : Disk) :
    Except FileProblem (String × Disk) := do
  -- Nothing that is there already is written over, and no directory named is the working directory.
  let directory := disk.fromTop directory
  let path := FilePath.join directory (freshName (← disk.list directory) suffix)
  return (path, ← disk.write path content)

/-- A source is parsed by the engine. -/
def parse (settings : EngineSettings) (source : String) (dialect : Dialect) :
    OnMachine Script.SyntaxTree := fun machine =>
  -- The source goes through a temporary file, which is removed whatever the engine does.
  let directory := settings.scratch.getD machine.disk.temporaryDirectory
  match stage directory dialect.scratchSuffix source.toUTF8 machine.disk with
  | .error problem => (.error (.file problem), machine)
  | .ok (path, disk) =>
    let (outcome, later) := Machine.launch
      ⟨settings.program, some settings.directory, .parse path dialect⟩ settings.timeout
      { machine with disk := disk }
    let tidy := { later with disk := (later.disk.remove path).toOption.getD later.disk }
    (outcome.bind interpret, tidy)

/-- The engine is installed in a directory. -/
def isInstalled (disk : Disk) (directory : String) : Bool :=
  -- The description of the package is looked for, not its content.
  disk.isFile (["node_modules", "@babel", "parser", "package.json"].foldl FilePath.join directory)

end SourceOutline.Engine
