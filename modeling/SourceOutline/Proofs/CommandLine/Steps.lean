import SourceOutline.CommandLine.Command
import SourceOutline.Proofs.Engine.Runs

/-! What a call of the program does to the machine, one step after the other. -/

namespace SourceOutline.CommandLine

/-- The settings that a file on a disk holds. -/
def settingsOf (path : String) (disk : Disk) : Except Failure Settings :=
  match disk.readText path with
  | .error problem => .error (.file problem)
  | .ok text => Settings.read text.toList

/-- A file of settings is only looked at. -/
theorem settingsIn_apply (path : String) (machine : Machine) :
    settingsIn path machine = (settingsOf path machine.disk, machine) := by
  rw [settingsIn, OnMachine.bind_apply, Machine.look, settingsOf]
  cases machine.disk.readText path <;> rfl

namespace Invocation

/-- The path that is to be parsed. -/
def path (invocation : Invocation) : String := invocation.behind.paths.headD ""

/-- The language that is asked for. -/
def language (invocation : Invocation) : Option Language :=
  (invocation.value? .language).bind languageNamed

/-- The settings before anything is said instead. -/
def base (invocation : Invocation) (disk : Disk) : Except Trouble Settings :=
  match invocation.value? .config with
  | some path => (settingsOf path disk).mapError (.during ("Failed to load config " ++ path))
  | none => .ok {}

/-- The settings of an invocation on a disk. -/
def settingsOn (invocation : Invocation) (disk : Disk) : Except Trouble Settings := do
  let settings := invocation.override (← invocation.base disk)
  settings.validate.mapError (.during "Invalid configuration")
  return settings

/-- The settings that sources are parsed with. -/
def shown (invocation : Invocation) (settings : Settings) : Settings :=
  { settings with includePrivate := invocation.has .includePrivate || settings.includePrivate }

/-- Private names do not matter for the engine. -/
@[simp] theorem shown_engine (invocation : Invocation) (settings : Settings) :
    (invocation.shown settings).engine = settings.engine := rfl

/-- Private names do not matter for whether settings are usable. -/
@[simp] theorem shown_validate (invocation : Invocation) (settings : Settings) :
    (invocation.shown settings).validate = settings.validate := rfl

/-- Reading settings changes nothing on the machine. -/
theorem settings_apply (invocation : Invocation) (machine : Machine) :
    invocation.settings machine = (invocation.settingsOn machine.disk, machine) := by
  have checked : ∀ read machine,
      (do
        tellingOf (.during "Invalid configuration") (invocation.override read).validate
        return invocation.override read : ExceptT Trouble (StateM Machine) Settings) machine =
      ((do
        (invocation.override read).validate.mapError (.during "Invalid configuration")
        return invocation.override read), machine) := by
    intro read machine
    rw [OnMachine.bind_apply, tellingOf]
    cases (invocation.override read).validate <;> rfl
  rw [settings, settingsOn, base]
  cases invocation.value? .config with
  | none => exact checked {} machine
  | some path =>
    simp only []
    rw [OnMachine.bind_apply, telling, OnMachine.adapt_apply, settingsIn_apply]
    cases settingsOf path machine.disk with
    | error failure => rfl
    | ok read => exact checked read machine

/-- Settings that are read have a beginning and are usable. -/
theorem of_settingsOn {invocation : Invocation} {disk : Disk} {settings : Settings}
    (read : invocation.settingsOn disk = .ok settings) :
    ∃ base, invocation.base disk = .ok base ∧ invocation.override base = settings ∧
      settings.validate = .ok () := by
  unfold settingsOn at read
  cases found : invocation.base disk with
  | error trouble => simp [found, bind, Except.bind] at read
  | ok base =>
    cases valid : (invocation.override base).validate with
    | error failure => simp [found, bind, Except.bind, valid, mapError_error] at read
    | ok _ =>
      have same : invocation.override base = settings := by
        simpa [found, bind, Except.bind, valid, mapError_ok, pure, Except.pure] using read
      exact ⟨base, rfl, same, same ▸ valid⟩

/-- A command reads its settings and goes on with them. -/
theorem command_apply (invocation : Invocation) (machine : Machine) :
    invocation.command machine =
      match invocation.settingsOn machine.disk with
      | .error trouble => (.error trouble, machine)
      | .ok settings =>
        match invocation.place with
        | .install => installEngine settings machine
        | _ => parsePath (invocation.shown settings) invocation.path invocation.language machine := by
  rw [command, OnMachine.bind_apply, settings_apply]
  cases invocation.settingsOn machine.disk with
  | error trouble => rfl
  | ok settings => cases invocation.place <;> rfl

end Invocation

/-- Usable settings make a parser, whose engine has not been brought up. -/
theorem ofSettings_of_valid {settings : Settings} (valid : settings.validate = .ok ()) :
    Parser.ofSettings settings = .ok ⟨settings, .notStarted⟩ := by
  rw [Parser.ofSettings, valid]
  rfl

/-- A path is parsed as the directory or the file that it leads to. -/
theorem parsePath_apply {settings : Settings} (valid : settings.validate = .ok ()) (path : String)
    (asked : Option Language) (machine : Machine) :
    parsePath settings path asked machine =
      if machine.disk.isDirectory path then parseDirectory ⟨settings, .notStarted⟩ path asked machine
      else parseFile ⟨settings, .notStarted⟩ path asked machine := by
  rw [parsePath, OnMachine.bind_apply, ofSettings_of_valid valid]
  simp only [tellingOf, mapError_ok, OnMachine.of_apply, OnMachine.bind_apply]
  show (if machine.disk.isDirectory path = true then _ else _ : Command) machine = _
  split <;> rfl

/-- The engine is brought up only when one of the paths leads to a script. -/
theorem prepared_apply (parser : Parser) (paths : List String) (machine : Machine) :
    prepared parser paths machine =
      if Parser.needEngine paths then
        ((parser.startEngine machine).1.2, (parser.startEngine machine).2)
      else (parser, machine) := by
  unfold prepared
  split <;> rfl

/-- A directory is searched, the engine is brought up if needed, and the files found are parsed. -/
theorem parseDirectory_apply (parser : Parser) (path : String) (only : Option Language)
    (machine : Machine) :
    parseDirectory parser path only machine =
      let paths := (parser.scanner path only).scan machine.disk
      let (ready, later) := prepared parser paths machine
      (.ok (ready.batch paths later).1.encode, (ready.batch paths later).2) := rfl

/-- The language of a file, given the one that was asked for. -/
def fileLanguage (path : String) (asked : Option Language) : Except Failure Language :=
  match asked with
  | some language => .ok language
  | none => Parser.languageOf path

/-- The outline of a file as what a command prints. -/
def outlineCommand (parser : Parser) (path : String) (language : Language) : Command := fun machine =>
  let (outline, later) := parser.fileOutlineAs path language machine
  ((outline.mapError (.during ("Failed to parse " ++ path))).map FileOutline.encode, later)

/-- A file is parsed after the engine was brought up, if its language needs that. -/
theorem parseFile_apply (parser : Parser) (path : String) (asked : Option Language)
    (machine : Machine) :
    parseFile parser path asked machine =
      match fileLanguage path asked with
      | .error failure => (.error (.ofFailure failure), machine)
      | .ok language =>
        if language.usesEngine then
          match parser.startEngine machine with
          | ((.error failure, _), later) =>
            (.error (.during "JS/TS parsing engine is not available" failure), later)
          | ((.ok _, ready), later) => outlineCommand ready path language later
        else outlineCommand parser path language machine := by
  have parsed : ∀ (ready : Parser) (language : Language) (machine : Machine),
      (do
        let outline ← telling (.during ("Failed to parse " ++ path)) (ready.fileOutlineAs path language)
        return outline.encode : Command) machine = outlineCommand ready path language machine := by
    intro ready language machine
    rw [OnMachine.bind_apply, telling, OnMachine.adapt_apply, outlineCommand]
    rcases ready.fileOutlineAs path language machine with ⟨_ | _, later⟩ <;> rfl
  have known : languageFor path asked machine =
      ((fileLanguage path asked).mapError .ofFailure, machine) := by
    cases asked <;> rfl
  rw [parseFile, OnMachine.bind_apply, known]
  cases fileLanguage path asked with
  | error failure => rfl
  | ok language =>
    simp only [mapError_ok]
    rw [OnMachine.bind_apply, readyFor]
    cases language.usesEngine with
    | false => exact parsed parser language machine
    | true =>
      simp only [if_true]
      rw [OnMachine.bind_apply, OnMachine.lift_apply]
      rcases parser.startEngine machine with ⟨⟨failure | _, ready⟩, later⟩
      · rfl
      · exact parsed ready language later

/-- The engine is installed by bringing it up, and what is told after that is only looked at. -/
theorem installEngine_later (settings : Settings) (machine : Machine) :
    (installEngine settings machine).2 =
      (Engine.bringUp { settings.engine with autoInstall := true } machine).2 := by
  rw [installEngine, OnMachine.bind_apply, telling, OnMachine.adapt_apply]
  rcases Engine.bringUp { settings.engine with autoInstall := true } machine with ⟨_ | _, later⟩ <;> rfl

/-- A path leads to what needs the engine: a directory with a script among its sources, or a script. -/
def needsEngine (settings : Settings) (path : String) (asked : Option Language) (disk : Disk) : Bool :=
  if disk.isDirectory path then
    Parser.needEngine ((Parser.scanner ⟨settings, .notStarted⟩ path asked).scan disk)
  else
    match fileLanguage path asked with
    | .ok language => language.usesEngine
    | .error _ => false

/-- A command that parses brings up the engine when it is needed, and otherwise it only parses. -/
theorem parsePath_later {settings : Settings} (valid : settings.validate = .ok ()) (path : String)
    (asked : Option Language) (machine : Machine) :
    (if needsEngine settings path asked machine.disk then (Engine.bringUp settings.engine machine).2
      else machine).OnlyParses (parsePath settings path asked machine).2 := by
  rw [parsePath_apply valid, needsEngine]
  cases machine.disk.isDirectory path with
  | true =>
    simp only [if_true, parseDirectory_apply, prepared_apply]
    split
    · rw [← Parser.startEngine_later ⟨settings, .notStarted⟩]
      exact Parser.onlyParses_of_later (Parser.batch_later _ _ _)
    · exact Parser.onlyParses_of_later (Parser.batch_later _ _ _)
  | false =>
    simp only [Bool.false_eq_true, if_false, parseFile_apply]
    cases fileLanguage path asked with
    | error failure => exact .of_eq rfl
    | ok language =>
      dsimp only
      split
      · rw [← Parser.startEngine_later ⟨settings, .notStarted⟩]
        rcases Parser.startEngine ⟨settings, .notStarted⟩ machine with ⟨⟨failure | _, ready⟩, later⟩
        · exact .of_eq rfl
        · exact Parser.onlyParses_of_later (ready.fileOutlineAs_later path language later)
      · exact Parser.onlyParses_of_later (Parser.fileOutlineAs_later _ path language machine)

namespace Invocation

/-- The settings with which an invocation brings up the engine, if it does. -/
def engineCall (invocation : Invocation) (disk : Disk) : Option EngineSettings :=
  match invocation.settingsOn disk with
  | .error _ => none
  | .ok settings =>
    match invocation.place with
    | .install => some { settings.engine with autoInstall := true }
    | _ =>
      if needsEngine (invocation.shown settings) invocation.path invocation.language disk then
        some settings.engine
      else none

/-- An invocation brings up the engine at most once, and otherwise it only parses. -/
theorem command_later (invocation : Invocation) (machine : Machine) :
    (((invocation.engineCall machine.disk).elim machine fun settings =>
      (Engine.bringUp settings machine).2)).OnlyParses (invocation.command machine).2 := by
  rw [command_apply, engineCall]
  cases read : invocation.settingsOn machine.disk with
  | error trouble => exact .of_eq rfl
  | ok settings =>
    obtain ⟨_, _, _, valid⟩ := of_settingsOn read
    cases invocation.place with
    | install =>
      refine .of_eq ?_
      simp only [installEngine_later, Option.elim_some]
    | top | parse =>
      have parsed := parsePath_later ((invocation.shown_validate settings).trans valid) invocation.path
        invocation.language machine
      dsimp only
      split <;> rename_i needed <;> simpa [needed] using parsed

/-- What an invocation prints is what came of its command. -/
theorem run_apply (invocation : Invocation) (machine : Machine) :
    invocation.run machine =
      (match (invocation.command machine).1 with
        | .error trouble => .failed trouble
        | .ok value =>
          .printed (if invocation.has .pretty then value.pretty else value.compact),
        (invocation.command machine).2) := by
  rcases done : invocation.command machine with ⟨_ | _, later⟩ <;>
    simp only [run, ExceptT.run, bind, StateT.bind, done] <;> rfl

/-- The engine may be installed only where the invocation, or the settings it begins with, ask for that. -/
theorem requestsInstall_of_engineCall {invocation : Invocation} {disk : Disk}
    {settings : EngineSettings} (call : invocation.engineCall disk = some settings)
    (wanted : settings.autoInstall = true) :
    invocation.place = .install ∨ invocation.has .autoInstall = true ∨
      ∃ base, invocation.base disk = .ok base ∧ base.engine.autoInstall = true := by
  rw [engineCall] at call
  cases read : invocation.settingsOn disk with
  | error trouble => simp [read] at call
  | ok found =>
    obtain ⟨base, begins, overridden, _⟩ := of_settingsOn read
    have switched : found.engine.autoInstall = (invocation.has .autoInstall || base.engine.autoInstall) := by
      rw [← overridden]
      rfl
    cases place : invocation.place with
    | install => exact .inl rfl
    | top | parse =>
      have same : found.engine = settings := by
        simp only [read, place] at call
        split at call
        · exact Option.some.inj call
        · cases call
      rw [← same, switched, Bool.or_eq_true] at wanted
      exact .inr (wanted.imp_right fun inBase => ⟨base, begins, inBase⟩)

end Invocation

/-- Arguments that can be read are carried out. -/
theorem run_of_readArguments {arguments : List String} {invocation : Invocation}
    (read : readArguments arguments = .ok invocation) : run arguments = invocation.run := by
  rw [run, read]

/-- Arguments that cannot be read have no effect. -/
theorem run_of_stop {arguments : List String} {stop : Stop} (stopped : readArguments arguments = .error stop)
    (machine : Machine) : (run arguments machine).2 = machine := by
  rw [run, stopped]
  cases stop <;> rfl

end SourceOutline.CommandLine
