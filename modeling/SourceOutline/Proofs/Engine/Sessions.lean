import SourceOutline.Proofs.CommandLine.Steps

/-! Sessions: whatever is done one after the other, the engine is installed only on request. -/

namespace SourceOutline

/-- A machine, and the parser and the engine that were made on it. -/
structure Session where
  /-- The machine. -/
  machine : Machine
  /-- The parser made last. -/
  parser : Option Parser := none
  /-- The settings of the engine brought up last without a parser. -/
  bridge : Option EngineSettings := none

/-- What can be done in a session. -/
inductive Operation where
  /-- A parser is made. -/
  | create (settings : Settings)
  /-- The parser takes its trees from a function. -/
  | provide (answer : String → Dialect → Except Failure Script.SyntaxTree)
  /-- The parser is told why scripts cannot be parsed. -/
  | giveUp (reason : String)
  /-- The parser brings up the engine. -/
  | startEngine
  /-- The engine is brought up without a parser. -/
  | bringUp (settings : EngineSettings)
  /-- The parser parses a source. -/
  | parse (source : String) (dialect : Dialect)
  /-- The parser parses a file, in the language of its path or in another one. -/
  | parseFile (path : String) (language : Option Language)
  /-- The parser makes the outline of a file, in the language of its path or in another one. -/
  | outlineFile (path : String) (language : Option Language)
  /-- The parser reports on files. -/
  | batch (paths : List String)
  /-- The parser reports on a directory. -/
  | batchDirectory (root : String) (only : Option Language)
  /-- The engine that was brought up without a parser parses a source. -/
  | ask (source : String) (dialect : Dialect)
  /-- The program is called. -/
  | call (arguments : List String)
  /-- The disk is changed in some other way. -/
  | change (alter : Disk → Disk)

namespace Session

/-- The session after its parser, if there is one, has used the machine. -/
def withParser (session : Session) (use : Parser → Machine → Machine) : Session :=
  match session.parser with
  | none => session
  | some parser => { session with machine := use parser session.machine }

end Session

namespace Operation

/-- The session after an operation. -/
def run (session : Session) : Operation → Session
  | create settings => { session with parser := (Parser.ofSettings settings).toOption }
  | provide answer =>
    { session with parser := session.parser.map fun parser => parser.withTrees (.canned answer) }
  | giveUp reason =>
    { session with parser := session.parser.map fun parser => parser.withoutTrees reason }
  | startEngine =>
    match session.parser with
    | none => session
    | some parser =>
      let ((_, parser), machine) := parser.startEngine session.machine
      { session with machine := machine, parser := some parser }
  | bringUp settings =>
    let (outcome, machine) := Engine.bringUp settings session.machine
    { session with machine := machine, bridge := if outcome.isOk then some settings else session.bridge }
  | parse source dialect =>
    session.withParser fun parser machine => (parser.outlineIn source dialect machine).2
  | parseFile path none =>
    session.withParser fun parser machine => (parser.outlineFile path machine).2
  | parseFile path (some language) =>
    session.withParser fun parser machine => (parser.outlineFileAs path language machine).2
  | outlineFile path none =>
    session.withParser fun parser machine => (parser.fileOutline path machine).2
  | outlineFile path (some language) =>
    session.withParser fun parser machine => (parser.fileOutlineAs path language machine).2
  | batch paths => session.withParser fun parser machine => (parser.batch paths machine).2
  | batchDirectory root only =>
    session.withParser fun parser machine => (parser.batchDirectory root only machine).2
  | ask source dialect =>
    match session.bridge with
    | none => session
    | some settings =>
      { session with machine := (Engine.parse settings source dialect session.machine).2 }
  | call arguments => { session with machine := (CommandLine.run arguments session.machine).2 }
  | change alter =>
    { session with machine := { session.machine with disk := alter session.machine.disk } }

/-- The settings with which an operation brings up the engine, if it does. -/
def engineCall (session : Session) : Operation → Option EngineSettings
  | startEngine => session.parser.map fun parser => parser.settings.engine
  | bringUp settings => some settings
  | call arguments =>
    match CommandLine.readArguments arguments with
    | .ok invocation => invocation.engineCall session.machine.disk
    | .error _ => none
  | _ => none

/-- An operation is a request to install the engine if it is missing. -/
def RequestsInstall (session : Session) : Operation → Prop
  | startEngine => ∃ parser, session.parser = some parser ∧ parser.settings.engine.autoInstall = true
  | bringUp settings => settings.autoInstall = true
  | call arguments => ∃ invocation, CommandLine.readArguments arguments = .ok invocation ∧
      (invocation.place = .install ∨ invocation.has .autoInstall = true ∨
        ∃ base, invocation.base session.machine.disk = .ok base ∧ base.engine.autoInstall = true)
  | _ => False

/-- What an operation starts. -/
inductive Starts (session : Session) (operation : Operation) : List Run → Prop where
  /-- The engine is not brought up, and all programs parse. -/
  | parses {runs : List Run} (quiet : operation.engineCall session = none)
    (parses : ∀ run ∈ runs, run.IsParse) : Starts session operation runs
  /-- The engine is brought up first, and all later programs parse. -/
  | bringsUp {settings : EngineSettings} {calls runs : List Run}
    (call : operation.engineCall session = some settings)
    (requested : settings.autoInstall = true → operation.RequestsInstall session)
    (first : (Engine.bringUp settings session.machine).2.runs = session.machine.runs ++ calls)
    (isBringUp : Engine.IsBringUp settings session.machine calls)
    (parses : ∀ run ∈ runs, run.IsParse) : Starts session operation (calls ++ runs)

/-- The engine may be installed only by an operation that requests it. -/
theorem requestsInstall_of_engineCall {session : Session} {operation : Operation}
    {settings : EngineSettings} (call : operation.engineCall session = some settings)
    (wanted : settings.autoInstall = true) : operation.RequestsInstall session := by
  cases operation with
  | startEngine =>
    obtain ⟨parser, made, rfl⟩ := Option.map_eq_some_iff.mp call
    exact ⟨parser, made, wanted⟩
  | bringUp settings =>
    cases call
    exact wanted
  | call arguments =>
    simp only [engineCall] at call
    split at call
    · rename_i invocation read
      exact ⟨invocation, read, CommandLine.Invocation.requestsInstall_of_engineCall call wanted⟩
    · cases call
  | _ => cases call

/-- What a parser does on the machine is done in the session. -/
theorem withParser_onlyParses (session : Session) {use : Parser → Machine → Machine}
    (asks : ∀ parser machine, ∃ questions, use parser machine = parser.afterTrees machine questions) :
    session.machine.OnlyParses (session.withParser use).machine := by
  unfold Session.withParser
  cases session.parser with
  | none => exact .of_eq rfl
  | some parser => exact Parser.onlyParses_of_later (asks parser session.machine)

/-- What an operation does besides bringing up the engine is parsing. -/
theorem run_onlyParses (session : Session) (operation : Operation) :
    ((operation.engineCall session).elim session.machine fun settings =>
      (Engine.bringUp settings session.machine).2).OnlyParses (operation.run session).machine := by
  cases operation with
  | create | provide | giveUp | change => exact .of_eq rfl
  | startEngine =>
    simp only [engineCall, run]
    cases session.parser with
    | none => exact .of_eq rfl
    | some parser => exact .of_eq (congrArg Machine.runs (parser.startEngine_later session.machine))
  | bringUp settings => exact .of_eq rfl
  | parse source dialect =>
    exact withParser_onlyParses session fun parser => parser.outlineIn_later source dialect
  | parseFile path language =>
    cases language with
    | none => exact withParser_onlyParses session fun parser => parser.outlineFile_later path
    | some language =>
      exact withParser_onlyParses session fun parser => parser.outlineFileAs_later path language
  | outlineFile path language =>
    cases language with
    | none => exact withParser_onlyParses session fun parser => parser.fileOutline_later path
    | some language =>
      exact withParser_onlyParses session fun parser => parser.fileOutlineAs_later path language
  | batch paths => exact withParser_onlyParses session fun parser => parser.batch_later paths
  | batchDirectory root only =>
    exact withParser_onlyParses session fun parser => parser.batchDirectory_later root only
  | ask source dialect =>
    simp only [engineCall, run]
    cases session.bridge with
    | none => exact .of_eq rfl
    | some settings => exact Engine.parse_onlyParses settings source dialect session.machine
  | call arguments =>
    simp only [engineCall, run]
    cases read : CommandLine.readArguments arguments with
    | error stop => exact .of_eq (congrArg Machine.runs (CommandLine.run_of_stop read session.machine))
    | ok invocation =>
      rw [CommandLine.run_of_readArguments read, CommandLine.Invocation.run_apply]
      exact invocation.command_later session.machine

/-- Every operation starts the programs that it may. -/
theorem run_starts (session : Session) (operation : Operation) :
    ∃ runs, (operation.run session).machine.runs = session.machine.runs ++ runs ∧
      operation.Starts session runs := by
  obtain ⟨parsed, added, parses⟩ := operation.run_onlyParses session
  cases call : operation.engineCall session with
  | none =>
    rw [call] at added
    exact ⟨parsed, added, .parses call parses⟩
  | some settings =>
    rw [call] at added
    obtain ⟨calls, first, isBringUp⟩ := Engine.bringUp_runs settings session.machine
    refine ⟨calls ++ parsed, ?_, .bringsUp call (requestsInstall_of_engineCall call) first isBringUp parses⟩
    rw [added, Option.elim_some, first, List.append_assoc]

end Operation

namespace Session

/-- The session after some operations. -/
def after (session : Session) (operations : List Operation) : Session :=
  operations.foldl Operation.run session

/-- Operations carried out one after the other, each with the programs that it starts. -/
inductive History : Session → List Operation → List (List Run) → Prop where
  /-- Nothing is left to do. -/
  | done (session : Session) : History session [] []
  /-- An operation is followed by others. -/
  | step {session : Session} {operation : Operation} {rest : List Operation} {runs : List Run}
    {pieces : List (List Run)} (starts : operation.Starts session runs)
    (later : History (operation.run session) rest pieces) :
    History session (operation :: rest) (runs :: pieces)

/-- All programs of a session belong to its operations. -/
theorem exists_history (session : Session) (operations : List Operation) :
    ∃ pieces, History session operations pieces ∧
      (session.after operations).machine.runs = session.machine.runs ++ pieces.flatten := by
  induction operations generalizing session with
  | nil => exact ⟨[], .done session, (List.append_nil _).symm⟩
  | cons operation rest ih =>
    obtain ⟨runs, added, starts⟩ := operation.run_starts session
    obtain ⟨pieces, later, total⟩ := ih (operation.run session)
    refine ⟨runs :: pieces, .step starts later, ?_⟩
    rw [List.flatten_cons, ← List.append_assoc, ← added, ← total]
    rfl

/-- Whatever a session does, every program belongs to one operation: one that does not bring up the engine
only parses, and one that does installs at most once, as requested, when the engine was not found before.
The engine is brought up when it is found, or installed as wanted and then found; it is found by a program
that succeeds in its directory. -/
theorem installs_only_on_request (session : Session) (operations : List Operation) :
    (∃ pieces, History session operations pieces ∧
        (session.after operations).machine.runs = session.machine.runs ++ pieces.flatten) ∧
      (∀ settings machine, settings.validate = .ok () →
        ((Engine.bringUp settings machine).1 = .ok () ↔
          (Engine.probe settings machine).1 = true ∨
            settings.autoInstall = true ∧ Engine.Installs settings (Engine.probe settings machine).2 ∧
              (Engine.probe settings
                (Engine.install settings (Engine.probe settings machine).2).2).1 = true)) ∧
      ∀ settings machine, (Engine.probe settings machine).1 = true ↔
        machine.disk.isDirectory settings.directory = true ∧
          machine.Succeeds (Engine.probeStart settings) settings.timeout :=
  ⟨session.exists_history operations, fun _ machine valid => Engine.bringUp_eq_ok_iff valid machine,
    Engine.probe_iff⟩

/-- A missing engine is installed on request, and found after that. -/
theorem installs_only_on_request_missing :
    ∃ (settings : EngineSettings) (machine : Machine), (Engine.probe settings machine).1 = false ∧
      (Engine.bringUp settings machine).1 = .ok () ∧
        (after ⟨machine, none, none⟩ [.bringUp settings]).machine.runs.map Run.start =
          [Engine.installStart settings, Engine.probeStart settings] := by
  -- Every program succeeds, and only the directory of the engine is missing.
  let settings : EngineSettings := { autoInstall := true }
  let machine : Machine :=
    ⟨⟨.directory [], [], "/tmp"⟩, fun _ disk _ => .ran disk 0 ⟨.code 0, .empty, ""⟩, [], []⟩
  have told := installs_only_on_request ⟨machine, none, none⟩ [.bringUp settings]
  have works : ∀ outcome : Except Failure Unit, outcome.isOk = true → outcome = .ok () := by
    rintro (_ | _) <;> simp [Except.isOk, Except.toBool]
  have installed : Engine.Installs settings (Engine.probe settings machine).2 :=
    (Engine.install_eq_ok_iff _ _).mp (works _ (by decide +kernel))
  have found : (Engine.probe settings
      (Engine.install settings (Engine.probe settings machine).2).2).1 = true := by
    decide +kernel
  exact ⟨settings, machine, by decide +kernel,
    (told.2.1 settings machine (works _ (by decide +kernel))).mpr (.inr ⟨rfl, installed, found⟩), by decide +kernel⟩

end Session

end SourceOutline
