import SourceOutline.Proofs.Parser.Steps

/-! Which programs the engine starts: when it is looked for, installed, brought up and asked. -/

namespace SourceOutline

/-- One program at most was started, in the given way. -/
structure IsTry (start : Start) (runs : List Run) : Prop where
  /-- There is one at most. -/
  once : runs.length ≤ 1
  /-- It was started in this way. -/
  alike : ∀ run ∈ runs, run.start = start

/-- Nothing may have been started. -/
theorem isTry_nil (start : Start) : IsTry start [] := ⟨by simp, by simp⟩

namespace Machine

/-- A program is started once, unless it does not start. -/
theorem launch_runs (start : Start) (limit : Nat) (machine : Machine) :
    ∃ runs, (launch start limit machine).2.runs = machine.runs ++ runs ∧ IsTry start runs := by
  unfold launch
  cases machine.reaction start with
  | refused problem => exact ⟨[], (List.append_nil _).symm, isTry_nil start⟩
  | ran disk milliseconds report => exact ⟨[⟨start, machine.disk⟩], rfl, by simp, by simp⟩

/-- A program starts, ends in time, and ends with zero. -/
def Succeeds (machine : Machine) (start : Start) (limit : Nat) : Prop :=
  ∃ disk milliseconds report, machine.reaction start = .ran disk milliseconds report ∧
    milliseconds < limit ∧ report.status = .code 0

end Machine

/-- Only the number zero tells success. -/
theorem ExitStatus.isSuccess_iff {status : ExitStatus} : status.isSuccess = true ↔ status = .code 0 := by
  cases status <;> simp [isSuccess]

/-- A report of success comes from a program that succeeded in time. -/
theorem Machine.launch_isSuccess_iff {start : Start} {limit : Nat} {machine : Machine} :
    (∃ report, (launch start limit machine).1 = .ok report ∧ report.status.isSuccess = true) ↔
      machine.Succeeds start limit := by
  unfold launch Succeeds
  simp only [ExitStatus.isSuccess_iff]
  cases machine.reaction start with
  | refused problem => simp
  | ran disk milliseconds report =>
    by_cases inTime : milliseconds < limit
    · simp only [if_pos inTime]
      constructor
      · rintro ⟨_, ⟨⟩, success⟩
        exact ⟨disk, milliseconds, report, rfl, inTime, success⟩
      · rintro ⟨_, _, _, ⟨⟩, _, success⟩
        exact ⟨report, rfl, success⟩
    · simp only [if_neg inTime]
      constructor
      · rintro ⟨_, ⟨⟩, _⟩
      · rintro ⟨_, _, _, ⟨⟩, early, _⟩
        exact absurd early inTime

namespace Engine

/-- How it is tried whether the engine can be loaded. -/
def probeStart (settings : EngineSettings) : Start :=
  ⟨settings.program, some settings.directory, .probe⟩

/-- How the engine is installed. -/
def installStart (settings : EngineSettings) : Start :=
  ⟨settings.installer, none, .install settings.directory⟩

/-- A report is one of success. -/
def reportsSuccess : Except Failure ProgramReport → Bool
  | .ok report => report.status.isSuccess
  | .error _ => false

/-- A report of success comes from a program that succeeded in time. -/
theorem reportsSuccess_launch {start : Start} {limit : Nat} {machine : Machine} :
    reportsSuccess (Machine.launch start limit machine).1 = true ↔ machine.Succeeds start limit := by
  rw [← Machine.launch_isSuccess_iff]
  cases (Machine.launch start limit machine).1 <;> simp [reportsSuccess]

/-- The engine is looked for in its directory only. -/
theorem probe_apply (settings : EngineSettings) (machine : Machine) :
    probe settings machine =
      if machine.disk.isDirectory settings.directory then
        let (report, later) := Machine.launch (probeStart settings) settings.timeout machine
        (reportsSuccess report, later)
      else (false, machine) := by
  rw [probe]
  split
  · simp only [probeStart]
    rcases Machine.launch _ settings.timeout machine with ⟨_ | _, _⟩ <;> rfl
  · rfl

/-- The engine is looked for by one program at most. -/
theorem probe_runs (settings : EngineSettings) (machine : Machine) :
    ∃ runs, (probe settings machine).2.runs = machine.runs ++ runs ∧
      IsTry (probeStart settings) runs := by
  rw [probe_apply]
  split
  · exact Machine.launch_runs (probeStart settings) settings.timeout machine
  · exact ⟨[], (List.append_nil _).symm, isTry_nil _⟩

/-- The engine is found exactly when its directory is one and the program that loads it succeeds. -/
theorem probe_iff (settings : EngineSettings) (machine : Machine) :
    (probe settings machine).1 = true ↔
      machine.disk.isDirectory settings.directory = true ∧
        machine.Succeeds (probeStart settings) settings.timeout := by
  rw [probe_apply]
  split
  · rename_i directory
    exact reportsSuccess_launch.trans (by rw [directory]; simp)
  · rename_i other
    simp [other]

/-- The engine can be installed: its directory is there or can be made, and the installer succeeds. -/
def Installs (settings : EngineSettings) (machine : Machine) : Prop :=
  ∃ disk, machine.disk.createDirectories settings.directory = .ok disk ∧
    Machine.Succeeds { machine with disk := disk } (installStart settings) installLimit

/-- What an installation comes to, by the report of the installer. -/
def installOutcome : Except Failure ProgramReport → Except Failure Unit
  | .error failure => .error (installFailure failure)
  | .ok report =>
    if report.status.isSuccess then .ok ()
    else .error (.engineUnavailable ("npm install failed: " ++
      String.ofList (Text.trim report.complaint.toList)))

/-- The directory is made before the installer is started. -/
theorem install_apply (settings : EngineSettings) (machine : Machine) :
    install settings machine =
      match machine.disk.createDirectories settings.directory with
      | .error problem => (.error (.file problem), machine)
      | .ok disk =>
        let (report, later) :=
          Machine.launch (installStart settings) installLimit { machine with disk := disk }
        (installOutcome report, later) := by
  rw [install, OnMachine.bind_apply, Machine.alter]
  cases machine.disk.createDirectories settings.directory with
  | error problem => rfl
  | ok disk =>
    simp only [OnMachine.bind_apply, OnMachine.adapt_apply, installStart]
    rcases Machine.launch ⟨settings.installer, none, .install settings.directory⟩ installLimit
      { machine with disk := disk } with ⟨failure | report, later⟩
    · rfl
    · cases success : report.status.isSuccess <;>
        simp [mapError_ok, installOutcome, success] <;> rfl

/-- The installer is started once at most. -/
theorem install_runs (settings : EngineSettings) (machine : Machine) :
    ∃ runs, (install settings machine).2.runs = machine.runs ++ runs ∧
      IsTry (installStart settings) runs := by
  rw [install_apply]
  cases machine.disk.createDirectories settings.directory with
  | error problem => exact ⟨[], (List.append_nil _).symm, isTry_nil _⟩
  | ok disk =>
    exact Machine.launch_runs (installStart settings) installLimit { machine with disk := disk }

/-- An installation that does not fail is one that works. -/
theorem install_eq_ok_iff (settings : EngineSettings) (machine : Machine) :
    (install settings machine).1 = .ok () ↔ Installs settings machine := by
  have outcome : ∀ report, installOutcome report = .ok () ↔ reportsSuccess report = true := by
    rintro (failure | report)
    · simp [installOutcome, reportsSuccess]
    · cases success : report.status.isSuccess <;> simp [installOutcome, reportsSuccess, success]
  rw [install_apply, Installs]
  cases machine.disk.createDirectories settings.directory with
  | error problem => simp
  | ok disk =>
    simp only [Except.ok.injEq, exists_eq_left']
    exact (outcome _).trans reportsSuccess_launch

/-- Bringing up the engine with faulty settings does nothing. -/
theorem bringUp_of_invalid {settings : EngineSettings} {failure : Failure}
    (invalid : settings.validate = .error failure) (machine : Machine) :
    bringUp settings machine = (.error failure, machine) := by
  rw [bringUp, OnMachine.bind_apply]
  simp only [invalid]
  rfl

/-- Bringing up the engine, step by step. -/
theorem bringUp_of_valid {settings : EngineSettings} (valid : settings.validate = .ok ())
    (machine : Machine) :
    bringUp settings machine =
      let (found, looked) := probe settings machine
      if found then (.ok (), looked)
      else if !settings.autoInstall then (.error (notFound settings), looked)
      else match install settings looked with
        | (.error failure, later) => (.error failure, later)
        | (.ok _, installed) =>
          (if (probe settings installed).1 then .ok () else .error (stillMissing settings),
            (probe settings installed).2) := by
  rw [bringUp]
  simp only [OnMachine.bind_apply, valid, OnMachine.of_apply, OnMachine.lift_apply]
  rcases probe settings machine with ⟨_ | _, looked⟩
  · cases settings.autoInstall with
    | false => rfl
    | true =>
      simp only [Bool.false_eq_true, if_false, Bool.not_true, OnMachine.bind_apply]
      rcases install settings looked with ⟨failure | _, installed⟩
      · rfl
      · simp only [OnMachine.lift_apply]
        rcases probe settings installed with ⟨_ | _, later⟩ <;> rfl
  · rfl

/-- What bringing up the engine starts. -/
inductive IsBringUp (settings : EngineSettings) (machine : Machine) : List Run → Prop where
  /-- The engine is looked for. -/
  | looked {first : List Run} (looks : IsTry (probeStart settings) first) :
    IsBringUp settings machine first
  /-- The engine is looked for and not found, installed as wanted, and looked for again. -/
  | installed {first second third : List Run} (looks : IsTry (probeStart settings) first)
    (missing : (probe settings machine).1 = false) (wanted : settings.autoInstall = true)
    (installs : IsTry (installStart settings) second) (looksAgain : IsTry (probeStart settings) third) :
    IsBringUp settings machine (first ++ second ++ third)

/-- The engine is installed only where that is wanted, and only when it was not found before. -/
theorem bringUp_runs (settings : EngineSettings) (machine : Machine) :
    ∃ runs, (bringUp settings machine).2.runs = machine.runs ++ runs ∧
      IsBringUp settings machine runs := by
  cases valid : settings.validate with
  | error failure =>
    rw [bringUp_of_invalid valid]
    exact ⟨[], (List.append_nil _).symm, .looked (isTry_nil _)⟩
  | ok _ =>
    rw [bringUp_of_valid valid]
    obtain ⟨first, addedFirst, looks⟩ := probe_runs settings machine
    rcases found : probe settings machine with ⟨_ | _, looked⟩ <;> rw [found] at addedFirst
    · have missing : (probe settings machine).1 = false := by rw [found]
      cases wanted : settings.autoInstall with
      | false => exact ⟨first, addedFirst, .looked looks⟩
      | true =>
        obtain ⟨second, addedSecond, installs⟩ := install_runs settings looked
        rw [addedFirst] at addedSecond
        simp only [Bool.false_eq_true, if_false, Bool.not_true]
        rcases done : install settings looked with ⟨failure | _, installed⟩ <;>
          rw [done] at addedSecond
        · refine ⟨first ++ second ++ [], ?_, .installed looks missing wanted installs (isTry_nil _)⟩
          simpa only [List.append_nil, List.append_assoc] using addedSecond
        · obtain ⟨third, addedThird, looksAgain⟩ := probe_runs settings installed
          refine ⟨first ++ second ++ third, ?_, .installed looks missing wanted installs looksAgain⟩
          have added : installed.runs = machine.runs ++ first ++ second := addedSecond
          simp only [addedThird, added, List.append_assoc]
    · exact ⟨first, addedFirst, .looked looks⟩

/-- The engine is brought up when it is found, or else when it is to be installed, the installation
works, and it is found after that. -/
theorem bringUp_eq_ok_iff {settings : EngineSettings} (valid : settings.validate = .ok ())
    (machine : Machine) :
    (bringUp settings machine).1 = .ok () ↔
      (probe settings machine).1 = true ∨
        settings.autoInstall = true ∧ Installs settings (probe settings machine).2 ∧
          (probe settings (install settings (probe settings machine).2).2).1 = true := by
  rw [bringUp_of_valid valid]
  rcases probe settings machine with ⟨_ | _, looked⟩ <;> dsimp only
  · cases settings.autoInstall with
    | false => simp
    | true =>
      rw [← install_eq_ok_iff]
      simp only [Bool.false_eq_true, if_false, Bool.not_true, false_or, true_and]
      rcases install settings looked with ⟨failure | _, installed⟩ <;> dsimp only
      · simp
      · rcases probe settings installed with ⟨_ | _, later⟩ <;> simp
  · simp

end Engine

/-- A program was started to parse a source. -/
def Run.IsParse (run : Run) : Prop :=
  ∃ path dialect, run.start.errand = .parse path dialect

/-- The programs started in between parse sources. -/
def Machine.OnlyParses (before after : Machine) : Prop :=
  ∃ runs, after.runs = before.runs ++ runs ∧ ∀ run ∈ runs, run.IsParse

namespace Machine.OnlyParses

/-- Nothing was started. -/
theorem of_eq {before after : Machine} (same : after.runs = before.runs) : before.OnlyParses after :=
  ⟨[], by rw [same, List.append_nil], by simp⟩

/-- One stretch follows the other. -/
theorem trans {first second third : Machine} (early : first.OnlyParses second)
    (late : second.OnlyParses third) : first.OnlyParses third := by
  obtain ⟨runs, added, parses⟩ := early
  obtain ⟨more, addedMore, parsesMore⟩ := late
  refine ⟨runs ++ more, by rw [addedMore, added, List.append_assoc], fun run member => ?_⟩
  exact (List.mem_append.mp member).elim (parses run) (parsesMore run)

end Machine.OnlyParses

/-- The engine is asked by a program that parses. -/
theorem Engine.parse_onlyParses (settings : EngineSettings) (source : String) (dialect : Dialect)
    (machine : Machine) : machine.OnlyParses (Engine.parse settings source dialect machine).2 := by
  simp only [Engine.parse]
  cases Engine.stage (settings.scratch.getD machine.disk.temporaryDirectory) dialect.scratchSuffix
    source.toUTF8 machine.disk with
  | error problem => exact .of_eq rfl
  | ok staged =>
    obtain ⟨runs, added, _, alike⟩ := Machine.launch_runs
      ⟨settings.program, some settings.directory, .parse staged.1 dialect⟩ settings.timeout
      { machine with disk := staged.2 }
    exact ⟨runs, added, fun run member => ⟨staged.1, dialect, by rw [alike run member]⟩⟩

namespace Parser

/-- Trees come from programs that parse. -/
theorem scriptTree_onlyParses (parser : Parser) (source : String) (dialect : Dialect)
    (machine : Machine) : machine.OnlyParses (parser.scriptTree source dialect machine).2 := by
  unfold scriptTree
  cases parser.readiness with
  | ready trees =>
    cases trees with
    | engine settings => exact Engine.parse_onlyParses settings source dialect machine
    | canned answer => exact .of_eq rfl
  | unavailable reason => exact .of_eq rfl
  | notStarted => exact .of_eq rfl

/-- However many trees are asked for, they come from programs that parse. -/
theorem afterTrees_onlyParses (parser : Parser) (machine : Machine)
    (questions : List (String × Dialect)) :
    machine.OnlyParses (parser.afterTrees machine questions) := by
  induction questions generalizing machine with
  | nil => exact .of_eq rfl
  | cons question rest ih =>
    exact (parser.scriptTree_onlyParses question.1 question.2 machine).trans (ih _)

/-- What only asks for trees only starts programs that parse. -/
theorem onlyParses_of_later {parser : Parser} {machine later : Machine}
    (asks : ∃ questions, later = parser.afterTrees machine questions) : machine.OnlyParses later := by
  obtain ⟨questions, rfl⟩ := asks
  exact parser.afterTrees_onlyParses machine questions

/-- The engine is brought up with the settings of the parser, which remembers what came of it. -/
theorem startEngine_apply (parser : Parser) (machine : Machine) :
    parser.startEngine machine =
      let (outcome, later) := Engine.bringUp parser.settings.engine machine
      ((outcome, match outcome with
        | .ok _ => parser.withTrees (.engine parser.settings.engine)
        | .error failure => parser.withoutTrees failure.message), later) := by
  rcases outcome : Engine.bringUp parser.settings.engine machine with ⟨failure | _, later⟩ <;>
    simp only [startEngine, ExceptT.run, bind, StateT.bind, outcome] <;> rfl

/-- Bringing up the engine is all that a parser does to start it. -/
theorem startEngine_later (parser : Parser) (machine : Machine) :
    (parser.startEngine machine).2 = (Engine.bringUp parser.settings.engine machine).2 := by
  rw [startEngine_apply]
  rfl

end Parser

end SourceOutline
