import SourceOutline.Proofs.CommandLine.Steps
import SourceOutline.Proofs.Engine.Contents
import SourceOutline.Proofs.Parser.Outcomes

/-! The command line and the parser agree on what they report, and on when the engine is started. -/

namespace SourceOutline

/-- Only what is there has sources. -/
theorem Scanner.has_of_mem_scan {scanner : Scanner} {disk : Disk} {path : String}
    (member : path ∈ scanner.scan disk) : disk.has scanner.root = true := by
  obtain ⟨file, met, _⟩ := List.mem_map.mp (FilePath.mem_of_mem_sorted member)
  have walked := List.mem_of_mem_filter met
  rw [walk] at walked
  rw [Disk.has, Disk.find]
  cases located : disk.locate scanner.root with
  | error problem => simp [located] at walked
  | ok found => rfl

/-- A directory is there. -/
theorem Disk.has_of_isDirectory {disk : Disk} {path : String} (directory : disk.isDirectory path = true) :
    disk.has path = true := by
  obtain ⟨names, entries, located⟩ := isDirectory_iff.mp directory
  rw [has, find, located]
  rfl

/-- What came of bringing up the engine is told. -/
theorem Parser.outcome_startEngine (parser : Parser) (machine : Machine) :
    (parser.startEngine machine).1.1 = (Engine.bringUp parser.settings.engine machine).1 := by
  rw [startEngine_apply]
  rfl

/-- An engine that does not come up leaves the reason why. -/
theorem Parser.startEngine_of_error {parser : Parser} {machine : Machine} {failure : Failure}
    (fails : (parser.startEngine machine).1.1 = .error failure) :
    (parser.startEngine machine).1.2 = parser.withoutTrees failure.message := by
  rw [outcome_startEngine] at fails
  rw [startEngine_apply]
  rcases brought : Engine.bringUp parser.settings.engine machine with ⟨outcome, later⟩
  rw [brought] at fails
  obtain rfl : outcome = .error failure := fails
  rfl

/-- Bringing up the engine leaves the settings. -/
theorem Parser.settings_startEngine (parser : Parser) (machine : Machine) :
    (parser.startEngine machine).1.2.settings = parser.settings := by
  rw [startEngine_apply]
  rcases Engine.bringUp parser.settings.engine machine with ⟨_ | _, later⟩ <;> rfl

namespace CommandLine

/-- What an invocation prints of what came of its command. -/
def Invocation.output (invocation : Invocation) : Except Trouble Json → Output
  | .error trouble => .failed trouble
  | .ok value => .printed (if invocation.has .pretty then value.pretty else value.compact)

/-- What the command reports on a directory, and the machine after that. -/
def directoryReport (parser : Parser) (path : String) (only : Option Language) : StateM Machine BatchReport :=
  fun machine =>
    let paths := (parser.scanner path only).scan machine.disk
    let (ready, later) := prepared parser paths machine
    ready.batch paths later

/-- A call that parses carries out one command. -/
theorem run_parse {arguments : List String} {invocation : Invocation} {settings : Settings}
    {machine : Machine} (read : readArguments arguments = .ok invocation)
    (parses : invocation.place = .parse) (valid : invocation.settingsOn machine.disk = .ok settings) :
    run arguments machine =
      let (result, later) := parsePath (invocation.shown settings) invocation.path invocation.language machine
      (invocation.output result, later) := by
  rw [run_of_readArguments read, Invocation.run_apply, Invocation.command_apply, valid]
  simp only [parses]
  rcases parsePath (invocation.shown settings) invocation.path invocation.language machine with ⟨_ | _, _⟩ <;>
    rfl

section Directory

variable {parser : Parser} {machine : Machine} {path : String} {only : Option Language}

/-- A directory with scripts is reported on after the engine was brought up. -/
theorem directoryReport_of_script
    (script : ∃ source ∈ (parser.scanner path only).scan machine.disk, FilePath.isScript source = true) :
    directoryReport parser path only machine =
      (parser.startEngine machine).1.2.batch ((parser.scanner path only).scan machine.disk)
        (parser.startEngine machine).2 := by
  have needed : Parser.needEngine ((parser.scanner path only).scan machine.disk) = true :=
    List.any_eq_true.mpr script
  rw [directoryReport, prepared_apply, needed]
  rfl

/-- The command reports what the parser reports once its engine was brought up, where the search finds the
same after that. -/
theorem batchDirectory_of_script
    (script : ∃ source ∈ (parser.scanner path only).scan machine.disk, FilePath.isScript source = true)
    (same : (parser.scanner path only).scan (parser.startEngine machine).2.disk =
      (parser.scanner path only).scan machine.disk) :
    (parser.startEngine machine).1.2.batchDirectory path only (parser.startEngine machine).2 =
      (.ok (directoryReport parser path only machine).1, (directoryReport parser path only machine).2) := by
  -- Something is still found, so the directory is still there.
  have there : (parser.startEngine machine).2.disk.has path = true := by
    obtain ⟨source, member, _⟩ := script
    exact Scanner.has_of_mem_scan (same ▸ member)
  have alike : (parser.startEngine machine).1.2.scanner path only = parser.scanner path only := by
    rw [Parser.scanner, Parser.scanner, Parser.settings_startEngine]
  rw [Parser.batchDirectory_apply, if_pos there, alike, same, directoryReport_of_script script]
  rfl

/-- Sources found that are no scripts are sources of Python. -/
theorem ofPath_of_mem_scan {scanner : Scanner} {disk : Disk} {source : String}
    (member : source ∈ scanner.scan disk) (plain : FilePath.isScript source = false) :
    Language.ofPath source = .ok .python :=
  FilePath.ofPath_of_plain (Scanner.exists_language_of_mem_scan member) plain

/-- A directory without scripts is reported on by what becomes of its sources of Python, and nothing else
happens. -/
theorem batchDirectory_of_plain (directory : machine.disk.isDirectory path = true)
    (plain : ∀ source ∈ (parser.scanner path only).scan machine.disk, FilePath.isScript source = false) :
    parser.batchDirectory path only machine =
      (.ok (.ofFiles (Parser.pythonOutcome parser.settings.includePrivate machine.disk)
        ((parser.scanner path only).scan machine.disk)), machine) := by
  have alone : ∀ source ∈ (parser.scanner path only).scan machine.disk,
      parser.fileOutline source machine =
        (Parser.pythonOutcome parser.settings.includePrivate machine.disk source, machine) :=
    fun source member => parser.fileOutline_python (ofPath_of_mem_scan member (plain source member)) machine
  rw [Parser.batchDirectory_apply, if_pos (Disk.has_of_isDirectory directory), Parser.batch_of_alone alone]

/-- A directory without scripts is reported on as the parser does, without its engine. -/
theorem directoryReport_of_plain (directory : machine.disk.isDirectory path = true)
    (plain : ∀ source ∈ (parser.scanner path only).scan machine.disk, FilePath.isScript source = false) :
    parser.batchDirectory path only machine =
      (.ok (directoryReport parser path only machine).1, (directoryReport parser path only machine).2) := by
  have needed : Parser.needEngine ((parser.scanner path only).scan machine.disk) = false :=
    List.any_eq_false.mpr fun source member => Bool.eq_false_iff.mp (plain source member)
  rw [Parser.batchDirectory_apply, if_pos (Disk.has_of_isDirectory directory), directoryReport,
    prepared_apply, needed]
  rfl

/-- When the engine does not come up, each file is reported on by what becomes of it without the engine. -/
theorem directoryReport_of_error {failure : Failure}
    (script : ∃ source ∈ (parser.scanner path only).scan machine.disk, FilePath.isScript source = true)
    (fails : (parser.startEngine machine).1.1 = .error failure) :
    directoryReport parser path only machine =
      (.ofFiles (Parser.outcomeWithout failure.message parser.settings.includePrivate
          (parser.startEngine machine).2.disk) ((parser.scanner path only).scan machine.disk),
        (parser.startEngine machine).2) := by
  -- No file changes the machine, so that each is read as the engine has left it.
  rw [directoryReport_of_script script, Parser.startEngine_of_error fails]
  exact Parser.batch_of_alone fun source member =>
    parser.fileOutline_withoutTrees _ (Scanner.exists_language_of_mem_scan member) _

/-- When the engine does not come up, sources of Python are reported on as if there were no scripts. -/
theorem plain_of_error {failure : Failure}
    (proper : machine.disk.root.IsProper) (directory : machine.disk.isDirectory path = true)
    (spares : machine.Spares (((parser.scanner path only).scan machine.disk).filter
      fun source => !FilePath.isScript source))
    (script : ∃ source ∈ (parser.scanner path only).scan machine.disk, FilePath.isScript source = true)
    (fails : (parser.startEngine machine).1.1 = .error failure) :
    ∃ plain : BatchReport,
      parser.batchDirectory path only { machine with disk := machine.disk.withoutScripts } =
        (.ok plain, { machine with disk := machine.disk.withoutScripts }) ∧
      plain.results = (directoryReport parser path only machine).1.results.filter
        (fun outline => !FilePath.isScript outline.path) ∧
      plain.omitted = (directoryReport parser path only machine).1.omitted.filter
        (fun file => !FilePath.isScript file.path) := by
  let without : Machine := { machine with disk := machine.disk.withoutScripts }
  have found : (parser.scanner path only).scan without.disk =
      ((parser.scanner path only).scan machine.disk).filter fun source => !FilePath.isScript source :=
    Scanner.scan_withoutScripts proper directory
  have reported : parser.batchDirectory path only without =
      (.ok (.ofFiles (Parser.pythonOutcome parser.settings.includePrivate without.disk)
        ((parser.scanner path only).scan without.disk)), without) := by
    refine batchDirectory_of_plain (Disk.isDirectory_withoutScripts directory) fun source member => ?_
    rw [found] at member
    simpa using List.of_mem_filter member
  -- Bringing up the engine leaves what the sources of Python hold, and so does leaving out scripts.
  have saved := spares.bringUp parser.settings.engine
  rw [← Parser.startEngine_later] at saved
  have same : ∀ source ∈ ((parser.scanner path only).scan machine.disk).filter
        (fun source => !FilePath.isScript source),
      Parser.outcomeWithout failure.message parser.settings.includePrivate
          (parser.startEngine machine).2.disk source =
        Parser.pythonOutcome parser.settings.includePrivate without.disk source := by
    intro source member
    have plain : FilePath.isScript source = false := by simpa using List.of_mem_filter member
    obtain ⟨content, holds, stillHolds⟩ :=
      Scanner.read_of_mem_scan proper directory (List.mem_of_mem_filter member) plain
    rw [Parser.outcomeWithout, plain]
    exact Parser.pythonOutcome_congr ((saved.contents source member content holds).trans stillHolds.symm)
  rw [found, ← BatchReport.ofFiles_congr same] at reported
  rw [directoryReport_of_error script fails]
  exact ⟨_, reported, (BatchReport.results_ofFiles_filter (fun source => !FilePath.isScript source) _
      fun _ _ => Parser.path_of_outcomeWithout).symm,
    (BatchReport.omitted_ofFiles_filter (fun source => !FilePath.isScript source) _).symm⟩

end Directory

/-- A file is parsed without any program unless its language needs the engine. -/
theorem parseFile_of_runs {parser : Parser} {path : String} {asked : Option Language} {machine : Machine}
    (started : (parseFile parser path asked machine).2.runs ≠ machine.runs) :
    fileLanguage path asked = .ok .javascript ∨ fileLanguage path asked = .ok .typescript := by
  rw [parseFile_apply] at started
  cases known : fileLanguage path asked with
  | error failure => simp [known] at started
  | ok language =>
    rw [known] at started
    cases language with
    | javascript => exact .inl rfl
    | typescript => exact .inr rfl
    | python =>
      -- The dialect of Python is parsed without the engine, whatever the path.
      refine absurd ?_ started
      simp only [Language.usesEngine, Bool.false_eq_true, if_false, outlineCommand,
        Parser.fileOutlineAs_apply, Parser.outlineFileAs_apply]
      cases machine.disk.readText path <;> rfl

/-- A directory is printed as the parser reports on it, with its engine brought up exactly when a script
was found, if the search still finds the same after that; without scripts no program is started and nothing
is missing; without the engine just the scripts are missing, beside what fails on its own, and sources of
Python are told as if there were no scripts; a file starts programs only in a language of scripts. -/
theorem parse_agrees {arguments : List String} {invocation : Invocation} {settings : Settings}
    {machine : Machine} (read : readArguments arguments = .ok invocation)
    (parses : invocation.place = .parse) (valid : invocation.settingsOn machine.disk = .ok settings) :
    let parser : Parser := ⟨invocation.shown settings, .notStarted⟩
    let path := invocation.path
    let only := invocation.language
    let sources := (parser.scanner path only).scan machine.disk
    let started := parser.startEngine machine
    let needed := ∃ source ∈ sources,
      Language.ofPath source = .ok .javascript ∨ Language.ofPath source = .ok .typescript
    let isPlain := fun source => !FilePath.isScript source
    Parser.ofSettings (invocation.shown settings) = .ok parser ∧
      (machine.disk.isDirectory path = true →
        ∃ report after, run arguments machine = (invocation.output (.ok report.encode), after) ∧
          (¬needed →
            parser.batchDirectory path only machine = (.ok report, after) ∧ after = machine ∧
              ∀ file ∈ report.omitted, file.reason.kind ≠ "tooling_unavailable") ∧
          (needed →
            ((parser.scanner path only).scan started.2.disk = sources →
              started.1.2.batchDirectory path only started.2 = (.ok report, after)) ∧
            ∀ failure, started.1.1 = .error failure →
              report.omitted = sources.filterMap (Parser.noteWithout failure.message started.2.disk) ∧
              (machine.disk.root.IsProper → machine.Spares (sources.filter isPlain) →
                ∃ plain, (parser.batchDirectory path only
                    { machine with disk := machine.disk.withoutScripts }).1 = .ok plain ∧
                  report.results.filter (fun outline => isPlain outline.path) = plain.results ∧
                  report.omitted.filter (fun file => isPlain file.path) = plain.omitted))) ∧
      (machine.disk.isDirectory path = false → (run arguments machine).2.runs ≠ machine.runs →
        fileLanguage path only = .ok .javascript ∨ fileLanguage path only = .ok .typescript) := by
  intro parser path only sources started needed isPlain
  obtain ⟨_, _, _, usable⟩ := Invocation.of_settingsOn valid
  have shown : (invocation.shown settings).validate = .ok () := usable
  have ran := run_parse read parses valid
  rw [parsePath_apply shown] at ran
  -- What was asked for is a directory or not, which is known before the engine is touched.
  refine ⟨ofSettings_of_valid shown, fun directory => ?_, fun file runs => ?_⟩
  · rw [if_pos directory] at ran
    refine ⟨(directoryReport parser path only machine).1, (directoryReport parser path only machine).2, ran,
      fun unneeded => ?_, fun isNeeded => ?_⟩
    · have plain : ∀ source ∈ sources, FilePath.isScript source = false := fun source member =>
        Bool.eq_false_iff.mpr fun script => unneeded ⟨source, member, (FilePath.isScript_iff source).mp script⟩
      have reported := directoryReport_of_plain directory plain
      have alone := batchDirectory_of_plain directory plain
      rw [reported] at alone
      obtain ⟨same, stays⟩ := Prod.mk.inj alone
      refine ⟨reported, stays, fun file member => ?_⟩
      rw [Except.ok.inj same] at member
      exact Parser.kind_of_mem_omitted member
    · have script : ∃ source ∈ sources, FilePath.isScript source = true := by
        obtain ⟨source, member, language⟩ := isNeeded
        exact ⟨source, member, (FilePath.isScript_iff source).mpr language⟩
      refine ⟨batchDirectory_of_script script, fun failure fails => ⟨?_, fun proper spares => ?_⟩⟩
      · rw [directoryReport_of_error script fails, BatchReport.omitted_ofFiles,
          Parser.omission?_outcomeWithout]
      · obtain ⟨plain, reported, results, omitted⟩ := plain_of_error proper directory spares script fails
        exact ⟨plain, congrArg Prod.fst reported, results.symm, omitted.symm⟩
  · rw [if_neg (by rw [file]; exact Bool.false_ne_true)] at ran
    rw [ran] at runs
    exact parseFile_of_runs runs

/-- Where the engine is missing, a script is noted, and a source of Python is told as if it were alone. -/
theorem parse_agrees_missing :
    ∃ (invocation : Invocation) (machine : Machine) (report : BatchReport),
      (run ["parse", "src"] machine).1 = invocation.output (.ok report.encode) ∧
        report.omitted.map (fun file => (file.path, file.reason.kind)) =
          [("src/a.js", "tooling_unavailable")] ∧
        (report.results.filter fun outline => !FilePath.isScript outline.path).map FileOutline.path =
          ["src/b.py"] := by
  let inner : FileTree := .directory [("a.js", .file .empty), ("b.py", .file .empty)]
  let machine : Machine := ⟨⟨.directory [("src", inner)], [], "/tmp"⟩, fun _ _ _ => .refused .missing, [], []⟩
  let invocation : Invocation := ⟨{}, .parse, { paths := ["src"] }⟩
  have read : readArguments ["parse", "src"] = .ok invocation := rfl
  have valid : invocation.settingsOn machine.disk = .ok {} := by cbv
  have proper : machine.disk.root.IsProper := by
    have properInner : inner.IsProper :=
      .directory (by decide +kernel) (by decide +kernel) (by
        intro entry member
        rcases List.mem_pair.mp member with rfl | rfl <;> exact .file _)
    exact .directory (by decide +kernel) (by decide +kernel) (by
      intro entry member
      rw [List.mem_singleton.mp member]
      exact properInner)
  have spares : ∀ paths, machine.Spares paths := by
    rintro paths runs disk start later milliseconds report ⟨⟩
  obtain ⟨-, told, -⟩ := parse_agrees read rfl valid
  obtain ⟨report, after, printed, -, needed⟩ := told (by decide +kernel)
  obtain ⟨-, missing⟩ := needed
    ⟨"src/a.js", by decide +kernel, (FilePath.isScript_iff _).mp (by decide +kernel)⟩
  -- The directory of the engine is not there.
  have fails : (Engine.bringUp {} machine).1 = .error (Engine.notFound {}) := by
    rw [Engine.bringUp_of_valid (by cbv), Engine.probe_apply, if_neg (by decide +kernel)]
    rfl
  obtain ⟨omitted, alone⟩ := missing (Engine.notFound {}) ((Parser.outcome_startEngine _ _).trans fails)
  obtain ⟨plain, reported, results, -⟩ := alone proper (spares _)
  refine ⟨invocation, machine, report, by rw [printed], ?_, ?_⟩
  · rw [omitted]
    decide +kernel
  · rw [results]
    have listed := congrArg (fun told => told.toOption.map fun report => report.results.map FileOutline.path) reported
    exact Option.some.inj (listed.symm.trans (by decide +kernel))

/-- Where the engine is installed into a directory that makes the rules of version control count, the search
finds less after that than before. -/
theorem parse_disagrees_after_install :
    let arguments := ["parse", "src", "--engine-dir", "src/.git", "--auto-install"]
    let inner : FileTree := .directory
      [(".gitignore", .file "b.py\n".toUTF8), ("a.js", .file .empty), ("b.py", .file .empty)]
    let reply : ProgramReport := ⟨.code 0, "\x7b\"body\":[]\x7d".toUTF8, ""⟩
    let machine : Machine :=
      ⟨⟨.directory [("src", inner), ("tmp", .empty)], [], "/tmp"⟩, fun _ disk _ => .ran disk 0 reply, [], []⟩
    ∃ invocation settings, readArguments arguments = .ok invocation ∧ invocation.place = .parse ∧
      invocation.settingsOn machine.disk = .ok settings ∧
      machine.disk.isDirectory invocation.path = true ∧
      let parser : Parser := ⟨invocation.shown settings, .notStarted⟩
      let started := parser.startEngine machine
      (∃ source ∈ (parser.scanner invocation.path invocation.language).scan machine.disk,
        FilePath.isScript source = true) ∧ started.1.1 = .ok () ∧
      ∃ report, (started.1.2.batchDirectory invocation.path invocation.language started.2).1 = .ok report ∧
        (run arguments machine).1 ≠ invocation.output (.ok report.encode) := by
  intro arguments inner reply machine
  -- Making the directory of the engine is enough: from then on the rules leave out the source of Python.
  let invocation : Invocation :=
    ⟨{}, .parse, { choices := [(.engineDirectory, "src/.git"), (.autoInstall, "")], paths := ["src"] }⟩
  let settings : Settings := { engine := { directory := "src/.git", autoInstall := true } }
  have valid : invocation.settingsOn machine.disk = .ok settings := by cbv
  refine ⟨invocation, settings, rfl, rfl, valid, by decide +kernel, ⟨"src/a.js", by decide +kernel, by decide +kernel⟩, ?_, ?_⟩
  · have works : ∀ outcome : Except Failure Unit, outcome.isOk = true → outcome = .ok () := by
      rintro (_ | _) <;> simp [Except.isOk, Except.toBool]
    exact works _ (by decide +kernel)
  · let parser : Parser := ⟨invocation.shown settings, .notStarted⟩
    let told := ((parser.startEngine machine).1.2.batchDirectory "src" none (parser.startEngine machine).2).1
    have differs : (told.toOption.map fun report => report.encode.compact ++ "\n") ≠
        some (run arguments machine).1.text := by
      decide +kernel
    have reports : told.isOk = true := by decide +kernel
    cases known : told with
    | error failure =>
      rw [known] at reports
      cases reports
    | ok report =>
      refine ⟨report, known, fun same => differs ?_⟩
      rw [known, same]
      rfl

end CommandLine

end SourceOutline
