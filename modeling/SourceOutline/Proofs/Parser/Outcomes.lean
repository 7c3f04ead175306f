import SourceOutline.Proofs.Parser.Batch
import SourceOutline.Proofs.Python.Failures
import SourceOutline.Proofs.Scan.Scripts

/-! What becomes of files when no program is asked: of sources of Python, and of scripts that the engine
is missing for. -/

namespace SourceOutline

/-- Scripts are sources of JavaScript or TypeScript. -/
theorem FilePath.isScript_iff (path : String) :
    isScript path = true ↔ Language.ofPath path = .ok .javascript ∨ Language.ofPath path = .ok .typescript := by
  rw [isScript]
  rcases Language.ofPath path with name | (_ | _ | _) <;> simp [Language.usesEngine]

/-- A file in a language is a source of Python unless it is a script. -/
theorem FilePath.ofPath_of_plain {path : String} (known : ∃ language, Language.ofPath path = .ok language)
    (plain : isScript path = false) : Language.ofPath path = .ok .python := by
  obtain ⟨language, known⟩ := known
  rw [isScript, known] at plain
  cases language with
  | python => exact known
  | javascript | typescript => cases plain

/-- Sources for the engine are in no dialect of Python. -/
theorem Dialect.ofPath_ne_python {language : Language} (needed : language.usesEngine = true)
    (path : String) : ofPath path language ≠ .python := by
  cases language with
  | python => cases needed
  | javascript => simp [ofPath, ofLanguage]
  | typescript =>
    have either : ∀ markup : Bool, (if markup then tsx else typescript) ≠ python := by decide
    exact either _

namespace Parser

/-- The failure of a file that fails on its own, whatever the engine does. -/
def failureAlone (disk : Disk) (path : String) : Option Failure :=
  match disk.readText path with
  | .error problem => some (.file problem)
  | .ok source =>
    if FilePath.isScript path then none
    else
      match Python.outline source.toList with
      | .error failure => some failure
      | .ok _ => none

/-- What becomes of a source of Python. -/
def pythonOutcome (includePrivate : Bool) (disk : Disk) (path : String) : Except Failure FileOutline :=
  match disk.readText path with
  | .error problem => .error (.file problem)
  | .ok source =>
    (Python.outline source.toList).map fun outline =>
      FileOutline.ofModule outline path .python includePrivate

/-- What becomes of a file when the engine is missing for a reason. -/
def outcomeWithout (reason : String) (includePrivate : Bool) (disk : Disk) (path : String) :
    Except Failure FileOutline :=
  if FilePath.isScript path then
    match disk.readText path with
    | .error problem => .error (.file problem)
    | .ok _ => .error (.engineUnavailable reason)
  else pythonOutcome includePrivate disk path

/-- The note on a file without outline when the engine is missing for a reason: the file fails on its own,
or it is a script. -/
def noteWithout (reason : String) (disk : Disk) (path : String) : Option OmittedFile :=
  let missing := if FilePath.isScript path then some (Failure.engineUnavailable reason) else none
  (failureAlone disk path <|> missing).map fun failure => ⟨path, .ofFailure failure⟩

/-- What becomes of a source of Python depends on nothing but the file, which changes nothing. -/
theorem fileOutline_python (parser : Parser) {path : String}
    (known : Language.ofPath path = .ok .python) (machine : Machine) :
    parser.fileOutline path machine =
      (pythonOutcome parser.settings.includePrivate machine.disk path, machine) := by
  have told : languageOf path = .ok .python := by rw [languageOf, known]; rfl
  rw [fileOutline_apply, told]
  simp only [fileOutlineAs_apply, outlineFileAs_apply, pythonOutcome]
  cases machine.disk.readText path <;> rfl

/-- What becomes of a file without the engine depends on nothing but the file, which changes nothing. -/
theorem fileOutline_withoutTrees (parser : Parser) (reason : String) {path : String}
    (known : ∃ language, Language.ofPath path = .ok language) (machine : Machine) :
    (parser.withoutTrees reason).fileOutline path machine =
      (outcomeWithout reason parser.settings.includePrivate machine.disk path, machine) := by
  cases script : FilePath.isScript path with
  | false =>
    rw [fileOutline_python _ (FilePath.ofPath_of_plain known script), outcomeWithout, script]
    rfl
  | true =>
    obtain ⟨language, known⟩ := known
    have told : languageOf path = .ok language := by rw [languageOf, known]; rfl
    -- The file is read before the engine is missed, so a file that cannot be read says so.
    have needed : language.usesEngine = true := by rwa [FilePath.isScript, known] at script
    rw [fileOutline_apply, told, outcomeWithout, script]
    simp only [fileOutlineAs_apply, outlineFileAs_apply]
    cases machine.disk.readText path with
    | error problem => rfl
    | ok source =>
      simp only [outlineIn_script _ _ (Dialect.ofPath_ne_python needed path)]
      rfl

/-- Files that change nothing are reported on by what becomes of each of them. -/
theorem batch_of_alone {parser : Parser} {machine : Machine} {paths : List String}
    {outcome : String → Except Failure FileOutline}
    (alone : ∀ path ∈ paths, parser.fileOutline path machine = (outcome path, machine)) :
    parser.batch paths machine = (.ofFiles outcome paths, machine) := by
  induction paths with
  | nil => rfl
  | cons path rest ih =>
    have first : parser.reportOn path machine = (.ofFile path (outcome path), machine) := by
      rw [reportOn_apply, alone path List.mem_cons_self]
    rw [batch_cons, first, ih fun other member => alone other (List.mem_cons_of_mem _ member)]
    rfl

/-- Without the engine the files without outline are those that fail on their own, and the other scripts. -/
theorem omission?_outcomeWithout (reason : String) (includePrivate : Bool) (disk : Disk) :
    BatchReport.omission? (outcomeWithout reason includePrivate disk) = noteWithout reason disk := by
  funext path
  rw [BatchReport.omission?, outcomeWithout, noteWithout, failureAlone, pythonOutcome]
  cases disk.readText path with
  | error problem => cases FilePath.isScript path <;> rfl
  | ok source =>
    cases FilePath.isScript path with
    | true => rfl
    | false =>
      simp only [Bool.false_eq_true, if_false]
      cases Python.outline source.toList <;> rfl

/-- A source of Python never fails for want of the engine. -/
theorem kind_of_pythonOutcome {includePrivate : Bool} {disk : Disk} {path : String} {failure : Failure}
    (failed : pythonOutcome includePrivate disk path = .error failure) :
    failure.kind ≠ "tooling_unavailable" := by
  rw [pythonOutcome] at failed
  cases found : disk.readText path with
  | error problem =>
    rw [found] at failed
    cases failed
    simp [Failure.kind]
  | ok source =>
    rw [found] at failed
    dsimp only at failed
    cases parsed : Python.outline source.toList with
    | error other =>
      rw [parsed] at failed
      cases failed
      obtain ⟨line, column, text, rfl⟩ := Python.failsOnSyntax_outline _ _ parsed
      simp [Failure.kind]
    | ok outline =>
      rw [parsed] at failed
      cases failed

/-- No source of Python is noted for want of the engine. -/
theorem kind_of_mem_omitted {includePrivate : Bool} {disk : Disk} {paths : List String} {file : OmittedFile}
    (member : file ∈ (BatchReport.ofFiles (pythonOutcome includePrivate disk) paths).omitted) :
    file.reason.kind ≠ "tooling_unavailable" := by
  rw [BatchReport.omitted_ofFiles, List.mem_filterMap] at member
  obtain ⟨path, _, noted⟩ := member
  rw [BatchReport.omission?] at noted
  cases told : pythonOutcome includePrivate disk path with
  | ok outline =>
    rw [told] at noted
    cases noted
  | error failure =>
    rw [told] at noted
    cases noted
    exact kind_of_pythonOutcome told

/-- What becomes of a source of Python is told by what the file holds. -/
theorem pythonOutcome_congr {includePrivate : Bool} {disk other : Disk} {path : String}
    (same : disk.read path = other.read path) :
    pythonOutcome includePrivate disk path = pythonOutcome includePrivate other path := by
  rw [pythonOutcome, pythonOutcome, Disk.readText, Disk.readText, same]

/-- The outline of a file names the file. -/
theorem path_of_outcomeWithout {reason : String} {includePrivate : Bool} {disk : Disk} {path : String}
    {outline : FileOutline} (told : outcomeWithout reason includePrivate disk path = .ok outline) :
    outline.path = path := by
  rw [outcomeWithout, pythonOutcome] at told
  cases found : disk.readText path with
  | error problem =>
    rw [found] at told
    split at told <;> cases told
  | ok source =>
    rw [found] at told
    split at told
    · cases told
    · dsimp only at told
      cases parsed : Python.outline source.toList with
      | error failure =>
        rw [parsed] at told
        cases told
      | ok outline =>
        rw [parsed] at told
        cases told
        rfl

end Parser

namespace BatchReport

variable {outcome : String → Except Failure FileOutline} (keep : String → Bool) (paths : List String)

/-- The outlines of some files are those of a report on these files alone. -/
theorem results_ofFiles_filter (names : ∀ path outline, outcome path = .ok outline → outline.path = path) :
    (ofFiles outcome paths).results.filter (fun outline => keep outline.path) =
      (ofFiles outcome (paths.filter keep)).results := by
  rw [results_ofFiles, results_ofFiles, List.filter_filterMap, List.filterMap_filter]
  congr
  funext path
  cases told : outcome path with
  | error failure => simp [Except.toOption]
  | ok outline => simp [Except.toOption, Option.filter, names path outline told]

/-- The notes on some files are those of a report on these files alone. -/
theorem omitted_ofFiles_filter :
    (ofFiles outcome paths).omitted.filter (fun file => keep file.path) =
      (ofFiles outcome (paths.filter keep)).omitted := by
  rw [omitted_ofFiles, omitted_ofFiles, List.filter_filterMap, List.filterMap_filter]
  congr
  funext path
  rw [omission?]
  cases outcome path <;> simp [Option.filter]

/-- A report on files is told by what becomes of them. -/
theorem ofFiles_congr {other : String → Except Failure FileOutline}
    {paths : List String} (same : ∀ path ∈ paths, outcome path = other path) :
    ofFiles outcome paths = ofFiles other paths := by
  induction paths with
  | nil => rfl
  | cons path rest ih =>
    rw [ofFiles, ofFiles, same path List.mem_cons_self,
      ih fun later member => same later (List.mem_cons_of_mem _ member)]

end BatchReport

end SourceOutline
