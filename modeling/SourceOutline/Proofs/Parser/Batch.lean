import Mathlib
import SourceOutline.Proofs.Parser.Steps

/-! Reports on many files: every file is told once, in its place, and as if it were alone. -/

namespace SourceOutline

namespace BatchReport

/-- The report on files whose outcomes are known. -/
def ofFiles (outcome : String → Except Failure FileOutline) : List String → BatchReport
  | [] => {}
  | path :: rest => ofFile path (outcome path) ++ ofFiles outcome rest

variable (outcome : String → Except Failure FileOutline)

/-- Files are reported on one list after the other. -/
theorem ofFiles_append (paths more : List String) :
    ofFiles outcome (paths ++ more) = ofFiles outcome paths ++ ofFiles outcome more := by
  induction paths with
  | nil => rfl
  | cons path rest ih => rw [List.cons_append, ofFiles, ih, ofFiles, append_assoc]

/-- The note on a file without outline. -/
def omission? (path : String) : Option OmittedFile :=
  match outcome path with
  | .ok _ => none
  | .error failure => some ⟨path, .ofFailure failure⟩

/-- The results are the outlines of the files that have one. -/
theorem results_ofFiles (paths : List String) :
    (ofFiles outcome paths).results = paths.filterMap fun path => (outcome path).toOption := by
  induction paths with
  | nil => rfl
  | cons path rest ih =>
    rw [ofFiles, results_append, ih, List.filterMap_cons]
    cases outcome path <;> simp [ofFile, Except.toOption]

/-- The files without outline are noted with what they failed on. -/
theorem omitted_ofFiles (paths : List String) :
    (ofFiles outcome paths).omitted = paths.filterMap (omission? outcome) := by
  induction paths with
  | nil => rfl
  | cons path rest ih =>
    rw [ofFiles, omitted_append, ih, List.filterMap_cons, omission?]
    cases outcome path <;> simp [ofFile]

/-- Every file has an outline or a note. -/
theorem length_ofFiles (paths : List String) :
    (ofFiles outcome paths).results.length + (ofFiles outcome paths).omitted.length =
      paths.length := by
  induction paths with
  | nil => rfl
  | cons path rest ih =>
    rw [ofFiles, results_append, omitted_append, List.length_append, List.length_append,
      List.length_cons]
    have one : (ofFile path (outcome path)).results.length +
        (ofFile path (outcome path)).omitted.length = 1 := by
      cases outcome path <;> rfl
    omega

/-- The counts of a report are added up. -/
theorem total_eq_sum (report : BatchReport) (count : FileOutline → Nat) :
    report.total count = (report.results.map count).sum := by
  have fromAny : ∀ (outlines : List FileOutline) (start : Nat),
      outlines.foldl (fun sum outline => sum + count outline) start =
        start + (outlines.map count).sum := by
    intro outlines
    induction outlines with
    | nil => intro start; rfl
    | cons outline rest ih =>
      intro start
      rw [List.foldl_cons, ih, List.map_cons, List.sum_cons, Nat.add_assoc]
  rw [total, fromAny, Nat.zero_add]

end BatchReport

namespace FileOutline

/-- The counts of an outline are those of its lists. -/
structure IsCounted (outline : FileOutline) : Prop where
  /-- The functions are counted. -/
  functions : outline.functionCount = outline.functions.length
  /-- The classes are counted. -/
  classes : outline.classCount = outline.classes.length

/-- The outline of a module is counted. -/
theorem isCounted_ofModule (outline : ModuleOutline) (path : String) (language : Language)
    (includePrivate : Bool) : (ofModule outline path language includePrivate).IsCounted :=
  ⟨rfl, rfl⟩

end FileOutline

namespace Parser

/-- The parser makes outlines that are counted. -/
theorem isCounted_of_fileOutline {parser : Parser} {path : String} {machine : Machine}
    {outline : FileOutline} (parsed : (parser.fileOutline path machine).1 = .ok outline) :
    outline.IsCounted := by
  rw [fileOutline_apply] at parsed
  cases known : languageOf path with
  | error failure => simp [known] at parsed
  | ok language =>
    rw [known] at parsed
    simp only [fileOutlineAs_apply] at parsed
    cases found : (parser.outlineFileAs path language machine).1 with
    | error failure => simp [found, Except.map] at parsed
    | ok module =>
      rw [found] at parsed
      cases parsed
      exact FileOutline.isCounted_ofModule ..

/-- However many trees are asked for, the answers are those of a function of the source and its dialect,
and the files read as before. -/
structure IsSteady (parser : Parser) (machine : Machine) : Prop where
  /-- What was asked before does not matter. -/
  trees : ∀ questions source dialect,
    (parser.scriptTree source dialect (parser.afterTrees machine questions)).1 =
      (parser.scriptTree source dialect machine).1
  /-- Asking does not change what files hold. -/
  texts : ∀ questions path,
    (parser.afterTrees machine questions).disk.readText path = machine.disk.readText path

/-- Without a program a tree depends on nothing but the question, which is all that is remembered. -/
theorem scriptTree_of_noProgram (parser : Parser)
    (noProgram : ∀ settings, parser.readiness ≠ .ready (.engine settings)) (source : String)
    (dialect : Dialect) :
    ∃ answer dialects, ∀ machine, parser.scriptTree source dialect machine =
      (answer, { machine with asked := machine.asked ++ dialects }) := by
  unfold scriptTree
  cases readiness : parser.readiness with
  | ready trees =>
    cases trees with
    | engine settings => exact absurd readiness (noProgram settings)
    | canned answer => exact ⟨answer source dialect, [dialect], fun _ => rfl⟩
  | unavailable reason =>
    exact ⟨.error (.engineUnavailable reason), [], fun _ => by rw [List.append_nil]; rfl⟩
  | notStarted => exact ⟨.error (.engineUnavailable _), [], fun _ => by rw [List.append_nil]; rfl⟩

/-- Where trees come from without a program, the parser is steady. -/
theorem isSteady_of_noProgram (parser : Parser)
    (noProgram : ∀ settings, parser.readiness ≠ .ready (.engine settings)) (machine : Machine) :
    parser.IsSteady machine := by
  refine ⟨fun questions source dialect => ?_, fun questions path => ?_⟩
  · obtain ⟨answer, _, told⟩ := parser.scriptTree_of_noProgram noProgram source dialect
    rw [told, told]
  · have kept : (parser.afterTrees machine questions).disk = machine.disk := by
      induction questions generalizing machine with
      | nil => rfl
      | cons question rest ih =>
        obtain ⟨_, _, told⟩ := parser.scriptTree_of_noProgram noProgram question.1 question.2
        exact (ih _).trans (by simp only [told])
    rw [kept]

namespace IsSteady

variable {parser : Parser} {machine : Machine}

/-- A steady parser stays steady. -/
theorem after (steady : parser.IsSteady machine) (questions : List (String × Dialect)) :
    parser.IsSteady (parser.afterTrees machine questions) := by
  refine ⟨fun more source dialect => ?_, fun more path => ?_⟩
  · rw [← afterTrees_append, steady.trees, steady.trees]
  · rw [← afterTrees_append, steady.texts, steady.texts]

/-- The outline of a file does not depend on what was asked before. -/
theorem fileOutline (steady : parser.IsSteady machine) (questions : List (String × Dialect))
    (path : String) :
    (parser.fileOutline path (parser.afterTrees machine questions)).1 =
      (parser.fileOutline path machine).1 := by
  rw [fileOutline_apply, fileOutline_apply]
  cases languageOf path with
  | error failure => rfl
  | ok language =>
    simp only [fileOutlineAs_apply, outlineFileAs_apply]
    rw [steady.texts]
    cases machine.disk.readText path with
    | error problem => rfl
    | ok source =>
      by_cases python : Dialect.ofPath path language = .python
      · simp only [python, outlineIn_python]
      · simp only [outlineIn_script _ _ python, steady.trees]

/-- The report on files is made from what became of each of them alone. -/
theorem batch (steady : parser.IsSteady machine) (paths : List String) :
    (parser.batch paths machine).1 =
      .ofFiles (fun path => (parser.fileOutline path machine).1) paths := by
  induction paths generalizing machine with
  | nil => rfl
  | cons path rest ih =>
    obtain ⟨questions, later⟩ := parser.fileOutline_later path machine
    have same : (fun other => (parser.fileOutline other (parser.afterTrees machine questions)).1) =
        fun other => (parser.fileOutline other machine).1 :=
      funext fun other => steady.fileOutline questions other
    rw [batch_cons, reportOn_apply, BatchReport.ofFiles, later]
    simp only [ih (steady.after questions), same]

end IsSteady

/-- In a report on files each of them has its own outline, or else a note on what it failed on, in the
order of the files; the report on more files begins with it, and its counts are those of its lists. -/
theorem batch_tells_each (parser : Parser) (machine : Machine) (steady : parser.IsSteady machine)
    (paths more : List String) :
    let report := fun paths => (parser.batch paths machine).1
    let outcome := fun path => (parser.fileOutline path machine).1
    (report (paths ++ more)).results = (report paths).results ++ (report more).results ∧
      (report (paths ++ more)).omitted = (report paths).omitted ++ (report more).omitted ∧
      (report paths).results = paths.filterMap (fun path => (outcome path).toOption) ∧
      (report paths).omitted = paths.filterMap (BatchReport.omission? outcome) ∧
      (report paths).summary.parsed + (report paths).summary.omitted = paths.length ∧
      (report paths).summary.functions =
        ((report paths).results.map fun outline => outline.functions.length).sum ∧
      (report paths).summary.classes =
        ((report paths).results.map fun outline => outline.classes.length).sum ∧
      (report paths).summary.notes =
        ((report paths).results.map fun outline => outline.omissions.length).sum := by
  intro report outcome
  have told : ∀ paths, report paths = .ofFiles outcome paths := steady.batch
  have counted : ∀ outline ∈ (report paths).results, outline.IsCounted := by
    intro outline member
    rw [told, BatchReport.results_ofFiles, List.mem_filterMap] at member
    obtain ⟨path, _, parsed⟩ := member
    cases found : outcome path with
    | error failure => simp [found, Except.toOption] at parsed
    | ok other =>
      rw [found] at parsed
      cases parsed
      exact isCounted_of_fileOutline found
  refine ⟨?_, ?_, ?_, ?_, ?_, ?_, ?_, ?_⟩
  · rw [told, told, told, BatchReport.ofFiles_append, BatchReport.results_append]
  · rw [told, told, told, BatchReport.ofFiles_append, BatchReport.omitted_append]
  · rw [told, BatchReport.results_ofFiles]
  · rw [told, BatchReport.omitted_ofFiles]
  · rw [told]
    exact BatchReport.length_ofFiles outcome paths
  · refine (BatchReport.total_eq_sum _ _).trans (congrArg List.sum ?_)
    exact List.map_congr_left fun outline member => (counted outline member).functions
  · refine (BatchReport.total_eq_sum _ _).trans (congrArg List.sum ?_)
    exact List.map_congr_left fun outline member => (counted outline member).classes
  · exact BatchReport.total_eq_sum _ _

/-- One of three files has an outline, and the two others are noted in their order. -/
theorem batch_tells_each_mixed :
    ∃ (parser : Parser) (machine : Machine), parser.IsSteady machine ∧
      (parser.batch ["b.js", "a.js", "c.rb"] machine).1.results.map FileOutline.path = ["a.js"] ∧
        (parser.batch ["b.js", "a.js", "c.rb"] machine).1.omitted.map OmittedFile.path =
          ["b.js", "c.rb"] := by
  have steady := isSteady_of_noProgram ⟨{}, .ready (.canned fun _ _ => .ok ⟨[]⟩)⟩ (by simp)
    ⟨⟨.directory [("a.js", .file .empty)], [], "/tmp"⟩, fun _ _ _ => .refused .missing, [], []⟩
  have told := batch_tells_each _ _ steady ["b.js", "a.js", "c.rb"] []
  refine ⟨_, _, steady, ?_, ?_⟩
  · rw [told.2.2.1]
    decide +kernel
  · rw [told.2.2.2.1]
    decide +kernel

end Parser

end SourceOutline
