import SourceOutline.Parser

/-! What the parser does to the machine: it reads texts and asks for trees, and nothing else. -/

namespace SourceOutline

/-- A computation that goes on with the result of another. -/
theorem OnMachine.bind_apply {ε α β : Type} (action : ExceptT ε (StateM Machine) α)
    (next : α → ExceptT ε (StateM Machine) β) (machine : Machine) :
    (action >>= next) machine =
      match action machine with
      | (.ok value, later) => next value later
      | (.error failure, later) => (.error failure, later) := by
  -- Both sides run the first computation and look at its result.
  show (ExceptT.bind action next) machine = _
  simp only [ExceptT.bind, ExceptT.mk, bind, StateT.bind]
  rcases action machine with ⟨_ | _, later⟩ <;> rfl

/-- A result that does not depend on the machine. -/
theorem OnMachine.of_apply {ε α : Type} (result : Except ε α) (machine : Machine) :
    (ExceptT.mk (pure result) : ExceptT ε (StateM Machine) α) machine = (result, machine) := rfl

/-- A computation that cannot fail. -/
theorem OnMachine.lift_apply {ε α : Type} (action : StateM Machine α) (machine : Machine) :
    (liftM action : ExceptT ε (StateM Machine) α) machine =
      (.ok (action machine).1, (action machine).2) := rfl

/-- A computation on the machine whose failures are told differently. -/
theorem OnMachine.adapt_apply {ε δ α : Type} (tell : ε → δ) (action : ExceptT ε (StateM Machine) α)
    (machine : Machine) :
    ExceptT.adapt tell action machine = ((action machine).1.mapError tell, (action machine).2) := rfl

/-- A failure is told differently. -/
theorem mapError_error {ε δ α : Type} (tell : ε → δ) (failure : ε) :
    (Except.error failure : Except ε α).mapError tell = .error (tell failure) := rfl

/-- Success is told as before. -/
theorem mapError_ok {ε δ α : Type} (tell : ε → δ) (value : α) :
    (Except.ok value : Except ε α).mapError tell = .ok value := rfl

namespace Parser

/-- The tree of a source makes an outline of it. -/
theorem outlineIn_script (parser : Parser) (source : String) {dialect : Dialect}
    (script : dialect ≠ .python) (machine : Machine) :
    parser.outlineIn source dialect machine =
      ((parser.scriptTree source dialect machine).1.map
          (Script.outline source.toList parser.settings.docWindow),
        (parser.scriptTree source dialect machine).2) := by
  have unfolded : parser.outlineIn source dialect = do
      let tree ← parser.scriptTree source dialect
      return Script.outline source.toList parser.settings.docWindow tree := by
    cases dialect with
    | python => exact absurd rfl script
    | javascript | typescript | tsx => rfl
  rw [unfolded, OnMachine.bind_apply]
  rcases parser.scriptTree source dialect machine with ⟨_ | _, later⟩ <;> rfl

/-- Sources of Python are parsed without the machine. -/
theorem outlineIn_python (parser : Parser) (source : String) (machine : Machine) :
    parser.outlineIn source .python machine = (Python.outline source.toList, machine) := rfl

/-- A file in a language is read, and then its text is parsed. -/
theorem outlineFileAs_apply (parser : Parser) (path : String) (language : Language)
    (machine : Machine) :
    parser.outlineFileAs path language machine =
      match machine.disk.readText path with
      | .ok source => parser.outlineIn source (.ofPath path language) machine
      | .error problem => (.error (.file problem), machine) := by
  rw [outlineFileAs, OnMachine.bind_apply, Machine.look]
  cases machine.disk.readText path <;> rfl

/-- The settings show some of the outline of a file. -/
theorem fileOutlineAs_apply (parser : Parser) (path : String) (language : Language)
    (machine : Machine) :
    parser.fileOutlineAs path language machine =
      ((parser.outlineFileAs path language machine).1.map fun outline =>
          FileOutline.ofModule outline path language parser.settings.includePrivate,
        (parser.outlineFileAs path language machine).2) := by
  rw [fileOutlineAs, OnMachine.bind_apply]
  rcases parser.outlineFileAs path language machine with ⟨_ | _, later⟩ <;> rfl

/-- A file is parsed in the language of its path. -/
theorem fileOutline_apply (parser : Parser) (path : String) (machine : Machine) :
    parser.fileOutline path machine =
      match languageOf path with
      | .ok language => parser.fileOutlineAs path language machine
      | .error failure => (.error failure, machine) := by
  rw [fileOutline, OnMachine.bind_apply]
  cases languageOf path <;> rfl

/-- The report on one file is made from its outline. -/
theorem reportOn_apply (parser : Parser) (path : String) (machine : Machine) :
    parser.reportOn path machine =
      (.ofFile path (parser.fileOutline path machine).1, (parser.fileOutline path machine).2) := rfl

/-- The report on files starts with the first of them. -/
theorem batch_cons (parser : Parser) (path : String) (rest : List String) (machine : Machine) :
    parser.batch (path :: rest) machine =
      ((parser.reportOn path machine).1 ++ (parser.batch rest (parser.reportOn path machine).2).1,
        (parser.batch rest (parser.reportOn path machine).2).2) := rfl

/-- The machine after trees were asked for, one after the other. -/
def afterTrees (parser : Parser) (machine : Machine) (questions : List (String × Dialect)) : Machine :=
  questions.foldl (fun machine question => (parser.scriptTree question.1 question.2 machine).2) machine

/-- Questions can be asked in two parts. -/
theorem afterTrees_append (parser : Parser) (machine : Machine)
    (first second : List (String × Dialect)) :
    parser.afterTrees machine (first ++ second) =
      parser.afterTrees (parser.afterTrees machine first) second :=
  List.foldl_append

/-- Parsing a source asks for trees only. -/
theorem outlineIn_later (parser : Parser) (source : String) (dialect : Dialect) (machine : Machine) :
    ∃ questions, (parser.outlineIn source dialect machine).2 = parser.afterTrees machine questions := by
  by_cases python : dialect = .python
  · subst python
    exact ⟨[], rfl⟩
  · exact ⟨[(source, dialect)], congrArg Prod.snd (parser.outlineIn_script source python machine)⟩

/-- Parsing a file in a language asks for trees only. -/
theorem outlineFileAs_later (parser : Parser) (path : String) (language : Language)
    (machine : Machine) :
    ∃ questions,
      (parser.outlineFileAs path language machine).2 = parser.afterTrees machine questions := by
  rw [outlineFileAs_apply]
  cases machine.disk.readText path with
  | ok source => exact parser.outlineIn_later source _ machine
  | error problem => exact ⟨[], rfl⟩

/-- Parsing a file asks for trees only, whatever its language. -/
theorem outlineFile_later (parser : Parser) (path : String) (machine : Machine) :
    ∃ questions, (parser.outlineFile path machine).2 = parser.afterTrees machine questions := by
  rw [outlineFile, OnMachine.bind_apply]
  cases languageOf path with
  | ok language => exact parser.outlineFileAs_later path language machine
  | error failure => exact ⟨[], rfl⟩

/-- The outline of a file in a language asks for trees only. -/
theorem fileOutlineAs_later (parser : Parser) (path : String) (language : Language)
    (machine : Machine) :
    ∃ questions,
      (parser.fileOutlineAs path language machine).2 = parser.afterTrees machine questions := by
  rw [fileOutlineAs_apply]
  exact parser.outlineFileAs_later path language machine

/-- The outline of a file asks for trees only. -/
theorem fileOutline_later (parser : Parser) (path : String) (machine : Machine) :
    ∃ questions, (parser.fileOutline path machine).2 = parser.afterTrees machine questions := by
  rw [fileOutline_apply]
  cases languageOf path with
  | ok language => exact parser.fileOutlineAs_later path language machine
  | error failure => exact ⟨[], rfl⟩

/-- Parsing files asks for trees only. -/
theorem batch_later (parser : Parser) (paths : List String) (machine : Machine) :
    ∃ questions, (parser.batch paths machine).2 = parser.afterTrees machine questions := by
  induction paths generalizing machine with
  | nil => exact ⟨[], rfl⟩
  | cons path rest ih =>
    obtain ⟨first, afterFirst⟩ := parser.fileOutline_later path machine
    obtain ⟨others, afterOthers⟩ := ih (parser.fileOutline path machine).2
    refine ⟨first ++ others, ?_⟩
    rw [batch_cons, afterTrees_append, ← afterFirst, ← afterOthers, reportOn_apply]

/-- A directory that is there is searched, and the files found are reported on. -/
theorem batchDirectory_apply (parser : Parser) (root : String) (only : Option Language)
    (machine : Machine) :
    parser.batchDirectory root only machine =
      if machine.disk.has root then
        let (report, later) := parser.batch ((parser.scanner root only).scan machine.disk) machine
        (.ok report, later)
      else (.error (noDirectory root), machine) := by
  rw [batchDirectory, OnMachine.bind_apply]
  show (if (!machine.disk.has root) = true then _ else _ : OnMachine BatchReport) machine = _
  cases machine.disk.has root <;> rfl

/-- Parsing a directory asks for trees only. -/
theorem batchDirectory_later (parser : Parser) (root : String) (only : Option Language)
    (machine : Machine) :
    ∃ questions,
      (parser.batchDirectory root only machine).2 = parser.afterTrees machine questions := by
  rw [batchDirectory_apply]
  cases machine.disk.has root with
  | true => exact parser.batch_later _ machine
  | false => exact ⟨[], rfl⟩

/-- Two lists of files are reported on one after the other. -/
theorem batch_append (parser : Parser) (paths more : List String) (machine : Machine) :
    parser.batch (paths ++ more) machine =
      ((parser.batch paths machine).1 ++ (parser.batch more (parser.batch paths machine).2).1,
        (parser.batch more (parser.batch paths machine).2).2) := by
  induction paths generalizing machine with
  | nil => rfl
  | cons path rest ih =>
    rw [List.cons_append, batch_cons, ih, batch_cons, BatchReport.append_assoc]

end Parser

end SourceOutline
