import SourceOutline.Proofs.CommandLine.Agreement
import SourceOutline.Proofs.Engine.Sessions

/-! What came of bringing up the engine is remembered: it decides about every later script, and about no
source of Python. -/

namespace SourceOutline

/-- What a parser can be given to parse. -/
inductive Request where
  /-- A source in a dialect. -/
  | source (text : String) (dialect : Dialect)
  /-- A file, in the language of its path or in another one. -/
  | file (path : String) (language : Option Language)

namespace Request

/-- The source that a request comes to and its dialect, unless there is no such file or no such language. -/
def resolve (disk : Disk) : Request → Except Failure (String × Dialect)
  | source text dialect => .ok (text, dialect)
  | file path language => do
    -- The language is known before the file is read.
    let language ← language.elim (Parser.languageOf path) .ok
    let text ← (disk.readText path).mapError .file
    return (text, .ofPath path language)

/-- A parser answers a request. -/
def run (parser : Parser) : Request → OnMachine ModuleOutline
  | source text dialect => parser.outlineIn text dialect
  | file path none => parser.outlineFile path
  | file path (some language) => parser.outlineFileAs path language

/-- A request is answered from the source that it comes to. -/
theorem run_apply (parser : Parser) (request : Request) (machine : Machine) :
    request.run parser machine =
      match request.resolve machine.disk with
      | .ok (text, dialect) => parser.outlineIn text dialect machine
      | .error failure => (.error failure, machine) := by
  cases request with
  | source text dialect => rfl
  | file path language =>
    cases language with
    | some language =>
      rw [run, Parser.outlineFileAs_apply]
      cases read : machine.disk.readText path <;> simp [resolve, read, mapError_ok, mapError_error] <;> rfl
    | none =>
      rw [run, Parser.outlineFile, OnMachine.bind_apply]
      cases known : Parser.languageOf path with
      | error failure =>
        simp [resolve, known]
        rfl
      | ok language =>
        show parser.outlineFileAs path language machine = _
        rw [Parser.outlineFileAs_apply]
        cases read : machine.disk.readText path <;>
          simp [resolve, known, read, mapError_ok, mapError_error] <;> rfl

/-- The request comes to a script. -/
def IsScript (disk : Disk) (request : Request) (text : String) (dialect : Dialect) : Prop :=
  request.resolve disk = .ok (text, dialect) ∧ dialect ≠ .python

/-- A parser that has no trees fails with its reason on every script, and leaves the machine alone. -/
theorem run_withoutTrees {parser : Parser} {reason : String} {request : Request} {machine : Machine} {text : String}
    {dialect : Dialect} (script : request.IsScript machine.disk text dialect) :
    request.run (parser.withoutTrees reason) machine = (.error (.engineUnavailable reason), machine) := by
  rw [run_apply, script.1]
  exact Parser.outlineIn_script _ text script.2 machine

/-- A parser that has the engine asks it about every script. -/
theorem run_withEngine {parser : Parser} {settings : EngineSettings} {request : Request} {machine : Machine}
    {text : String} {dialect : Dialect} (script : request.IsScript machine.disk text dialect) :
    request.run (parser.withTrees (.engine settings)) machine =
      ((Engine.parse settings text dialect machine).1.map
          (Script.outline text.toList parser.settings.docWindow),
        (Engine.parse settings text dialect machine).2) := by
  rw [run_apply, script.1]
  exact Parser.outlineIn_script _ text script.2 machine

/-- Parsers answer every request alike that comes to no script. -/
theorem run_of_plain {request : Request} {machine : Machine}
    (plain : ∀ text dialect, ¬ request.IsScript machine.disk text dialect) (parser other : Parser) :
    request.run parser machine = request.run other machine := by
  rw [run_apply, run_apply]
  cases found : request.resolve machine.disk with
  | error failure => rfl
  | ok both =>
    obtain ⟨text, dialect⟩ := both
    obtain rfl : dialect = .python := Decidable.not_not.mp fun script => plain text dialect ⟨found, script⟩
    rfl

end Request

namespace Operation

/-- An operation makes a parser, or decides where the parser has its trees from. -/
def setsTrees : Operation → Bool
  | create _ | provide _ | giveUp _ | startEngine => true
  | _ => false

/-- Every other operation leaves the parser as it is. -/
theorem parser_run_of_keeps {operation : Operation} (keeps : operation.setsTrees = false) (session : Session) :
    (operation.run session).parser = session.parser := by
  have used : ∀ use : Parser → Machine → Machine, (session.withParser use).parser = session.parser := by
    intro use
    unfold Session.withParser
    cases made : session.parser with
    | none => exact made
    | some parser => rfl
  cases operation with
  | create | provide | giveUp | startEngine => cases keeps
  | bringUp | call | change => rfl
  | parse | batch | batchDirectory => exact used _
  | parseFile path language | outlineFile path language => cases language <;> exact used _
  | ask source dialect =>
    rw [run]
    cases session.bridge <;> rfl

end Operation

namespace Session

/-- Operations that leave the parser as it is leave it so one after the other. -/
theorem parser_after_of_keep {operations : List Operation}
    (keep : ∀ operation ∈ operations, operation.setsTrees = false) (session : Session) :
    (session.after operations).parser = session.parser := by
  induction operations generalizing session with
  | nil => rfl
  | cons operation rest ih =>
    obtain ⟨first, later⟩ := List.forall_mem_cons.mp keep
    exact (ih later (operation.run session)).trans (Operation.parser_run_of_keeps first session)

/-- What came of bringing up the engine is remembered until trees are to be had from elsewhere. After a
failure every script fails as one for which the engine is unavailable, and the reason is the failure in words;
in words the two differ by what is put in front. Files in a batch fail in the same way one by one. After a
success every script goes to the engine. In either case everything else is parsed as by a new parser. -/
theorem remembers_startEngine {session : Session} {parser : Parser} (made : session.parser = some parser)
    {operations : List Operation} (keep : ∀ operation ∈ operations, operation.setsTrees = false) :
    ∃ now, ((Operation.startEngine.run session).after operations).parser = some now ∧
      now.settings = parser.settings ∧
      (∀ failure, (parser.startEngine session.machine).1.1 = .error failure →
        now.isReady = false ∧
          (∀ request machine text dialect, Request.IsScript machine.disk request text dialect →
            request.run now machine = (.error (.engineUnavailable failure.message), machine)) ∧
          (Failure.engineUnavailable failure.message).message =
            "JS/TS parsing engine unavailable: " ++ failure.message ∧
          ∀ paths machine, (∀ path ∈ paths, ∃ language, Language.ofPath path = .ok language) →
            now.batch paths machine =
              (.ofFiles (Parser.outcomeWithout failure.message parser.settings.includePrivate machine.disk) paths,
                machine)) ∧
      ((parser.startEngine session.machine).1.1 = .ok () →
        now.isReady = true ∧
          ∀ request machine text dialect, Request.IsScript machine.disk request text dialect →
            request.run now machine =
              ((Engine.parse parser.settings.engine text dialect machine).1.map
                  (Script.outline text.toList parser.settings.docWindow),
                (Engine.parse parser.settings.engine text dialect machine).2)) ∧
      ∀ request machine, (∀ text dialect, ¬ Request.IsScript machine.disk request text dialect) →
        request.run now machine = request.run ⟨parser.settings, .notStarted⟩ machine := by
  have started : (Operation.startEngine.run session).parser = some (parser.startEngine session.machine).1.2 := by
    rw [Operation.run, made]
    rfl
  refine ⟨_, (parser_after_of_keep keep _).trans started, parser.settings_startEngine _, ?failed, ?worked, ?plain⟩
  case failed =>
    intro failure fails
    rw [Parser.startEngine_of_error fails]
    refine ⟨rfl, fun request machine text dialect => Request.run_withoutTrees, rfl, fun paths machine known => ?_⟩
    exact Parser.batch_of_alone fun path member => parser.fileOutline_withoutTrees _ (known path member) machine
  case worked =>
    intro works
    have brought := parser.startEngine_apply session.machine
    rw [Parser.outcome_startEngine] at works
    rcases outcome : Engine.bringUp parser.settings.engine session.machine with ⟨result, later⟩
    rw [outcome] at works brought
    obtain rfl : result = .ok () := works
    rw [brought]
    exact ⟨rfl, fun request machine text dialect => Request.run_withEngine⟩
  case plain => exact fun request machine plain => Request.run_of_plain plain _ _

/-- The engine is not there: a script that is parsed later, after other scripts and changes of the disk, fails
with the same words and those of its own kind of failure in front once more. -/
theorem remembers_startEngine_twice :
    ∃ (session : Session) (parser now : Parser) (failure later : Failure),
      session.parser = some parser ∧ (parser.startEngine session.machine).1.1 = .error failure ∧
      ((Operation.startEngine.run session).after
        [.parse "let x" .javascript, .change id, .batch ["a.js"]]).parser = some now ∧
      ((Request.source "let y" .tsx).run now session.machine).1 = .error later ∧
      later.message = "JS/TS parsing engine unavailable: " ++ failure.message ∧
      later.message ≠ failure.message := by
  let machine : Machine := ⟨⟨.directory [], [], "/tmp"⟩, fun _ _ _ => .refused .missing, [], []⟩
  let session : Session := ⟨machine, some ⟨{}, .notStarted⟩, none⟩
  have fails : (Engine.bringUp {} machine).1 = .error (Engine.notFound {}) := by
    rw [Engine.bringUp_of_valid (by cbv), Engine.probe_apply, if_neg (by decide +kernel)]
    rfl
  have failed := (Parser.outcome_startEngine ⟨{}, .notStarted⟩ machine).trans fails
  obtain ⟨now, made, -, told, -⟩ := @remembers_startEngine session ⟨{}, .notStarted⟩ rfl
    [.parse "let x" .javascript, .change id, .batch ["a.js"]] (by simp [Operation.setsTrees])
  obtain ⟨-, scripts, words, -⟩ := told _ failed
  have script : Request.IsScript machine.disk (.source "let y" .tsx) "let y" .tsx := ⟨rfl, by decide⟩
  refine ⟨session, _, now, _, _, rfl, failed, made, congrArg Prod.fst (scripts _ machine _ _ script), words, ?_⟩
  decide +kernel

end Session

end SourceOutline
