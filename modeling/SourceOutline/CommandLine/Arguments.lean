import SourceOutline.Language
import SourceOutline.Text.Search

/-! The arguments of the command line. -/

namespace SourceOutline.CommandLine

/-- An option that can be given. -/
inductive Choice where
  /-- More is told about what happens. -/
  | verbose
  /-- Less is told about what happens. -/
  | quiet
  /-- The file that settings are read from. -/
  | config
  /-- The directory of the engine. -/
  | engineDirectory
  /-- The program that runs the engine. -/
  | program
  /-- A missing engine is installed. -/
  | autoInstall
  /-- How many milliseconds one call of the engine may take. -/
  | timeout
  /-- The language of the sources. -/
  | language
  /-- Private names are kept. -/
  | includePrivate
  /-- The result is written with one part per line. -/
  | pretty
  /-- What can be given is explained. -/
  | help
  /-- The version is told. -/
  | version
  deriving DecidableEq, Repr

/-- Where on the command line an option stands. -/
inductive Section where
  /-- In front of the command. -/
  | top
  /-- Behind the command that parses. -/
  | parse
  /-- Behind the command that installs the engine. -/
  | install
  deriving DecidableEq, Repr

/-- The long name of an option. -/
def Choice.name : Choice → String
  | .verbose => "verbose"
  | .quiet => "quiet"
  | .config => "config"
  | .engineDirectory => "engine-dir"
  | .program => "node"
  | .autoInstall => "auto-install"
  | .timeout => "timeout-ms"
  | .language => "language"
  | .includePrivate => "include-private"
  | .pretty => "pretty"
  | .help => "help"
  | .version => "version"

/-- The option takes a value. -/
def Choice.takesValue : Choice → Bool
  | .config | .engineDirectory | .program | .timeout | .language => true
  | _ => false

/-- The options that can be given everywhere. -/
def everywhere : List Choice :=
  [.verbose, .quiet, .config, .engineDirectory, .program, .autoInstall, .timeout, .help]

/-- The options that can be given in a section. -/
def Section.choices : Section → List Choice
  | .top => everywhere ++ [.version]
  | .parse => everywhere ++ [.language, .includePrivate, .pretty]
  | .install => everywhere ++ [.pretty]

/-- The section behind a command of this name. -/
def Section.ofCommand (name : String) : Option Section :=
  -- Names must be given in full.
  match name with
  | "parse" => some .parse
  | "install-engine" => some .install
  | _ => none

/-- What is wrong with the arguments. -/
inductive UsageFault where
  /-- There is no such option here. -/
  | unknownOption (written : String)
  /-- The option was given before. -/
  | repeated (choice : Choice)
  /-- The option needs a value. -/
  | noValue (choice : Choice)
  /-- The option takes no value. -/
  | needlessValue (choice : Choice) (value : String)
  /-- The value of the option is not acceptable. -/
  | badValue (choice : Choice) (value : String)
  /-- There is no such command. -/
  | unknownCommand (name : String)
  /-- There is no command at all. -/
  | noCommand
  /-- There is nothing to parse. -/
  | noPath
  /-- A path must not be empty. -/
  | emptyPath
  /-- The argument has no place. -/
  | surplus (argument : String)
  deriving DecidableEq, Repr

/-- A fault in words. -/
def UsageFault.message : UsageFault → String
  | .unknownOption written => "unexpected argument '" ++ written ++ "' found"
  | .repeated choice => "the argument '--" ++ choice.name ++ "' cannot be used multiple times"
  | .noValue choice => "a value is required for '--" ++ choice.name ++ "' but none was supplied"
  | .needlessValue choice value =>
    "unexpected value '" ++ value ++ "' for '--" ++ choice.name ++ "' found; no more were expected"
  | .badValue choice value => "invalid value '" ++ value ++ "' for '--" ++ choice.name ++ "'"
  | .unknownCommand name => "unrecognized subcommand '" ++ name ++ "'"
  | .noCommand => "a subcommand is required but one was not provided"
  | .noPath => "the following required arguments were not provided: <PATH>"
  | .emptyPath => "a value is required for '<PATH>' but none was supplied"
  | .surplus argument => "unexpected argument '" ++ argument ++ "' found"

/-- Why the arguments are not read to their end. -/
inductive Stop where
  /-- They are faulty. -/
  | fault (fault : UsageFault)
  /-- What can be given in a section is to be explained. -/
  | help (place : Section)
  /-- The version is to be told. -/
  | version
  deriving DecidableEq, Repr

/-- What was given in one section. -/
structure Given where
  /-- The options with their values, which are empty for those that take none. -/
  choices : List (Choice × String) := []
  /-- The paths. -/
  paths : List String := []

/-- The language of a name on the command line. -/
def languageNamed (name : String) : Option Language :=
  -- The short forms of names are accepted too.
  (Language.ofName name).toOption

/-- The whole number of sixty-four bits that a text is. -/
def wholeNumber (text : String) : Option Nat :=
  -- A plus sign may stand in front of the digits.
  let digits := Text.dropOpening ['+'] text.toList
  if digits.isEmpty || !digits.all Char.isDigit then none
  else
    let value := digits.foldl (fun value c => value * 10 + (c.toNat - '0'.toNat)) 0
    if value < UInt64.size then some value else none

/-- A value is acceptable for an option. -/
def Choice.accepts (choice : Choice) (value : String) : Bool :=
  -- Paths must not be empty.
  match choice with
  | .config | .engineDirectory => !value.isEmpty
  | .timeout => (wholeNumber value).isSome
  | .language => (languageNamed value).isSome
  | _ => true

namespace Given

/-- An option was given. -/
def has (given : Given) (choice : Choice) : Bool :=
  -- Its value does not matter.
  given.choices.any fun entry => entry.1 == choice

/-- The value of an option that was given. -/
def value? (given : Given) (choice : Choice) : Option String :=
  -- An option is given at most once.
  (given.choices.find? fun entry => entry.1 == choice).map Prod.snd

/-- One more option with its value. -/
def add (given : Given) (choice : Choice) (value : String) : Except Stop Given :=
  -- The value is looked at before the options given earlier.
  if !choice.accepts value then .error (.fault (.badValue choice value))
  else if given.has choice then .error (.fault (.repeated choice))
  else .ok { given with choices := given.choices ++ [(choice, value)] }

/-- One more option without value. -/
def mark (given : Given) (place : Section) (choice : Choice) : Except Stop Given :=
  -- Help and version are not gathered but answered at once.
  match choice with
  | .help => .error (.help place)
  | .version => .error .version
  | choice => given.add choice ""

/-- One more path. -/
def addPath (given : Given) (place : Section) (path : String) : Except Stop Given :=
  -- Only one command takes a path, and only one.
  if place != .parse || !given.paths.isEmpty then .error (.fault (.surplus path))
  else if path.isEmpty then .error (.fault .emptyPath)
  else .ok { given with paths := [path] }

/-- One more option for each of the letters behind a hyphen. -/
def addLetters (given : Given) (place : Section) : List Char → Except Stop Given
  | [] => .ok given
  | c :: rest => do
    -- Only options without value have a letter.
    let choice := match c with
      | 'v' => some Choice.verbose
      | 'h' => some .help
      | 'V' => some .version
      | _ => none
    match choice.filter place.choices.contains with
    | none => throw (.fault (.unknownOption ("-" ++ c.toString)))
    | some choice => (← given.mark place choice).addLetters place rest

end Given

/-- An argument as it is written. -/
inductive Argument where
  /-- What makes all later arguments paths. -/
  | divider
  /-- The long name of an option, perhaps with a value behind an equals sign. -/
  | long (name : String) (value : Option String)
  /-- Letters of options. -/
  | letters (letters : List Char)
  /-- Anything else. -/
  | word (text : String)
  deriving DecidableEq, Repr

/-- An argument taken apart. -/
def Argument.ofText (text : String) : Argument :=
  -- A single hyphen is a word.
  match text.toList with
  | ['-', '-'] => .divider
  | '-' :: '-' :: body =>
    let name := String.ofList (body.takeWhile (· != '='))
    match body.dropWhile (· != '=') with
    | [] => .long name none
    | _ :: value => .long name (some (String.ofList value))
  | '-' :: c :: rest => .letters (c :: rest)
  | _ => .word text

/-- What a command line asks for: the options in front of the command, the command, and those behind. -/
structure Invocation where
  /-- What was given in front of the command. -/
  before : Given
  /-- The section of the command. -/
  place : Section
  /-- What was given behind the command. -/
  behind : Given

/-- What the command that explains others is asked for. -/
def helpTopic : List String → Stop
  | [] => .help .top
  | ["help"] => .help .top
  | [name] =>
    match Section.ofCommand name with
    | some place => .help place
    | none => .fault (.unknownCommand name)
  | _ :: surplus :: _ => .fault (.unknownCommand surplus)

/-- The option of a long name in a section. -/
def Section.choiceNamed (place : Section) (name : String) : Option Choice :=
  -- Names must be given in full.
  place.choices.find? fun choice => choice.name == name

/-- The options and paths of a section, read to the end of the arguments or to a command; the rest
are the arguments behind the command. -/
def readSection (place : Section) (given : Given) (onlyPaths : Bool) :
    List String → Except Stop (Given × Option (String × List String))
  | [] => .ok (given, none)
  | text :: rest => do
    -- Commands are only looked for in front of the first one.
    if onlyPaths then readSection place (← given.addPath place text) true rest
    else
      match Argument.ofText text with
      | .divider => readSection place given true rest
      | .letters letters => readSection place (← given.addLetters place letters) false rest
      | .word word =>
        if place == .top then return (given, some (word, rest))
        else readSection place (← given.addPath place word) false rest
      | .long name value =>
        match place.choiceNamed name, value, rest with
        | none, _, _ => throw (.fault (.unknownOption ("--" ++ name)))
        | some choice, some value, rest =>
          if choice.takesValue then readSection place (← given.add choice value) false rest
          else throw (.fault (.needlessValue choice value))
        | some choice, none, rest =>
          if !choice.takesValue then readSection place (← given.mark place choice) false rest
          else
            match rest with
            | [] => throw (.fault (.noValue choice))
            | value :: rest =>
              if let .word _ := Argument.ofText value then
                readSection place (← given.add choice value) false rest
              else throw (.fault (.noValue choice))

/-- The invocation that arguments make up. -/
def readArguments (arguments : List String) : Except Stop Invocation := do
  -- Nothing may follow what a command takes.
  match ← readSection .top {} false arguments with
  | (_, none) => throw (.fault .noCommand)
  | (before, some (name, rest)) =>
    match Section.ofCommand name with
    | none => throw (if name == "help" then helpTopic rest else .fault (.unknownCommand name))
    | some place =>
      let (behind, _) ← readSection place {} false rest
      if place == .parse && behind.paths.isEmpty then throw (.fault .noPath)
      return ⟨before, place, behind⟩

namespace Invocation

/-- An option was given on either side of the command. -/
def has (invocation : Invocation) (choice : Choice) : Bool :=
  -- It does not matter on which side.
  invocation.behind.has choice || invocation.before.has choice

/-- The value of an option, where behind the command counts before in front of it. -/
def value? (invocation : Invocation) (choice : Choice) : Option String :=
  -- The nearer value is the one meant.
  invocation.behind.value? choice <|> invocation.before.value? choice

end Invocation

end SourceOutline.CommandLine
