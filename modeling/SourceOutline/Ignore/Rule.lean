import SourceOutline.FileTree.Basic
import SourceOutline.Ignore.Glob
import SourceOutline.Text.Blank
import SourceOutline.Text.Lines

/-! Rules that take entries out of a directory tree, as ignore files list them. -/

namespace SourceOutline.Ignore

/-- What a rule says about an entry. -/
inductive Verdict where
  /-- The entry is passed over. -/
  | ignored
  /-- The entry is kept. -/
  | kept
  deriving DecidableEq, Repr

/-- One line of an ignore file. -/
structure Rule where
  /-- The pattern for paths below the directory of the file. -/
  parts : List Part
  /-- The entry is kept instead of passed over. -/
  keeps : Bool
  /-- Only directories are concerned. -/
  directoriesOnly : Bool

namespace Rule

/-- A pattern that holds for whole paths: with no slash in it, the name may stand anywhere. -/
def anchor (fromStart : Bool) (pattern : List Char) : List Char :=
  -- A pattern for everything inside a directory spares the directory itself.
  let anywhere := !fromStart && !pattern.contains '/' && pattern != ['*', '*']
  let whole := if anywhere then ['*', '*', '/'] ++ pattern else pattern
  if ['/', '*', '*'].isSuffixOf whole then whole ++ ['/', '*'] else whole

/-- The marks in front of a pattern: it keeps, it starts at the directory, and what follows. -/
def leadingMarks (line : List Char) : Bool × Bool × List Char :=
  -- A backslash takes the meaning away from the first mark.
  match line with
  | '\\' :: '!' :: rest => (false, false, '!' :: rest)
  | '\\' :: '#' :: rest => (false, false, '#' :: rest)
  | '!' :: '/' :: rest => (true, true, rest)
  | '!' :: rest => (true, false, rest)
  | '/' :: rest => (false, true, rest)
  | rest => (false, false, rest)

/-- The mark at the end of a pattern: only directories are concerned, and what stands before. -/
def trailingMark (pattern : List Char) : Bool × List Char :=
  -- A backslash before the slash goes with it.
  match pattern.reverse with
  | '/' :: '\\' :: before => (true, before.reverse)
  | '/' :: before => (true, before.reverse)
  | _ => (false, pattern)

/-- The rule of a line, if it has one. -/
def ofLine (line : List Char) : Option Rule := do
  -- Blanks at the end do not count unless the last one is escaped.
  if line.head? == some '#' then none
  let line := if ['\\', ' '].isSuffixOf line then line else Text.trimEnd line
  if line.isEmpty then none
  let (keeps, fromStart, marked) := leadingMarks line
  let (directoriesOnly, pattern) := trailingMark marked
  let parts ← parsePattern (anchor fromStart pattern)
  return ⟨parts, keeps, directoriesOnly⟩

/-- A rule concerns the entry of a path below the directory of its file. -/
def concerns (rule : Rule) (path : String) (isDirectory : Bool) : Bool :=
  -- The pattern must cover the whole path.
  (isDirectory || !rule.directoriesOnly) && covers rule.parts path

/-- What a rule says about entries it concerns. -/
def verdict (rule : Rule) : Verdict :=
  -- There is no third possibility.
  if rule.keeps then .kept else .ignored

end Rule

/-- The pieces of some bytes between line feeds. -/
def byteLines (bytes : List UInt8) : List (List UInt8) :=
  -- A line feed opens an empty line in front of the lines already read.
  bytes.foldr
    (fun byte lines =>
      if byte == 0x0A then [] :: lines
      else match lines with
        | [] => [[byte]]
        | line :: rest => (byte :: line) :: rest)
    [[]]

/-- The lines of a file up to the first that is no text. -/
def readableLines (content : ByteArray) : List (List Char) :=
  -- Carriage returns in front of line feeds belong to the line break.
  let texts := (byteLines content.toList).map fun line =>
    (String.fromUTF8? ⟨line.toArray⟩).map fun text => Text.dropReturn text.toList
  (texts.takeWhile Option.isSome).filterMap id

/-- The rules of an ignore file in their order. -/
def rulesOf (content : ByteArray) : List Rule :=
  -- A byte order mark in front of the first line does not count.
  match readableLines content with
  | [] => []
  | first :: rest => (first.dropWhile (· == '\ufeff') :: rest).filterMap Rule.ofLine

/-- What the last rule that concerns an entry says about it. -/
def lastVerdict (rules : List Rule) (path : String) (isDirectory : Bool) : Option Verdict :=
  -- Later rules overrule earlier ones.
  (rules.reverse.find? fun rule => rule.concerns path isDirectory).map Rule.verdict

/-- The rules that a directory has for what is below it. -/
structure Level where
  /-- The names that lead to the directory. -/
  names : List String
  /-- The rules of its general ignore file. -/
  general : List Rule
  /-- The rules of its version control file. -/
  tracked : List Rule
  /-- The rules that its repository keeps apart. -/
  excluded : List Rule
  /-- The directory is the top of a repository. -/
  isRepository : Bool

namespace Level

/-- The rules of the file that names lead to, none when there is no such file. -/
def rulesAt (tree : FileTree) (names : List String) : List Rule :=
  -- Directories hold no rules.
  match tree.at? names with
  | some (.file content) => rulesOf content
  | _ => []

/-- The rules that a directory has. -/
def ofDirectory (names : List String) (tree : FileTree) : Level where
  names := names
  general := rulesAt tree [".ignore"]
  tracked := rulesAt tree [".gitignore"]
  excluded := rulesAt tree [".git", "info", "exclude"]
  isRepository := (tree.entry? ".git").isSome

/-- The path of an entry below a directory. -/
def pathBelow (level : Level) (names : List String) : String :=
  -- The names of the directory are left out.
  String.intercalate "/" (names.drop level.names.length)

end Level

/-- What the rules of the nearest directory that has an opinion say about an entry. -/
def nearestVerdict (rules : Level → List Rule) (levels : List Level) (names : List String)
    (isDirectory : Bool) : Option Verdict :=
  -- The levels are ordered from the entry to the top.
  levels.findSome? fun level => lastVerdict (rules level) (level.pathBelow names) isDirectory

/-- The levels up to the first repository. -/
def insideRepository : List Level → List Level
  | [] => []
  | level :: rest => level :: if level.isRepository then [] else insideRepository rest

/-- What the rules of all directories above an entry say about it. -/
def verdict (levels : List Level) (names : List String) (isDirectory : Bool) : Option Verdict :=
  -- General rules come before those of version control, which need a repository.
  let tracked := if levels.any Level.isRepository then insideRepository levels else []
  nearestVerdict Level.general levels names isDirectory
    <|> nearestVerdict Level.tracked tracked names isDirectory
    <|> nearestVerdict Level.excluded tracked names isDirectory

/-- An entry is passed over: rules decide, and without any, entries whose name starts with a dot. -/
def isIgnored (levels : List Level) (names : List String) (isDirectory : Bool) : Bool :=
  -- A rule that keeps an entry also keeps it when it is hidden.
  match verdict levels names isDirectory with
  | some verdict => verdict == .ignored
  | none => (names.getLast?.map fun name => name.startsWith ".").getD false

end SourceOutline.Ignore
