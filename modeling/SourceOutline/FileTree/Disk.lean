import SourceOutline.FilePath
import SourceOutline.FileTree.Basic
import SourceOutline.Failure

/-! File trees addressed by paths. -/

namespace SourceOutline

/-- A file tree as a program sees it. -/
structure Disk where
  /-- The whole tree. -/
  root : FileTree
  /-- The names that lead to the directory in which relative paths start. -/
  workingDirectory : List String := []
  /-- The directory for temporary files. -/
  temporaryDirectory : String := "/tmp"

namespace Disk

/-- The longest name that an entry may have, in bytes. -/
def longestName : Nat := 255

/-- The names between the slashes of a path. -/
def steps (path : String) : List String :=
  -- Slashes side by side count as one.
  ((FilePath.pieces path).filter fun piece => !piece.isEmpty).map String.ofList

/-- The names that lead to where a path starts. -/
def start (disk : Disk) (path : String) : List String :=
  -- A leading slash is the top of the tree.
  if path.startsWith "/" then [] else disk.workingDirectory

/-- The names that lead one step on from a directory, whether or not they lead to an entry. -/
def step (disk : Disk) (names : List String) (name : String) : Except FileProblem (List String) :=
  -- Only directories can be left.
  match disk.root.at? names with
  | none => .error .missing
  | some (.file _) => .error .notDirectory
  | some (.directory _) =>
    if name == "." then .ok names
    else if name == ".." then .ok names.dropLast
    else if name.utf8ByteSize > longestName then .error .nameTooLong
    else .ok (names ++ [name])

/-- A path as the steps to go, unless no entry can have it. -/
def route (path : String) : Except FileProblem (List String) :=
  -- A slash at the end asks for a directory, as a step that stays does.
  if path.isEmpty then .error .missing
  else if path.toList.contains '\x00' then .error .nulInPath
  else .ok (steps path ++ if path.endsWith "/" then ["."] else [])

/-- The names that lead to the entry of a path, and the entry. -/
def locate (disk : Disk) (path : String) : Except FileProblem (List String × FileTree) := do
  -- The steps are gone one after the other, so the first obstacle is reported.
  let names ← (← route path).foldlM disk.step (disk.start path)
  match disk.root.at? names with
  | none => throw .missing
  | some tree => return (names, tree)

/-- The entry of a path. -/
def find (disk : Disk) (path : String) : Except FileProblem FileTree :=
  -- Where it stands in the tree does not matter.
  (disk.locate path).map Prod.snd

/-- A path has an entry. -/
def has (disk : Disk) (path : String) : Bool :=
  -- An obstacle on the way counts as no entry.
  (disk.find path).isOk

/-- A path leads to a directory. -/
def isDirectory (disk : Disk) (path : String) : Bool :=
  -- An obstacle on the way counts as no directory.
  match disk.find path with
  | .ok (.directory _) => true
  | _ => false

/-- A path leads to a file. -/
def isFile (disk : Disk) (path : String) : Bool :=
  -- An obstacle on the way counts as no file.
  match disk.find path with
  | .ok (.file _) => true
  | _ => false

/-- The content of a file. -/
def read (disk : Disk) (path : String) : Except FileProblem ByteArray := do
  -- Directories have no content of their own.
  match ← disk.find path with
  | .file content => return content
  | .directory _ => throw .isDirectory

/-- The text that a file holds. -/
def readText (disk : Disk) (path : String) : Except FileProblem String := do
  -- The content must be a text as a whole.
  match String.fromUTF8? (← disk.read path) with
  | some text => return text
  | none => throw .notText

/-- The names of the entries of a directory in order. -/
def list (disk : Disk) (path : String) : Except FileProblem (List String) := do
  -- Files have no entries.
  match ← disk.find path with
  | .file _ => throw .notDirectory
  | tree => return tree.names

/-- A program can run in the directory of a path. -/
def enter (disk : Disk) (path : String) : Except FileProblem Unit := do
  -- Files cannot be entered.
  match ← disk.find path with
  | .file _ => throw .notDirectory
  | .directory _ => return ()

/-- Names as a path from the top. -/
def absolute (names : List String) : String :=
  -- The top itself is a single slash.
  "/" ++ String.intercalate "/" names

/-- A path from the top to the same entry without detours. -/
def canonical (disk : Disk) (path : String) : Except FileProblem String :=
  -- The steps of the path are replaced by the names that they lead to.
  (disk.locate path).map fun found => absolute found.1

/-- A path from the top that continues with the given one. -/
def fromTop (disk : Disk) (path : String) : String :=
  -- A path that starts at the top stays as it is.
  if path.startsWith "/" then path else FilePath.join (absolute disk.workingDirectory) path

/-- The disk with a directory at the end of some steps, each of which may be missing. -/
def makeDirectory (disk : Disk) (names : List String) : List String → Except FileProblem Disk
  | [] => .ok disk
  | name :: rest => do
    -- A file stands in the way, whether it is the last step or not.
    let names ← disk.step names name
    match disk.root.at? names with
    | none => makeDirectory { disk with root := disk.root.put names .empty } names rest
    | some (.directory _) => disk.makeDirectory names rest
    | some (.file _) => throw (if rest.isEmpty then .exists else .notDirectory)

/-- The disk with a directory of a path, made together with those above it where missing. -/
def createDirectories (disk : Disk) (path : String) : Except FileProblem Disk :=
  -- The empty path asks for nothing.
  if path.toList.contains '\x00' then .error .nulInPath
  else disk.makeDirectory (disk.start path) (steps path)

/-- The disk with a file of a path, whose directory must be there. -/
def write (disk : Disk) (path : String) (content : ByteArray) : Except FileProblem Disk := do
  -- A path that can only be a directory is none for a file.
  let names ← (← route path).foldlM disk.step (disk.start path)
  match disk.root.at? names with
  | some (.directory _) => throw .isDirectory
  | _ => return { disk with root := disk.root.put names (.file content) }

/-- The disk without the entry of a path and all it holds. -/
def remove (disk : Disk) (path : String) : Except FileProblem Disk := do
  -- The entry must be there.
  let found ← disk.locate path
  return { disk with root := disk.root.erase found.1 }

end Disk

end SourceOutline
