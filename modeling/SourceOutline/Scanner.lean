import SourceOutline.FileTree.Disk
import SourceOutline.Ignore.Rule
import SourceOutline.Language
import SourceOutline.Settings

/-! The search for source files below a directory. -/

namespace SourceOutline

/-- A file met on a walk. -/
structure FoundFile where
  /-- The path of the file. -/
  path : String
  /-- The size of the file in bytes. -/
  size : Nat
  deriving DecidableEq, Repr

namespace FileTree

/-- Names of directories that hold no sources of their own, in small letters. -/
def foreignNames : List String :=
  [".git", ".hg", ".svn", ".idea", ".vscode", ".yarn", ".npm", ".cache", "node_modules", ".next",
    ".turbo", ".parcel-cache", ".nuxt", ".svelte-kit", "build", "dist", "coverage", "target",
    ".venv", "venv", ".tox", ".mypy_cache", "__pycache__", "site-packages", "vendor", "third_party",
    "third-party"]

/-- A name stands for something foreign, whatever its case. -/
def isForeign (name : String) : Bool :=
  -- Files of such a name are passed over as well.
  foreignNames.contains (Text.lowercase name)

/-- An entry is entered or reported on a walk. -/
def isVisited (levels : List Ignore.Level) (names : List String) (name : String)
    (tree : FileTree) : Bool :=
  -- Rules come first, but they cannot bring back what is foreign.
  !Ignore.isIgnored levels (names ++ [name]) tree.isDirectory && !isForeign name

mutual

/-- The files of an entry that is visited, with its path and the names that lead to it. -/
def walk (levels : List Ignore.Level) (path : String) (names : List String) :
    FileTree → List FoundFile
  | .file content => [⟨path, content.size⟩]
  | .directory entries =>
    walkEntries (Ignore.Level.ofDirectory names (.directory entries) :: levels) path names entries

/-- The files of the entries of a directory, those passed over left out. -/
def walkEntries (levels : List Ignore.Level) (path : String) (names : List String) :
    List (String × FileTree) → List FoundFile
  | [] => []
  | entry :: rest =>
    (if isVisited levels names entry.1 entry.2 then
      entry.2.walk levels (FilePath.join path entry.1) (names ++ [entry.1])
    else []) ++ walkEntries levels path names rest

end

/-- The rules of the directories above the one that names lead to, the nearest first. -/
def levelsAbove (tree : FileTree) (names : List String) : List Ignore.Level :=
  -- The directory itself brings its own rules when it is walked.
  ((List.range names.length).reverse).map fun count =>
    Ignore.Level.ofDirectory (names.take count) ((tree.at? (names.take count)).getD empty)

end FileTree

namespace FilePath

/-- A path put into a list of paths in strictly increasing order. -/
def insertSorted (path : String) : List String → List String
  | [] => [path]
  | other :: rest =>
    -- A path that is there already is not repeated.
    if before path other then path :: other :: rest
    else if before other path then other :: insertSorted path rest
    else other :: rest

/-- Paths in strictly increasing order. -/
def sorted (paths : List String) : List String :=
  -- One path after the other is put in its place.
  paths.foldr insertSorted []

end FilePath

/-- A search for source files. -/
structure Scanner where
  /-- The directory or file in which the search starts. -/
  root : String
  /-- The size in bytes above which a file is passed over. -/
  maxFileBytes : Nat := ({} : Settings).maxFileBytes
  /-- The only language wanted. -/
  only : Option Language := none

namespace Scanner

/-- A file is wanted. -/
def wants (scanner : Scanner) (file : FoundFile) : Bool :=
  -- The extension tells the language.
  match Language.ofPath file.path with
  | .error _ => false
  | .ok language =>
    scanner.only.all (· == language) && file.size ≤ scanner.maxFileBytes

/-- All files met from the start of the search on. -/
def walk (scanner : Scanner) (disk : Disk) : List FoundFile :=
  -- Rules of directories above the start hold for what is below it, but not for the start itself.
  match disk.locate scanner.root with
  | .error _ => []
  | .ok (names, tree) => tree.walk (disk.root.levelsAbove names) scanner.root names

/-- The paths of the wanted files in strictly increasing order. -/
def scan (scanner : Scanner) (disk : Disk) : List String :=
  -- The order of the walk does not matter.
  FilePath.sorted (((scanner.walk disk).filter scanner.wants).map FoundFile.path)

end Scanner

end SourceOutline
