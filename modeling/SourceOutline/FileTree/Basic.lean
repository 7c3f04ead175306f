/-! Trees of files and directories. -/

namespace SourceOutline

/-- A file, or a directory with entries under names. -/
inductive FileTree where
  /-- A file. -/
  | file (content : ByteArray)
  /-- A directory, in which a name stands at most once. -/
  | directory (entries : List (String × FileTree))

namespace FileTree

instance : Inhabited FileTree := ⟨.directory []⟩

/-- A directory without entries. -/
def empty : FileTree := .directory []

/-- The entries of a directory. -/
def entries : FileTree → List (String × FileTree)
  | .file _ => []
  | .directory entries => entries

/-- The entry of a name in a directory. -/
def entry? (tree : FileTree) (name : String) : Option FileTree :=
  -- The first entry of the name is the only one.
  (tree.entries.find? fun entry => entry.1 == name).map Prod.snd

/-- The entry that names lead to, one directory after the other. -/
def at? (tree : FileTree) : List String → Option FileTree
  | [] => some tree
  | name :: rest => (tree.entry? name).bind fun inner => inner.at? rest

/-- Entries with one put under a name. -/
def putEntry (name : String) (tree : FileTree) : List (String × FileTree) → List (String × FileTree)
  | [] => [(name, tree)]
  | entry :: rest =>
    -- An entry of the same name gives way in its place.
    if entry.1 == name then (name, tree) :: rest else entry :: putEntry name tree rest

/-- The tree with an entry put where names lead to. -/
def put (tree : FileTree) (names : List String) (added : FileTree) : FileTree :=
  -- Directories on the way that are not there yet are made.
  match names with
  | [] => added
  | name :: rest =>
    .directory (putEntry name (((tree.entry? name).getD empty).put rest added) tree.entries)

/-- What was put under a name is found there. -/
theorem find?_putEntry_self (name : String) (tree : FileTree) (entries : List (String × FileTree)) :
    ((putEntry name tree entries).find? fun entry => entry.1 == name).map Prod.snd = some tree := by
  -- Entries in front of it have other names.
  induction entries with
  | nil => simp [putEntry]
  | cons entry rest ih =>
    simp only [putEntry]
    split
    · simp
    · rename_i other
      simpa [List.find?_cons, other] using ih

/-- The tree without the entry that names lead to. -/
def erase (tree : FileTree) (names : List String) : FileTree :=
  -- Nothing changes when the names lead nowhere.
  match names with
  | [] => tree
  | [name] => .directory (tree.entries.filter fun entry => entry.1 != name)
  | name :: rest =>
    match tree.entry? name with
    | none => tree
    | some inner => .directory (putEntry name (inner.erase rest) tree.entries)

/-- The entry is a directory. -/
def isDirectory : FileTree → Bool
  | .file _ => false
  | .directory _ => true

/-- The names of the entries of a directory in order. -/
def names (tree : FileTree) : List String :=
  -- Names are ordered by their characters.
  (tree.entries.map Prod.fst).mergeSort fun a b => a ≤ b

end FileTree

end SourceOutline
