/-! Paths of files: their components, their extension and their order. -/

namespace SourceOutline

/-- A step along a path. -/
inductive Component where
  /-- The top of the file tree. -/
  | root
  /-- The directory that the path starts from. -/
  | here
  /-- The directory above. -/
  | above
  /-- The entry of a name. -/
  | entry (name : String)
  deriving DecidableEq, Repr

namespace FilePath

/-- The text between slashes. -/
def pieces (path : String) : List (List Char) :=
  -- A slash opens a new piece in front of those already found.
  path.toList.foldr
    (fun c found =>
      if c == '/' then [] :: found
      else match found with
        | [] => [[c]]
        | piece :: rest => (c :: piece) :: rest)
    [[]]

/-- The step that a piece behind the first one stands for, if any. -/
def laterComponent (piece : List Char) : Option Component :=
  -- Empty pieces and single dots do not move.
  if piece.isEmpty || piece == ['.'] then none
  else if piece == ['.', '.'] then some .above
  else some (.entry (String.ofList piece))

/-- The steps of a path. -/
def components (path : String) : List Component :=
  -- Only at the start do a slash and a single dot count.
  match pieces path with
  | [] => []
  | [first] => if first == ['.'] then [.here] else (laterComponent first).toList
  | first :: rest =>
    let start :=
      if first.isEmpty then [Component.root]
      else if first == ['.'] then [.here]
      else (laterComponent first).toList
    start ++ rest.filterMap laterComponent

/-- The name that a path ends in. -/
def fileName (path : String) : Option String :=
  -- A path that ends in a step upward or at the top has none.
  match (components path).getLast? with
  | some (.entry name) => some name
  | _ => none

/-- What follows the last dot of a name that has something before that dot. -/
def nameExtension (name : String) : Option String :=
  -- Reading from the right, the extension is what comes before the first dot.
  let reversed := name.toList.reverse
  match reversed.dropWhile (· != '.') with
  | [] => none
  | _ :: before =>
    if before.isEmpty then none
    else some (String.ofList (reversed.takeWhile (· != '.')).reverse)

/-- The extension of the file that a path names. -/
def extension (path : String) : Option String :=
  -- Dots in the names of directories do not count.
  (fileName path).bind nameExtension

/-- The rank of a kind of step in the order of paths. -/
def Component.rank : Component → Nat
  | .root => 0
  | .here => 1
  | .above => 2
  | .entry _ => 3

/-- The name of a step, empty when it has none. -/
def Component.name : Component → String
  | .entry name => name
  | _ => ""

/-- One step comes before another. -/
def Component.before (a b : Component) : Bool :=
  -- Entries are ordered by name, behind all other steps.
  rank a < rank b || (rank a == rank b && name a < name b)

/-- One list of steps comes before another. -/
def componentsBefore : List Component → List Component → Bool
  | _, [] => false
  | [], _ :: _ => true
  | a :: as, b :: bs =>
    -- The first steps that differ decide; a path comes before those that continue it.
    Component.before a b || (a == b && componentsBefore as bs)

/-- One path comes before another, step by step. -/
def before (a b : String) : Bool :=
  -- The spelling of a path does not count beyond its steps.
  componentsBefore (components a) (components b)

/-- A path continued by the name of an entry. -/
def join (path name : String) : String :=
  -- A slash separates the two unless it is already there or nothing precedes it.
  if path.isEmpty || path.endsWith "/" then path ++ name else path ++ "/" ++ name

end FilePath

end SourceOutline
