import SourceOutline.FileTree.Disk
import SourceOutline.Language

/-! Names of entries, and paths that are continued by them. -/

namespace SourceOutline

namespace FilePath

/-- A name that an entry of a directory can have. -/
structure IsName (name : String) : Prop where
  /-- It is not empty. -/
  nonempty : name ≠ ""
  /-- It is not the name by which a directory knows itself. -/
  notHere : name ≠ "."
  /-- It is not the name by which a directory knows the one above it. -/
  notAbove : name ≠ ".."
  /-- It does not hold what separates names. -/
  noSlash : '/' ∉ name.toList
  /-- It does not hold what ends paths. -/
  noNul : '\x00' ∉ name.toList
  /-- It is not too long. -/
  short : name.utf8ByteSize ≤ Disk.longestName

instance (name : String) : Decidable (IsName name) :=
  decidable_of_iff (name ≠ "" ∧ name ≠ "." ∧ name ≠ ".." ∧ '/' ∉ name.toList ∧ '\x00' ∉ name.toList ∧
      name.utf8ByteSize ≤ Disk.longestName)
    ⟨fun ⟨nonempty, notHere, notAbove, noSlash, noNul, short⟩ =>
        ⟨nonempty, notHere, notAbove, noSlash, noNul, short⟩,
      fun isName => ⟨isName.nonempty, isName.notHere, isName.notAbove, isName.noSlash, isName.noNul,
        isName.short⟩⟩

/-- The pieces of a text that begins with a character, given those of the rest. -/
def pieceStep (c : Char) (found : List (List Char)) : List (List Char) :=
  if c == '/' then [] :: found
  else match found with
    | [] => [[c]]
    | piece :: rest => (c :: piece) :: rest

/-- Pieces are found from the end to the start. -/
theorem pieces_eq (path : String) : pieces path = path.toList.foldr pieceStep [[]] := rfl

/-- Every text has a piece. -/
theorem foldr_pieceStep_ne_nil (cs : List Char) : cs.foldr pieceStep [[]] ≠ [] := by
  cases cs with
  | nil => simp
  | cons c rest =>
    rw [List.foldr_cons]
    unfold pieceStep
    split
    · simp
    · split <;> simp

/-- The pieces behind a slash are found on their own. -/
theorem foldr_pieceStep_slash (front : List Char) (behind : List (List Char)) :
    front.foldr pieceStep ([] :: behind) = front.foldr pieceStep [[]] ++ behind := by
  induction front with
  | nil => rfl
  | cons c rest ih =>
    rw [List.foldr_cons, List.foldr_cons, ih]
    cases found : rest.foldr pieceStep [[]] with
    | nil => exact absurd found (foldr_pieceStep_ne_nil rest)
    | cons piece more =>
      unfold pieceStep
      split <;> rfl

/-- The text behind a slash has its own pieces. -/
theorem pieces_slash (front back : String) : pieces (front ++ "/" ++ back) = pieces front ++ pieces back := by
  have slash : "/".toList = ['/'] := rfl
  simp only [pieces_eq, String.toList_append, slash, List.append_assoc, List.foldr_append,
    List.foldr_cons, List.foldr_nil]
  exact foldr_pieceStep_slash _ _

/-- A text without slashes is a single piece. -/
theorem pieces_of_free {name : String} (free : '/' ∉ name.toList) : pieces name = [name.toList] := by
  rw [pieces_eq]
  revert free
  induction name.toList with
  | nil => exact fun _ => rfl
  | cons c rest ih =>
    intro free
    have other : c ≠ '/' := fun same => free (same ▸ List.mem_cons_self)
    rw [List.foldr_cons, ih fun member => free (List.mem_cons_of_mem _ member)]
    simp [pieceStep, other]

/-- A path ends in a slash. -/
theorem endsWith_slash_iff (path : String) : path.endsWith "/" = true ↔ ∃ front, path = front ++ "/" := by
  rw [String.endsWith, String.Slice.endsWith_string_iff, String.copy_toSlice]
  constructor
  · rintro ⟨front, ends⟩
    exact ⟨String.ofList front, String.toList_inj.mp (by simp [← ends])⟩
  · rintro ⟨front, rfl⟩
    exact ⟨front.toList, by simp⟩

/-- A path is continued behind a slash, which it may bring itself. -/
theorem join_cases (path name : String) :
    path = "" ∧ join path name = name ∨
      ∃ front, (path = front ∨ path = front ++ "/") ∧ join path name = front ++ "/" ++ name := by
  rw [join]
  by_cases isEmpty : path = ""
  · exact .inl ⟨isEmpty, by simp [isEmpty]⟩
  · by_cases ends : path.endsWith "/" = true
    · obtain ⟨front, same⟩ := (endsWith_slash_iff path).mp ends
      exact .inr ⟨front, .inr same, by rw [if_pos (by simp [ends]), same]⟩
    · exact .inr ⟨path, .inl rfl, by rw [if_neg (by simp [ends, isEmpty])]⟩

/-- A continued path begins with the path. -/
theorem prefix_join (path name : String) : path.toList <+: (join path name).toList := by
  rw [join]
  split <;> simp [String.toList_append]

/-- A continued path is not empty if the path is not. -/
theorem join_ne_empty {path : String} (shown : path ≠ "") (name : String) : join path name ≠ "" := by
  intro isEmpty
  have whole := prefix_join path name
  rw [isEmpty] at whole
  exact shown (by simpa using whole)

/-- A continued path ends with the characters of the name. -/
theorem suffix_join (path name : String) : name.toList <:+ (join path name).toList := by
  rw [join]
  split <;> rw [String.toList_append] <;> exact List.suffix_append _ _

/-- The pieces of a continued path end with the name. -/
theorem pieces_join {name : String} (free : '/' ∉ name.toList) (path : String) :
    ∃ front, pieces (join path name) = front ++ [name.toList] ∧
      front.filter (fun piece => !piece.isEmpty) = (pieces path).filter fun piece => !piece.isEmpty := by
  have alone := pieces_of_free free
  rcases join_cases path name with ⟨rfl, joined⟩ | ⟨front, spelled, joined⟩ <;> rw [joined]
  · exact ⟨[], alone, rfl⟩
  · refine ⟨pieces front, by rw [pieces_slash, alone], ?_⟩
    rcases spelled with rfl | rfl
    · rfl
    · have closed := pieces_slash front ""
      rw [String.append_empty] at closed
      rw [closed, List.filter_append]
      exact (List.append_nil _).symm

/-- One more step leads to the entry of a name, also when the name is too long for one. -/
theorem steps_join {name : String} (shown : name ≠ "") (free : '/' ∉ name.toList) (path : String) :
    Disk.steps (join path name) = Disk.steps path ++ [name] := by
  obtain ⟨front, pieced, same⟩ := pieces_join free path
  have kept : name.toList.isEmpty = false := by simp [shown]
  rw [Disk.steps, pieced, List.filter_append, same, Disk.steps]
  simp [kept]

section Join

variable {name : String} (isName : IsName name) (path : String)

include isName

/-- A continued path ends in the name. -/
theorem fileName_join : fileName (join path name) = some name := by
  obtain ⟨front, pieced, -⟩ := pieces_join isName.noSlash path
  have notEmpty : name.toList.isEmpty = false := by simp [isName.nonempty]
  have notHere : name.toList ≠ ['.'] := fun same => isName.notHere (String.toList_inj.mp same)
  have notAbove : name.toList ≠ ['.', '.'] := fun same => isName.notAbove (String.toList_inj.mp same)
  have step : laterComponent name.toList = some (.entry name) := by
    simp [laterComponent, notEmpty, notHere, notAbove]
  rw [fileName, components, pieced]
  cases front with
  | nil => simp [notHere, step]
  | cons piece rest => simp [step]

/-- A continued path does not end in a slash. -/
theorem endsWith_slash_join : (join path name).endsWith "/" = false := by
  rw [Bool.eq_false_iff]
  intro ends
  obtain ⟨front, told⟩ := suffix_join path name
  obtain ⟨other, same⟩ := (endsWith_slash_iff _).mp ends
  -- The last character of the name would be the slash.
  have shown : name.toList ≠ [] := by simpa using isName.nonempty
  rw [same, String.toList_append] at told
  have ended := congrArg List.getLast? told
  rw [List.getLast?_append, List.getLast?_eq_some_getLast shown, Option.some_or,
    List.getLast?_append] at ended
  have last : name.toList.getLast shown = '/' := Option.some.inj ended
  exact isName.noSlash (last ▸ List.getLast_mem shown)

/-- A continued path holds the character that ends paths only if the path did. -/
theorem nul_mem_join : '\x00' ∈ (join path name).toList → '\x00' ∈ path.toList := by
  have free := isName.noNul
  rcases join_cases path name with ⟨_, joined⟩ | ⟨front, rfl | rfl, joined⟩ <;> rw [joined] <;>
    simp [free]

/-- The extension of a continued path is that of the name. -/
theorem extension_join : extension (join path name) = nameExtension name := by
  rw [extension, fileName_join isName]
  rfl

end Join

/-- A path leads to a script, by its extension. -/
def isScript (path : String) : Bool :=
  match Language.ofPath path with
  | .ok language => language.usesEngine
  | .error _ => false

/-- Only the extension tells scripts. -/
theorem isScript_of_extension {a b : String} (same : extension a = extension b) :
    isScript a = isScript b := by
  rw [isScript, isScript, Language.ofPath, Language.ofPath, same]
  cases extension b <;> rfl

/-- Whether a continued path leads to a script is told by the name. -/
theorem isScript_join {name : String} (isName : IsName name) (path : String) :
    isScript (join path name) = isScript name := by
  refine isScript_of_extension ((extension_join isName path).trans ?_)
  have alone := extension_join isName ""
  rw [show join "" name = name by simp [join]] at alone
  exact alone.symm

end FilePath

end SourceOutline
