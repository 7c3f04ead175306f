import SourceOutline.Proofs.FileTree.Resolution

/-! Files that stand where a directory should be. -/

namespace SourceOutline.Disk

/-- A file stands where a path leads or where it passes, and this is reported when a directory is to be
made there. -/
inductive IsBlocked (disk : Disk) (path : String) : FileProblem → Prop where
  /-- The path leads to a file. -/
  | last {front names : List String} {name : String} {content : ByteArray} (free : '\x00' ∉ path.toList)
    (walked : steps path = front ++ [name])
    (gone : (front ++ [name]).foldlM disk.step (disk.start path) = .ok names)
    (file : disk.root.at? names = some (.file content)) : IsBlocked disk path .exists
  /-- The path leads on from a file. -/
  | passed {front rest names : List String} {name next : String} {content : ByteArray}
    (free : '\x00' ∉ path.toList) (walked : steps path = front ++ name :: next :: rest)
    (gone : (front ++ [name]).foldlM disk.step (disk.start path) = .ok names)
    (file : disk.root.at? names = some (.file content)) : IsBlocked disk path .notDirectory

variable {disk : Disk} {path : String} {names found : List String}

/-- Steps that lead to a directory start from one. -/
theorem exists_directory_of_gone {steps : List String} {entries : List (String × FileTree)}
    (gone : steps.foldlM disk.step names = .ok found)
    (there : disk.root.at? found = some (.directory entries)) :
    ∃ others, disk.root.at? names = some (.directory others) := by
  cases steps with
  | nil =>
    cases gone
    exact ⟨entries, there⟩
  | cons name rest =>
    rw [List.foldlM_cons] at gone
    obtain ⟨next, first, -⟩ := bind_eq_ok.mp gone
    exact exists_directory_of_step first

/-- Directories that are there are not made again. -/
theorem makeDirectory_append {front : List String} {entries : List (String × FileTree)}
    (gone : front.foldlM disk.step names = .ok found)
    (there : disk.root.at? found = some (.directory entries)) (rest : List String) :
    disk.makeDirectory names (front ++ rest) = disk.makeDirectory found rest := by
  induction front generalizing names with
  | nil =>
    cases gone
    rfl
  | cons name front ih =>
    rw [List.foldlM_cons] at gone
    obtain ⟨next, first, later⟩ := bind_eq_ok.mp gone
    obtain ⟨others, isDirectory⟩ := exists_directory_of_gone later there
    rw [List.cons_append, makeDirectory]
    simp only [first, isDirectory, bind, Except.bind]
    exact ih later

/-- A file stands in the way of a directory, whether it is the last step or not. -/
theorem makeDirectory_of_file {front rest : List String} {name : String} {content : ByteArray}
    (gone : (front ++ [name]).foldlM disk.step names = .ok found)
    (file : disk.root.at? found = some (.file content)) :
    disk.makeDirectory names (front ++ name :: rest) =
      .error (if rest.isEmpty then .exists else .notDirectory) := by
  rw [List.foldlM_append] at gone
  obtain ⟨above, reached, last⟩ := bind_eq_ok.mp gone
  rw [List.foldlM_cons] at last
  obtain ⟨next, onward, ended⟩ := bind_eq_ok.mp last
  cases ended
  obtain ⟨entries, there⟩ := exists_directory_of_step onward
  rw [makeDirectory_append reached there, makeDirectory]
  simp only [onward, file, bind, Except.bind]
  rfl

/-- Where a file stands in the way, no directory is made. -/
theorem IsBlocked.createDirectories {problem : FileProblem} (blocked : disk.IsBlocked path problem) :
    disk.createDirectories path = .error problem := by
  cases blocked with
  | last free walked gone file =>
    rw [Disk.createDirectories, if_neg (by simpa using free), walked]
    exact makeDirectory_of_file gone file
  | passed free walked gone file =>
    rw [Disk.createDirectories, if_neg (by simpa using free), walked]
    exact makeDirectory_of_file gone file

end SourceOutline.Disk
