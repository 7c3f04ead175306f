import Mathlib.Data.List.Sort
import SourceOutline.Proofs.FileTree.Resolution

/-! A file that is put into a directory under a new name and taken away again. -/

namespace SourceOutline

namespace FileTree

end FileTree

namespace Disk

variable {disk left : Disk} {path name : String} {names : List String}
  {entries : List (String × FileTree)}

/-- A name is listed exactly when the directory has an entry of it. -/
theorem mem_names_iff : name ∈ (FileTree.directory entries).names ↔ ∃ entry ∈ entries, entry.1 = name := by
  simp [FileTree.names, FileTree.entries]

end Disk

end SourceOutline
