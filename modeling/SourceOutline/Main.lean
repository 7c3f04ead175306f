import SourceOutline.CommandLine.Command

/-! The program: it reads the files below the working directory and carries out its arguments. -/

namespace SourceOutline

/-- An entry of a directory with all it holds, links left out. -/
partial def readEntry (entry : IO.FS.DirEntry) : IO (Option (String × FileTree)) := do
  -- What cannot be read is as good as not there.
  try
    match (← entry.path.symlinkMetadata).type with
    | .dir =>
      let entries ← (← entry.path.readDir).toList.filterMapM readEntry
      return some (entry.fileName, .directory entries)
    | .file => return some (entry.fileName, .file (← IO.FS.readBinFile entry.path))
    | _ => return none
  catch _ => return none

/-- The machine that the program runs on, where no other program can be started. -/
def readMachine : IO Machine := do
  -- The working directory keeps its place in the tree.
  let here ← IO.currentDir
  let entries ← (← here.readDir).toList.filterMapM readEntry
  let names := Disk.steps here.toString
  return {
    disk := { root := FileTree.empty.put names (.directory entries), workingDirectory := names }
    react := fun _ _ _ => .refused .missing }

end SourceOutline

/-- The arguments are carried out, and their outcome is printed. -/
def main (arguments : List String) : IO UInt32 := do
  -- What was printed goes one way and what went wrong the other.
  let (output, _) := SourceOutline.CommandLine.run arguments (← SourceOutline.readMachine)
  IO.print output.text
  IO.eprint output.complaint
  return UInt32.ofNat output.code
