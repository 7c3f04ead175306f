import SourceOutline.FileTree.Disk
import SourceOutline.Language

/-! The machine that runs the programs of the engine. -/

namespace SourceOutline

/-- What a program is asked to do. -/
inductive Errand where
  /-- To tell whether the engine can be loaded. -/
  | probe
  /-- To install the engine into a directory. -/
  | install (directory : String)
  /-- To parse the source in a file in a dialect. -/
  | parse (path : String) (dialect : Dialect)
  deriving DecidableEq, Repr

/-- The start of a program. -/
structure Start where
  /-- The name of the program. -/
  program : String
  /-- The directory that it runs in, when that is not the working directory. -/
  directory : Option String
  /-- What it is asked to do. -/
  errand : Errand
  deriving DecidableEq, Repr

/-- How a program ended. -/
inductive ExitStatus where
  /-- By itself, with a number that is zero when all went well. -/
  | code (number : Nat)
  /-- By a signal. -/
  | signal (number : Nat)
  deriving DecidableEq, Repr

namespace ExitStatus

/-- The program did what it was asked. -/
def isSuccess : ExitStatus → Bool
  | .code number => number == 0
  | .signal _ => false

/-- The names of the signals from the first one on. -/
def signalNames : List String :=
  ["SIGHUP", "SIGINT", "SIGQUIT", "SIGILL", "SIGTRAP", "SIGABRT", "SIGBUS", "SIGFPE", "SIGKILL",
    "SIGUSR1", "SIGSEGV", "SIGUSR2", "SIGPIPE", "SIGALRM", "SIGTERM", "SIGSTKFLT", "SIGCHLD",
    "SIGCONT", "SIGSTOP", "SIGTSTP", "SIGTTIN", "SIGTTOU", "SIGURG", "SIGXCPU", "SIGXFSZ",
    "SIGVTALRM", "SIGPROF", "SIGWINCH", "SIGIO", "SIGPWR", "SIGSYS"]

/-- An end in words. -/
def message : ExitStatus → String
  | .code number => "exit status: " ++ toString number
  | .signal number =>
    "signal: " ++ toString number ++
      match number with
      | 0 => ""
      | index + 1 => (signalNames[index]?.map fun name => " (" ++ name ++ ")").getD ""

end ExitStatus

/-- What a program leaves behind when it has ended. -/
structure ProgramReport where
  /-- How it ended. -/
  status : ExitStatus
  /-- What it answered. -/
  output : ByteArray
  /-- What it complained about. -/
  complaint : String

/-- What follows when a program is to be started. -/
inductive Reaction where
  /-- It does not start. -/
  | refused (problem : FileProblem)
  /-- It runs for some time, changes the disk and ends. -/
  | ran (disk : Disk) (milliseconds : Nat) (report : ProgramReport)

/-- A program that was started, with the disk as it was then. -/
structure Run where
  /-- The start. -/
  start : Start
  /-- The disk at the start. -/
  disk : Disk

/-- A disk, and programs whose behaviour may depend on the disk and on all earlier runs. -/
structure Machine where
  /-- The files. -/
  disk : Disk
  /-- What follows when a program is to be started. -/
  react : List Run → Disk → Start → Reaction
  /-- The programs started so far, the last one last. -/
  runs : List Run := []
  /-- The dialects in which trees were asked for without a program, the last one last. -/
  asked : List Dialect := []

/-- A computation on the machine, which may fail. -/
abbrev OnMachine (α : Type) : Type := ExceptT Failure (StateM Machine) α

namespace Machine

/-- What follows when a program is to be started on the machine as it is. -/
def reaction (machine : Machine) (start : Start) : Reaction :=
  -- A program cannot run in a directory that is not there.
  match start.directory.mapM machine.disk.enter with
  | .error problem => .refused problem
  | .ok _ => machine.react machine.runs machine.disk start

/-- The failure of a program that does not start. -/
def notStarted (program : String) (problem : FileProblem) : Failure :=
  -- The program is named as it was configured.
  .engineUnavailable ("failed to start \x60" ++ program ++ "\x60: " ++ problem.message)

/-- A program is started and awaited for some milliseconds at most. -/
def launch (start : Start) (limit : Nat) : OnMachine ProgramReport := fun machine =>
  -- A program that takes longer has run all the same.
  match machine.reaction start with
  | .refused problem => (.error (notStarted start.program problem), machine)
  | .ran disk milliseconds report =>
    let later := { machine with disk := disk, runs := machine.runs ++ [⟨start, machine.disk⟩] }
    (if milliseconds < limit then .ok report else .error (.engineTimeout limit), later)

/-- A look at the disk, which may be refused. -/
def look {α : Type} (view : Disk → Except FileProblem α) : OnMachine α := fun machine =>
  -- Looking changes nothing.
  ((view machine.disk).mapError .file, machine)

/-- A change of the disk, which may be refused. -/
def alter (change : Disk → Except FileProblem Disk) : OnMachine Unit := fun machine =>
  -- What is refused changes nothing.
  match change machine.disk with
  | .ok disk => (.ok (), { machine with disk := disk })
  | .error problem => (.error (.file problem), machine)

end Machine

end SourceOutline
