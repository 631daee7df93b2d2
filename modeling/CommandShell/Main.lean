import CommandShell.Editor
import CommandShell.Launch

/-!
# The program

The outer layer: it hands the arguments, the environment, the files of the working
directory and those that are named to the shell, and passes lines in and texts out.
-/

namespace CommandShell.Program

/-- The variables of the environment that matter to the shell itself. -/
def knownVariables : List String :=
  ["HOME", "NO_COLOR", "FORCE_COLOR", "XDG_CONFIG_HOME", "XDG_STATE_HOME"]

/-- The accounts of the system. -/
def accounts : IO (List (String × String)) := do
  try
    return Environment.accountsIn (← IO.FS.readFile "/etc/passwd")
  catch _ => return standardAccounts

/-- The environment, as far as the shell can ask for it, before the places of its files are
known. -/
def bareEnvironment (arguments : Arguments) : IO Environment := do
  let names := knownVariables ++ Environment.referredTo arguments.config
  let bindings ← names.filterMapM fun name => do
    return (← IO.getEnv name).map fun value => (name, value)
  let account := (← IO.getEnv "USER").getD "root"
  return { bindings := bindings, accounts := ← accounts, account := account }

/-- The octets of a file. -/
def octetsOf (path : String) : IO (List UInt8) := do
  return (← IO.FS.readBinFile path).toList

/-- The files below a directory entry. -/
partial def entriesBelow (place : Place) (entry : IO.FS.DirEntry) : IO (List (Place × Entry)) := do
  let place := place ++ [entry.fileName]
  if ← entry.path.isDir then
    let below ← (← entry.path.readDir).toList.mapM (entriesBelow place)
    return (place, .directory) :: below.flatten
  else
    return [(place, .file (← octetsOf entry.path.toString))]

/-- A file with the directories that lead to it; nothing, if it cannot be read. -/
def fileAt (path : String) : IO (List (Place × Entry)) := do
  try
    let octets ← octetsOf path
    let place := Path.parts path
    let above := (List.range place.length).map fun k => (place.take k, Entry.directory)
    return (place, .file octets) :: above
  catch _ => return []

/-- The files of the working directory, and those at the given paths that lie elsewhere. -/
def disk (paths : List String) : IO Disk := do
  let cwd ← IO.currentDir
  let place := Path.parts cwd.toString
  let entries ← (← cwd.readDir).toList.mapM (entriesBelow place)
  let others ← (paths.filter Path.isAbsolute).mapM fileAt
  return { cwd := place, entries := entries.flatten ++ others.flatten }

/-- Brings the file system up to date with what the shell did to a file. -/
def save (before : Disk) (change : Place × Entry) : IO Unit := do
  if before.look change.1 == some change.2 then return
  let path := "/" ++ "/".intercalate change.1
  match change.2 with
  | .directory => IO.FS.createDirAll path
  | .void => return
  | .file octets => IO.FS.writeBinFile path ⟨octets.toArray⟩

/-- Passes on what the shell wrote, and forgets it. -/
def publish (before : Disk) (m : Machine Unit) : IO (Machine Unit) := do
  let out ← IO.getStdout
  out.putStr m.workspace.output
  out.flush
  (← IO.getStderr).putStr m.screen
  m.workspace.disk.entries.reverse.forM (save before)
  return { m with screen := "", trace := [], workspace := { m.workspace with output := "" } }

/-- Shows why the program cannot go on. -/
def complain (fault : Fault) : IO Unit :=
  IO.eprintln (fault.kind ++ ": " ++ fault.message)

/-- Carries a session out and publishes what it did; a failure is shown. -/
def carryOut {α : Type} (session : Session Unit α) (m : Machine Unit) :
    IO (Option α × Machine Unit) := do
  let (outcome, after) := session m
  let after ← publish m.workspace.disk after
  match outcome with
  | .ok a => return (some a, after)
  | .error fault =>
    complain fault
    return (none, after)

/-- Reads lines from the console until the input ends or the shell is stopped. -/
partial def converse (I : Interpreter Unit) (m : Machine Unit) : IO Unit := do
  if m.workspace.stopped then return
  let out ← IO.getStdout
  out.putStr I.shell.prompt
  out.flush
  let line ← (← IO.getStdin).getLine
  if line.isEmpty then
    let _ ← carryOut (I.perform Routine.endInput) m
    return
  let (_, m) ← carryOut (I.perform (Routine.turn (Text.bare line))) m
  converse I m

/-- Runs the shell in an environment; answers with the number that the system is given. -/
def runIn (environment : Environment) (words : List String) : IO UInt32 := do
  let arguments := Arguments.parse words
  let paths := environment.locations.settingsFile :: arguments.config :: arguments.scripts
  let m : Machine Unit :=
    { workspace :=
        { store := {}
          disk := ← disk paths
          environment := environment
          application := () }
      journal := Journal.fresh }
  match ← carryOut (Launch.start words) m with
  | (none, _) => return 1
  | (some (.inl exit), _) => return UInt32.ofNat exit.code
  | (some (.inr ready), m) =>
    let I : Interpreter Unit := Launch.interpreter ready.shell
    match ← carryOut (I.perform (Launch.ownConsole (ready.settings.text "history_file"))) m with
    | (none, _) => return 1
    | (some (), m) =>
      converse I m
      return 0

/-- Runs the shell; answers with the number that the system is given. -/
def run (words : List String) : IO UInt32 := do
  let environment ← bareEnvironment (Arguments.parse words)
  match environment.findLocations with
  | .error fault =>
    complain fault
    return 1
  | .ok locations => runIn { environment with locations := locations } words

end CommandShell.Program

/-- Runs the shell. -/
def main (words : List String) : IO UInt32 :=
  CommandShell.Program.run words
