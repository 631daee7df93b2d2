import CommandShell.Arguments
import CommandShell.Dispatch
import CommandShell.Editor
import CommandShell.Settings.Load

/-!
# Launching the shell

The program reads its settings, sets up the log, runs the scripts that it was given
and then, unless it was told not to, opens a console and reads lines from it.

A launched shell has a tree of its own, with the built-in commands; the log, the files
and the output are those of the machine it is launched on.

## Main definitions

* `Launch.prepare` — everything up to the scripts.
* `Launch.runScripts` — the scripts.
* `Launch.start` — the program up to its console.
* `Launch.run` — the program; `Launch.runOn` has another console.
-/

namespace CommandShell

namespace Launch

variable {σ α : Type}

/-- A note of the program as a whole. -/
def say (level : Int) (message : String) : Session σ Unit :=
  Session.change fun m => m.tell ⟨Channel.program, level, message, none⟩

/-- An answer whose notes are made. -/
def noted (x : Noted α) : Session σ α := fun m => (.ok x.value, m.tellAll x.notes)

/-- Changes the log. -/
def changeLog (change : Journal.Change) : Session σ Unit := fun m => m.changeLog change

/-! ## Before the scripts -/

/-- Loads the settings, or tells that they cannot be used. -/
def loadSettings (path : String) : Session σ (Option Settings) := fun m =>
  let loaded := Settings.load Channel.program m.workspace.disk m.workspace.environment path
  let m := m.tellAll loaded.notes
  match loaded.value with
  | .ok loaded => (.ok (some loaded.settings), m)
  | .error fault => if fault.isAbort then (.ok none, m) else (.error fault, m)

/-- Sets the level of the log that the settings tell, unless everything is logged. -/
def applyLevel (debug : Bool) (settings : Settings) : Session σ Unit :=
  match Level.parse? (settings.text "log_level") with
  | some level => if debug then Session.pure () else changeLog (.level level)
  | none => Session.pure ()

/-- Opens the log file that the settings tell; answers whether it could be. -/
def applyFile (settings : Settings) : Session σ Bool := fun m =>
  let path := settings.text "log_file"
  if path.isEmpty then (.ok true, m)
  else
    match m.changeLog (.file path) with
    | (.ok (), m) => (.ok true, m)
    | (.error fault, m) =>
      if fault.isFileTrouble then
        (.ok false,
          m.tell ⟨Channel.program, Level.critical,
            "Cannot open log file " ++ path ++ ": " ++ fault.message, none⟩)
      else (.error fault, m)

/-- A new tree with nothing but its top, for a shell that is not stopped. -/
def freshTree (m : Machine σ) : CommandId × Machine σ :=
  let (root, store) := ({} : Store).create Shell.top
  (root, { m with depth := 0, workspace := { m.workspace with store := store, stopped := false } })

/-- Makes the shell that the settings tell, with the built-in commands. -/
def makeShell (settings : Settings) : Session σ Shell :=
  Session.bind (changeLog (.obtain Channel.interpreter none)) fun () m =>
    let (root, m) := freshTree m
    Session.bind (noted (Shell.ofSettings Channel.program settings root)) (fun
      | .error fault => Session.raise fault
      | .ok shell => fun m =>
        let registered := registerBuiltins root m.workspace.store
        let m := m.tellAll registered.notes
        let m := { m with workspace := { m.workspace with store := registered.value.2 } }
        if registered.value.1 then (.ok shell, m)
        else
          (.ok shell,
            m.tell ⟨Channel.program, Level.warning,
              "Some built-in commands could not be registered", none⟩)) m

/-- A shell that is ready to run scripts. -/
structure Ready where
  /-- The shell. -/
  shell : Shell
  /-- The settings that it was made from. -/
  settings : Settings

/-- Sets up the log and makes the shell; ends early if the settings cannot be used. -/
def prepare (arguments : Arguments) : Session σ (Option Ready) :=
  Session.bind (changeLog (.restart "" arguments.debug)) fun () =>
  Session.bind (changeLog (.obtain Channel.program none)) fun () =>
  Session.bind (loadSettings arguments.config) fun
    | none => Session.pure none
    | some settings =>
      Session.bind (applyLevel arguments.debug settings) fun () =>
      Session.bind (applyFile settings) fun opened =>
        if opened then
          Session.bind (makeShell settings) fun shell => Session.pure (some ⟨shell, settings⟩)
        else Session.pure none

/-! ## Scripts and console -/

/-- The interpreter of a launched shell: an application adds no handlers. -/
def interpreter (shell : Shell) : Interpreter σ :=
  ⟨shell, fun _ _ => return Status.success⟩

/-- Tells that a script failed. -/
def reportScript (script : String) (status : Int) : Session σ Unit :=
  if status < 0 then
    say Level.error ("Script " ++ script ++ " failed with status " ++ toString status)
  else Session.pure ()

/-- Runs scripts in order.  Answers how the program ends, if it does with one of them:
it was told to end with the scripts and one failed, or one stopped the shell. -/
def runScripts (shell : Shell) (batch : Bool) : List String → Session σ (Option ExitCode)
  | [] => Session.pure none
  | script :: rest =>
    Session.bind ((interpreter shell).perform (Routine.runScript script)) fun status =>
    Session.bind (reportScript script status) fun () m =>
      if status < 0 ∧ batch then (.ok (some .scriptError), m)
      else if m.workspace.stopped then (.ok (some .success), m)
      else runScripts shell batch rest m

/-- Opens a console, given the history file, and reads lines from it until the input ends or
the shell is stopped. -/
def converse (console : String → Routine σ Unit) (ready : Ready) (inputs : List Input) :
    Session σ LaunchReport :=
  let historyFile := ready.settings.text "history_file"
  Session.bind ((interpreter ready.shell).perform (console historyFile)) fun () =>
  Session.bind ((interpreter ready.shell).perform (Routine.loop inputs)) fun report =>
    Session.pure
      ⟨.success, some ⟨historyFile, List.replicate report.reads ready.shell.prompt⟩⟩

/-- Everything before the console: answers how the program ends, if it does, or the
shell that is to read lines from it. -/
def proceed (arguments : Arguments) : Session σ (ExitCode ⊕ Ready) :=
  Session.bind (prepare arguments) fun
    | none => Session.pure (.inl .configError)
    | some ready =>
      Session.bind (runScripts ready.shell arguments.batch arguments.scripts) fun
        | some exit => Session.pure (.inl exit)
        | none =>
          Session.pure (if arguments.batch then .inl .success else .inr ready)

/-- Starts the program with its arguments; where these are wrong, and where help is
wanted, it shows the usage and ends. -/
def start (words : List String) : Session σ (ExitCode ⊕ Ready) :=
  let arguments := Arguments.parse words
  if arguments.help then fun m => (.ok (.inl .success), m.write Arguments.usage)
  else if !arguments.error.isEmpty then fun m =>
    (.ok (.inl .usageError),
      (m.display ("Error: " ++ arguments.error ++ "\n")).write Arguments.usage)
  else proceed arguments

/-- Runs the program with a console of the caller's, and with what it is going to deliver. -/
def runOn (console : String → Routine σ Unit) (words : List String) (inputs : List Input) :
    Session σ LaunchReport :=
  Session.bind (start words) fun
    | .inl exit => Session.pure ⟨exit, none⟩
    | .inr ready => converse console ready inputs

/-- The console of the program. -/
def ownConsole (historyFile : String) : Routine σ Unit := do
  let _ ← Routine.openConsole historyFile

/-- Runs the program, with what its console is going to deliver. -/
def run (words : List String) (inputs : List Input) : Session σ LaunchReport :=
  runOn ownConsole words inputs

end Launch

end CommandShell
